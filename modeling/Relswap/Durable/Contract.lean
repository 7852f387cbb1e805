import Relswap.Durable.Program

/-!
# Weakest preconditions with a guarantee for every write

`WP solo G Q p s` says that running `p` from `s`, whatever boundaries strike,
performs only writes related by the guarantee `G`, and that `Q` holds of the
outcome and the final state. Because the guarantee speaks about every single
write, it describes the states a crash can leave as well as the final one.

With `solo` the lock actions have no effect, which is right for a program that
runs alone. Without it a program may not touch the lock at all: this is the form
needed for the body of a locked section among other processes.
-/

namespace Durable.Program

variable {σ ε α β : Type} {solo : Bool} {G G' : σ → σ → Prop}

/-- Every write of the program is related by `G`; the outcome satisfies `Q`. -/
def WP (solo : Bool) (G : σ → σ → Prop) (Q : Except ε α → σ → Prop) :
    Program σ ε α → σ → Prop
  | .pure value, s => Q (.ok value) s
  | .throw error, s => Q (.error error) s
  | .read next, s => WP solo G Q (next s) s
  | .act write next, s =>
    match write s with
    | .ok t => G s t ∧ WP solo G Q (next (.ok ())) t
    | .error error => WP solo G Q (next (.error error)) s
  | .boundary fault next, s =>
    WP solo G Q (next (.ok ())) s ∧ WP solo G Q (next (.error fault)) s
  | .acquire next, s => solo = true ∧ WP solo G Q next s
  | .release next, s => solo = true ∧ WP solo G Q next s

/-- Every step of every run, whatever boundaries strike, is related by `R`. -/
def EveryStep (R : σ → σ → Prop) (p : Program σ ε α) (s : σ) : Prop :=
  ∀ q t q' u, p.Reaches s q t → Step (q, t) (q', u) → R t u

/-- The postcondition that only constrains successful outcomes. -/
def OnOk (Q : α → σ → Prop) : Except ε α → σ → Prop
  | .ok a, s => Q a s
  | .error _, _ => True

@[simp] theorem onOk_ok (Q : α → σ → Prop) (a : α) (s : σ) :
    OnOk Q (.ok a : Except ε α) s ↔ Q a s := Iff.rfl

@[simp] theorem onOk_error (Q : α → σ → Prop) (e : ε) (s : σ) :
    OnOk Q (.error e : Except ε α) s := trivial

namespace WP

variable {Q Q' : Except ε α → σ → Prop} {p : Program σ ε α} {s : σ}

/-- Weaken the guarantee and the postcondition together. -/
theorem mono (h : WP solo G Q p s) (guarantee : ∀ a b, G a b → G' a b)
    (post : ∀ r t, Q r t → Q' r t) : WP solo G' Q' p s := by
  induction p generalizing s with
  | pure => exact post _ _ h
  | throw => exact post _ _ h
  | read next ih => exact ih _ h
  | act write next ih =>
    simp only [WP] at h ⊢
    cases hw : write s with
    | ok t => rw [hw] at h; exact ⟨guarantee _ _ h.1, ih _ h.2⟩
    | error e => rw [hw] at h; exact ih _ h
  | boundary fault next ih => exact ⟨ih _ h.1, ih _ h.2⟩
  | acquire next ih => exact ⟨h.1, ih h.2⟩
  | release next ih => exact ⟨h.1, ih h.2⟩

theorem mono_post (h : WP solo G Q p s) (post : ∀ r t, Q r t → Q' r t) :
    WP solo G Q' p s := h.mono (fun _ _ hg => hg) post

theorem mono_guarantee (h : WP solo G Q p s) (guarantee : ∀ a b, G a b → G' a b) :
    WP solo G' Q p s := h.mono guarantee fun _ _ hq => hq

/-- Two guarantees and postconditions established separately hold together. -/
theorem and (h : WP solo G Q p s) (h' : WP solo G' Q' p s) :
    WP solo (fun a b => G a b ∧ G' a b) (fun r t => Q r t ∧ Q' r t) p s := by
  induction p generalizing s with
  | pure => exact ⟨h, h'⟩
  | throw => exact ⟨h, h'⟩
  | read next ih => exact ih _ h h'
  | act write next ih =>
    simp only [WP] at h h' ⊢
    cases hw : write s with
    | ok t => rw [hw] at h h'; exact ⟨⟨h.1, h'.1⟩, ih _ h.2 h'.2⟩
    | error e => rw [hw] at h h'; exact ih _ h h'
  | boundary fault next ih => exact ⟨ih _ h.1 h'.1, ih _ h.2 h'.2⟩
  | acquire next ih => exact ⟨h.1, ih h.2 h'.2⟩
  | release next ih => exact ⟨h.1, ih h.2 h'.2⟩

/-- The fault-free execution satisfies the postcondition. -/
theorem exec (h : WP solo G Q p s) : Q (p.exec s).1 (p.exec s).2 := by
  induction p generalizing s with
  | pure => exact h
  | throw => exact h
  | read next ih => exact ih _ h
  | act write next ih =>
    simp only [WP] at h
    simp only [Program.exec]
    cases hw : write s with
    | ok t => rw [hw] at h; exact ih _ h.2
    | error e => rw [hw] at h; exact ih _ h
  | boundary fault next ih => exact ih _ h.1
  | acquire next ih => exact ih h.2
  | release next ih => exact ih h.2

/-- So does every execution under an injector. -/
theorem run (h : WP solo G Q p s) (inject : Nat → Bool) :
    Q (p.run inject s).1 (p.run inject s).2 := by
  induction p generalizing inject s with
  | pure => exact h
  | throw => exact h
  | read next ih => exact ih _ h inject
  | act write next ih =>
    simp only [WP] at h
    simp only [Program.run]
    cases hw : write s with
    | ok t => rw [hw] at h; exact ih _ h.2 inject
    | error e => rw [hw] at h; exact ih _ h inject
  | boundary fault next ih =>
    simp only [Program.run]
    split
    · exact ih _ h.2 _
    · exact ih _ h.1 _
  | acquire next ih => exact ih h.2 inject
  | release next ih => exact ih h.2 inject

/-- One action leads to a residual program with the same contract, and changes
the state only within the guarantee. -/
theorem step {c c' : Program σ ε α × σ} (h : WP solo G Q c.1 c.2) (next : Step c c') :
    WP solo G Q c'.1 c'.2 ∧ (c'.2 = c.2 ∨ G c.2 c'.2) := by
  cases next with
  | read => exact ⟨h, .inl rfl⟩
  | actOk hw => simp only [WP, hw] at h; exact ⟨h.2, .inr h.1⟩
  | actError hw => simp only [WP, hw] at h; exact ⟨h, .inl rfl⟩
  | pass => exact ⟨h.1, .inl rfl⟩
  | strike => exact ⟨h.2, .inl rfl⟩
  | acquire => exact ⟨h.2, .inl rfl⟩
  | release => exact ⟨h.2, .inl rfl⟩

/-- The residual program of a crash keeps the contract, and a chain of
guaranteed writes leads to the state left behind. -/
theorem reaches {q : Program σ ε α} {t : σ} (h : WP solo G Q p s)
    (hr : p.Reaches s q t) :
    WP solo G Q q t ∧ Relation.ReflTransGen G s t := by
  have general : ∀ c, Relation.ReflTransGen Step (p, s) c →
      WP solo G Q c.1 c.2 ∧ Relation.ReflTransGen G s c.2 := by
    intro c hc
    induction hc with
    | refl => exact ⟨h, .refl⟩
    | tail _ next ih =>
      obtain ⟨kept, moved⟩ := ih.1.step next
      refine ⟨kept, ?_⟩
      rcases moved with same | changed
      · rw [same]; exact ih.2
      · exact ih.2.tail changed
  exact general (q, t) hr

theorem leaves {t : σ} (h : WP solo G Q p s) (hl : p.Leaves s t) :
    Relation.ReflTransGen G s t := by
  obtain ⟨q, hq⟩ := hl
  exact (h.reaches hq).2

/-- A guarantee that preserves an invariant may be used together with it. -/
theorem with_invariant {I : σ → Prop} (h : WP solo G Q p s) (start : I s)
    (preserved : ∀ a b, I a → G a b → I b) :
    WP solo (fun a b => I a ∧ G a b ∧ I b) (fun r t => Q r t ∧ I t) p s := by
  induction p generalizing s with
  | pure => exact ⟨h, start⟩
  | throw => exact ⟨h, start⟩
  | read next ih => exact ih _ h start
  | act write next ih =>
    simp only [WP] at h ⊢
    cases hw : write s with
    | ok t =>
      rw [hw] at h
      have kept := preserved s t start h.1
      exact ⟨⟨start, h.1, kept⟩, ih _ h.2 kept⟩
    | error e => rw [hw] at h; exact ih _ h start
  | boundary fault next ih => exact ⟨ih _ h.1 start, ih _ h.2 start⟩
  | acquire next ih => exact ⟨h.1, ih h.2 start⟩
  | release next ih => exact ⟨h.1, ih h.2 start⟩

/-- The state is reached through a chain of guaranteed writes. -/
theorem chained (h : WP solo G Q p s) :
    WP solo G (fun r t => Q r t ∧ Relation.ReflTransGen G s t) p s :=
  (h.with_invariant .refl fun _ _ chain step => chain.tail step).mono_guarantee
    fun _ _ step => step.2.1

/-- Wherever a program ends, it could also have been cut. -/
theorem leaving (p : Program σ ε α) (s : σ) :
    WP true (fun _ _ => True) (fun _ t => p.Leaves s t) p s := by
  have later : ∀ {p q : Program σ ε α} {s t u : σ}, Step (p, s) (q, t) → q.Leaves t u →
      p.Leaves s u := fun first ⟨r, rest⟩ => ⟨r, .head first rest⟩
  induction p generalizing s with
  | pure => exact .refl _ _
  | throw => exact .refl _ _
  | read next ih => exact (ih s s).mono_post fun _ _ => later .read
  | act write next ih =>
    simp only [WP]
    cases hw : write s with
    | ok t => exact ⟨trivial, (ih _ t).mono_post fun _ _ => later (.actOk hw)⟩
    | error e => exact (ih _ s).mono_post fun _ _ => later (.actError hw)
  | boundary fault next ih =>
    exact ⟨(ih _ s).mono_post fun _ _ => later .pass, (ih _ s).mono_post fun _ _ => later .strike⟩
  | acquire next ih => exact ⟨rfl, (ih s).mono_post fun _ _ => later .acquire⟩
  | release next ih => exact ⟨rfl, (ih s).mono_post fun _ _ => later .release⟩

/-- An invariant preserved by every guaranteed write holds wherever a crash or
a fault can stop the program. -/
theorem invariant {I : σ → Prop} {t : σ} (h : WP solo G Q p s)
    (preserved : ∀ a b, I a → G a b → I b) (start : I s) (hl : p.Leaves s t) : I t := by
  have chain := h.leaves hl
  clear h hl
  induction chain with
  | refl => exact start
  | tail _ last ih => exact preserved _ _ ih last

/-- A guarantee of every write covers every step of every run. -/
theorem everyStep {R : σ → σ → Prop} (h : WP solo G Q p s) (refl : ∀ a, R a a)
    (covers : ∀ a b, G a b → R a b) : EveryStep R p s := by
  intro q t q' u run next
  have here : WP solo G Q q t := (h.reaches run).1
  rcases (WP.step here next).2 with same | changed
  · have same : u = t := same
    rw [same]
    exact refl t
  · exact covers t u changed

end WP

/-! ## Rules -/

section Rules

variable {Q : Except ε α → σ → Prop} {s : σ}

@[simp] theorem wp_pure (a : α) : WP solo G Q (Pure.pure a) s ↔ Q (.ok a) s := Iff.rfl

@[simp] theorem wp_throw (e : ε) : WP solo G Q (throw e) s ↔ Q (.error e) s := Iff.rfl

/-- The continuation of a bind, as a postcondition of its first program. -/
def andThen (solo : Bool) (G : σ → σ → Prop) (Q : Except ε β → σ → Prop)
    (f : α → Program σ ε β) : Except ε α → σ → Prop
  | .ok a, t => WP solo G Q (f a) t
  | .error e, t => Q (.error e) t

@[simp] theorem andThen_ok (Q : Except ε β → σ → Prop) (f : α → Program σ ε β)
    (a : α) (t : σ) : andThen solo G Q f (.ok a) t ↔ WP solo G Q (f a) t := Iff.rfl

@[simp] theorem andThen_error (Q : Except ε β → σ → Prop) (f : α → Program σ ε β)
    (e : ε) (t : σ) : andThen solo G Q f (.error e) t ↔ Q (.error e) t := Iff.rfl

@[simp] theorem wp_bind (p : Program σ ε α) (f : α → Program σ ε β)
    (Q : Except ε β → σ → Prop) :
    WP solo G Q (p >>= f) s ↔ WP solo G (andThen solo G Q f) p s := by
  change WP solo G Q (p.bind f) s ↔ _
  induction p generalizing s with
  | pure => exact Iff.rfl
  | throw => exact Iff.rfl
  | read next ih => exact ih _
  | act write next ih =>
    simp only [bind, WP]
    cases write s with
    | ok t => exact and_congr_right fun _ => ih _
    | error e => exact ih _
  | boundary fault next ih => exact and_congr (ih _) (ih _)
  | acquire next ih => exact and_congr_right fun _ => ih
  | release next ih => exact and_congr_right fun _ => ih

/-- Establish a middle assertion about successful outcomes, then continue. An
error of the first program must satisfy the postcondition by itself. -/
theorem wp_bind_of {p : Program σ ε α} {f : α → Program σ ε β}
    {Q : Except ε β → σ → Prop} {M : Except ε α → σ → Prop}
    (first : WP solo G M p s)
    (continues : ∀ a t, M (.ok a) t → WP solo G Q (f a) t)
    (fails : ∀ e t, M (.error e) t → Q (.error e) t) :
    WP solo G Q (p >>= f) s := by
  rw [wp_bind]
  refine first.mono_post fun r t h => ?_
  cases r with
  | ok a => exact continues a t h
  | error e => exact fails e t h

@[simp] theorem wp_get (Q : Except ε σ → σ → Prop) : WP solo G Q get s ↔ Q (.ok s) s :=
  Iff.rfl

@[simp] theorem wp_ofExcept (r : Except ε α) : WP solo G Q (ofExcept r) s ↔ Q r s := by
  cases r <;> exact Iff.rfl

@[simp] theorem wp_reads (query : σ → Except ε α) :
    WP solo G Q (reads query) s ↔ Q (query s) s := wp_ofExcept (query s)

@[simp] theorem wp_mark (fault : ε) (Q : Except ε Unit → σ → Prop) :
    WP solo G Q (mark fault) s ↔ Q (.ok ()) s ∧ Q (.error fault) s := Iff.rfl

theorem wp_write (f : σ → Except ε σ) (Q : Except ε Unit → σ → Prop) :
    WP solo G Q (write f) s ↔
      (∀ t, f s = .ok t → G s t ∧ Q (.ok ()) t) ∧
        ∀ e, f s = .error e → Q (.error e) s := by
  simp only [write, WP]
  cases f s with
  | ok t => simp [ofExcept, WP]
  | error e => simp [ofExcept]

@[simp] theorem wp_require (condition : Prop) [Decidable condition] (e : ε)
    (Q : Except ε Unit → σ → Prop) :
    WP solo G Q (require condition e) s ↔
      (condition → Q (.ok ()) s) ∧ (¬ condition → Q (.error e) s) := by
  by_cases h : condition <;> simp [require, h, WP]

@[simp] theorem wp_attempt (p : Program σ ε α) (Q : Except ε (Except ε α) → σ → Prop) :
    WP solo G Q p.attempt s ↔ WP solo G (fun r t => Q (.ok r) t) p s := by
  induction p generalizing s with
  | pure => exact Iff.rfl
  | throw => exact Iff.rfl
  | read next ih => exact ih _
  | act write next ih =>
    simp only [attempt, WP]
    cases write s with
    | ok t => exact and_congr_right fun _ => ih _
    | error e => exact ih _
  | boundary fault next ih => exact and_congr (ih _) (ih _)
  | acquire next ih => exact and_congr_right fun _ => ih
  | release next ih => exact and_congr_right fun _ => ih

/-- A section running alone is its body: the lock actions change nothing. -/
theorem wp_locked {p : Program σ ε α} (h : WP true G Q p s) :
    WP true G Q p.locked s := by
  refine ⟨rfl, ?_⟩
  induction p generalizing s with
  | pure => exact ⟨rfl, h⟩
  | throw => exact ⟨rfl, h⟩
  | read next ih => exact ih _ h
  | act write next ih =>
    simp only [releasing, WP] at h ⊢
    cases hw : write s with
    | ok t => rw [hw] at h; exact ⟨h.1, ih _ h.2⟩
    | error e => rw [hw] at h; exact ih _ h
  | boundary fault next ih => exact ⟨ih _ h.1, ih _ h.2⟩
  | acquire next ih => exact ⟨rfl, ih h.2⟩
  | release next ih => exact ⟨rfl, ih h.2⟩

end Rules

end Durable.Program
