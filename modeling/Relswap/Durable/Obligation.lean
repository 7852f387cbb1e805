import Relswap.Durable.Concurrent
import Relswap.Durable.Outcome

/-!
# Rules for the obligations of a process

`Complies` is the obligation of a process outside the lock that constrains only
successful outcomes. What it establishes must survive whatever the others do, so
its rules hand later states to every continuation.
-/

namespace Durable.Program

variable {σ ε α β : Type} {D : Discipline σ} {G : σ → σ → Prop} {s t : σ}

/-- Outside the lock, the process meets its obligation, and a successful result
satisfies `Q`. -/
def Complies (D : Discipline σ) (G : σ → σ → Prop) (Q : α → σ → Prop) (p : Program σ ε α)
    (s : σ) : Prop :=
  Obeys D G (OnOk Q) false p s

/-- Turning the outcome into a value changes no action. -/
theorem Obeys.attempt {held : Bool} {p : Program σ ε α} {Q : Except ε (Except ε α) → σ → Prop}
    (h : Obeys D G (fun r t => Q (.ok r) t) held p s) : Obeys D G Q held p.attempt s := by
  induction p generalizing held s with
  | pure => cases held <;> exact h
  | throw => cases held <;> exact h
  | read next ih =>
    cases held with
    | false => exact fun u hu hr => ih _ (h u hu hr)
    | true => exact ih _ h
  | act write next ih =>
    cases held with
    | false =>
      intro u hu hr
      have here := h u hu hr
      cases hw : write u with
      | ok v =>
        rw [hw] at here
        exact ⟨here.1, here.2.1, here.2.2.1, here.2.2.2.1, ih _ here.2.2.2.2⟩
      | error e => rw [hw] at here; exact ih _ here
    | true =>
      simp only [Program.attempt, Obeys] at h ⊢
      cases hw : write s with
      | ok v => rw [hw] at h; exact ⟨h.1, h.2.1, h.2.2.1, h.2.2.2.1, ih _ h.2.2.2.2⟩
      | error e => rw [hw] at h; exact ih _ h
  | boundary fault next ih => cases held <;> exact ⟨ih _ h.1, ih _ h.2⟩
  | acquire next ih =>
    cases held with
    | false => exact fun u hu hr => ⟨(h u hu hr).1, ih (h u hu hr).2⟩
    | true => exact False.elim h
  | release next ih =>
    cases held with
    | false => exact False.elim h
    | true => exact ih h

/-- Whatever a process and the others do is within the rely relation. -/
theorem Obeys.since {held : Bool} {p : Program σ ε α} {Q : Except ε α → σ → Prop} {s₀ : σ}
    (h : Obeys D G Q held p s) (moved : D.rely s₀ s) :
    Obeys D G (fun r t => Q r t ∧ D.rely s₀ t) held p s := by
  induction p generalizing held s with
  | pure =>
    cases held with
    | false => exact ⟨h, moved⟩
    | true => exact h
  | throw =>
    cases held with
    | false => exact ⟨h, moved⟩
    | true => exact h
  | read next ih =>
    cases held with
    | false => exact fun u hu hr => ih _ (h u hu hr) (D.rely_trans moved hr)
    | true => exact ih _ h moved
  | act write next ih =>
    cases held with
    | false =>
      intro u hu hr
      have here := h u hu hr
      have now := D.rely_trans moved hr
      cases hw : write u with
      | ok v =>
        rw [hw] at here
        exact ⟨here.1, here.2.1, here.2.2.1, here.2.2.2.1,
          ih _ here.2.2.2.2 (D.rely_trans now here.2.1)⟩
      | error e => rw [hw] at here; exact ih _ here now
    | true =>
      simp only [Obeys] at h ⊢
      cases hw : write s with
      | ok v =>
        rw [hw] at h
        exact ⟨h.1, h.2.1, h.2.2.1, h.2.2.2.1, ih _ h.2.2.2.2 (D.rely_trans moved h.2.1)⟩
      | error e => rw [hw] at h; exact ih _ h moved
  | boundary fault next ih => cases held <;> exact ⟨ih _ h.1 moved, ih _ h.2 moved⟩
  | acquire next ih =>
    cases held with
    | false => exact fun u hu hr => ⟨(h u hu hr).1, ih (h u hu hr).2 (D.rely_trans moved hr)⟩
    | true => exact False.elim h
  | release next ih =>
    cases held with
    | false => exact False.elim h
    | true => exact ih h moved

namespace Complies

variable {Q Q' : α → σ → Prop} {p : Program σ ε α}

/-- The result comes with the fact that only allowed changes lie in between. -/
theorem since (h : Complies D G Q p s) :
    Complies D G (fun a t => Q a t ∧ D.rely s t) p s :=
  Obeys.mono_post (Obeys.since h (D.rely_refl s)) fun r t hq =>
    match r, hq with
    | .ok _, hq => hq
    | .error _, _ => trivial

theorem bind {f : α → Program σ ε β} {M : α → σ → Prop} {Q : β → σ → Prop}
    (first : Complies D G M p s) (next : ∀ a t, M a t → Complies D G Q (f a) t) :
    Complies D G Q (p >>= f) s := by
  refine Obeys.bind (Obeys.mono_post first fun r t hm => ?_)
  cases r with
  | ok a => exact next a t hm
  | error e => exact trivial

theorem pure {a : α} (h : Q a s) : Complies D G Q (Pure.pure a : Program σ ε α) s := h

theorem throw (e : ε) : Complies D G Q (Program.throw e) s := trivial

theorem ofExcept {r : Except ε α} (h : ∀ a, r = .ok a → Q a s) :
    Complies D G Q (Program.ofExcept r) s := by
  cases r with
  | ok a => exact h a rfl
  | error e => exact trivial

theorem require {condition : Prop} [Decidable condition] {e : ε} {Q : Unit → σ → Prop}
    (h : condition → Q () s) : Complies D G Q (Program.require condition e) s :=
  Obeys.require h fun _ => trivial

/-- A write outside the lock, which is the identity on settled states. -/
theorem write {f : σ → Except ε σ} {Q : Unit → σ → Prop}
    (h : ∀ t u, D.inv t → D.rely s t → f t = .ok u →
      D.inv u ∧ D.rely t u ∧ G t u ∧ (D.settled t → u = t) ∧ Q () u) :
    Complies D G Q (Program.write f) s :=
  Obeys.write h fun _ _ _ _ _ => trivial

theorem attempt {Q : Except ε α → σ → Prop} (h : Obeys D G Q false p s) :
    Complies D G Q (Program.attempt p) s := Obeys.attempt h

section Sequence

variable {Q : β → σ → Prop}

/-- A read sees any later state of the shared invariant. -/
theorem bind_get {f : σ → Program σ ε β}
    (h : ∀ t, D.inv t → D.rely s t → Complies D G Q (f t) t) :
    Complies D G Q (Program.get >>= f) s :=
  fun t inv moved => h t inv moved

theorem bind_reads {query : σ → Except ε α} {f : α → Program σ ε β}
    (h : ∀ a t, D.inv t → D.rely s t → query t = .ok a → Complies D G Q (f a) t) :
    Complies D G Q (Program.reads query >>= f) s := by
  refine bind (M := fun a t => Complies D G Q (f a) t) ?_ fun _ _ next => next
  intro t inv moved
  exact Obeys.ofExcept (by
    cases hq : query t with
    | ok a => exact h a t inv moved hq
    | error e => exact trivial)

theorem bind_ofExcept {r : Except ε α} {f : α → Program σ ε β}
    (h : ∀ a, r = .ok a → Complies D G Q (f a) s) :
    Complies D G Q (Program.ofExcept r >>= f) s :=
  bind (M := fun a t => Complies D G Q (f a) t) (ofExcept h) fun _ _ next => next

theorem bind_require {condition : Prop} [Decidable condition] {e : ε} {f : Unit → Program σ ε β}
    (h : condition → Complies D G Q (f ()) s) :
    Complies D G Q (Program.require condition e >>= f) s :=
  bind (M := fun _ t => Complies D G Q (f ()) t) (require h) fun _ _ next => next

end Sequence

theorem reads {query : σ → Except ε α}
    (h : ∀ a t, D.inv t → D.rely s t → query t = .ok a → Q a t) :
    Complies D G Q (Program.reads query) s := by
  intro t inv moved
  exact Obeys.ofExcept (by
    cases hq : query t with
    | ok a => exact h a t inv moved hq
    | error e => exact trivial)

end Complies

end Durable.Program
