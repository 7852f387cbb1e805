import Relswap.Durable.Contract

/-!
# Rules for successful outcomes

Specializations of the contracts. `Guards` constrains every write but only the
successful results of a program, so that its rules carry no obligation for
errors. `Succeeds` states that the fault-free execution ends with a given value
in a given state, and `Returns` that it succeeds at all: what it then returns is
left to its guards. `Keeps` bounds the writes of a program from any state, and
`Ends` also says what its errors leave.
-/

namespace Durable.Program

variable {σ ε α β : Type} {solo : Bool} {G G' : σ → σ → Prop} {s t u : σ}

/-- Every write is related by `G`, and a successful result satisfies `Q`. -/
def Guards (solo : Bool) (G : σ → σ → Prop) (Q : α → σ → Prop) (p : Program σ ε α) (s : σ) :
    Prop :=
  WP solo G (OnOk Q) p s

namespace Guards

variable {Q Q' : α → σ → Prop} {p : Program σ ε α}

theorem mono (h : Guards solo G Q p s) (guarantee : ∀ a b, G a b → G' a b)
    (post : ∀ a t, Q a t → Q' a t) : Guards solo G' Q' p s :=
  WP.mono h guarantee fun r t hq =>
    match r, hq with
    | .ok a, hq => post a t hq
    | .error _, _ => trivial

theorem mono_post (h : Guards solo G Q p s) (post : ∀ a t, Q a t → Q' a t) : Guards solo G Q' p s :=
  h.mono (fun _ _ hg => hg) post

theorem bind {f : α → Program σ ε β} {M : α → σ → Prop} {Q : β → σ → Prop}
    (first : Guards solo G M p s) (next : ∀ a t, M a t → Guards solo G Q (f a) t) :
    Guards solo G Q (p >>= f) s :=
  wp_bind_of first (fun a t hm => next a t hm) fun _ _ _ => trivial

theorem pure {a : α} (h : Q a s) : Guards solo G Q (Pure.pure a : Program σ ε α) s := h

theorem throw (e : ε) : Guards solo G Q (Program.throw e) s := trivial

theorem reads {query : σ → Except ε α} (h : ∀ a, query s = .ok a → Q a s) :
    Guards solo G Q (Program.reads query) s := by
  rw [Guards, wp_reads]
  cases hq : query s with
  | ok a => exact h a hq
  | error e => exact trivial

theorem ofExcept {r : Except ε α} (h : ∀ a, r = .ok a → Q a s) :
    Guards solo G Q (Program.ofExcept r) s := by
  rw [Guards, wp_ofExcept]
  cases hr : r with
  | ok a => exact h a hr
  | error e => exact trivial

theorem write {f : σ → Except ε σ} {Q : Unit → σ → Prop}
    (h : ∀ t, f s = .ok t → G s t ∧ Q () t) : Guards solo G Q (Program.write f) s := by
  rw [Guards, wp_write]
  exact ⟨h, fun _ _ => trivial⟩

theorem require {condition : Prop} [Decidable condition] {e : ε} {Q : Unit → σ → Prop}
    (h : condition → Q () s) : Guards solo G Q (Program.require condition e) s := by
  rw [Guards, wp_require]
  exact ⟨h, fun _ => trivial⟩

theorem mark {fault : ε} {Q : Unit → σ → Prop} (h : Q () s) :
    Guards solo G Q (Program.mark fault) s := ⟨h, trivial⟩

theorem onlyIf {condition : Prop} [Decidable condition] {p : Program σ ε Unit}
    {Q : Unit → σ → Prop} (yes : condition → Guards solo G Q p s) (no : ¬ condition → Q () s) :
    Guards solo G Q (Program.onlyIf condition p) s := by
  rw [Program.onlyIf]
  split
  · exact yes ‹_›
  · exact no ‹_›

theorem attempt {Q : Except ε α → σ → Prop} (h : WP solo G Q p s) :
    Guards solo G Q (Program.attempt p) s := by
  rw [Guards, wp_attempt]
  exact h.mono_post fun _ _ hq => hq

section Sequence

variable {Q : β → σ → Prop} {f : α → Program σ ε β}

theorem bind_reads {query : σ → Except ε α}
    (h : ∀ a, query s = .ok a → Guards solo G Q (f a) s) :
    Guards solo G Q (Program.reads query >>= f) s :=
  bind (M := fun a t => t = s ∧ query s = .ok a) (reads fun _ ha => ⟨rfl, ha⟩)
    fun a _ ⟨same, ha⟩ => same ▸ h a ha

theorem bind_ofExcept {r : Except ε α} (h : ∀ a, r = .ok a → Guards solo G Q (f a) s) :
    Guards solo G Q (Program.ofExcept r >>= f) s :=
  bind (M := fun a t => t = s ∧ r = .ok a) (ofExcept fun _ ha => ⟨rfl, ha⟩)
    fun a _ ⟨same, ha⟩ => same ▸ h a ha

/-- A first program that leaves the state as it is contributes its result only. -/
theorem bind_unchanged {M : α → Prop} (first : Guards solo G (fun a t => t = s ∧ M a) p s)
    (next : ∀ a, M a → Guards solo G Q (f a) s) : Guards solo G Q (p >>= f) s :=
  bind first fun a _ ⟨same, ha⟩ => same ▸ next a ha

theorem bind_get {f : σ → Program σ ε β} (h : Guards solo G Q (f s) s) :
    Guards solo G Q (Program.get >>= f) s := h

theorem bind_require {condition : Prop} [Decidable condition] {e : ε}
    {f : Unit → Program σ ε β} (h : condition → Guards solo G Q (f ()) s) :
    Guards solo G Q (Program.require condition e >>= f) s :=
  bind (M := fun _ t => t = s ∧ condition) (require fun hc => ⟨rfl, hc⟩)
    fun _ _ ⟨same, hc⟩ => same ▸ h hc

theorem bind_mark {fault : ε} {f : Unit → Program σ ε β} (h : Guards solo G Q (f ()) s) :
    Guards solo G Q (Program.mark fault >>= f) s :=
  bind (M := fun _ t => t = s) (mark rfl) fun _ _ same => same ▸ h

theorem bind_write {w : σ → Except ε σ} {f : Unit → Program σ ε β}
    (h : ∀ t, w s = .ok t → G s t ∧ Guards solo G Q (f ()) t) :
    Guards solo G Q (Program.write w >>= f) s :=
  bind (M := fun _ t => w s = .ok t) (write fun t ht => ⟨(h t ht).1, ht⟩)
    fun _ t ht => (h t ht).2

end Sequence

/-- A loop over a list: each pass takes the state along the relation `R`, which
is a preorder, and may use how far the loop has come. -/
theorem forEach {xs : List β} {f : β → Program σ ε Unit} (I : σ → Prop)
    (start : I s) (pass : ∀ x ∈ xs, ∀ t, I t → Guards solo G (fun _ t' => I t') (f x) t) :
    Guards solo G (fun _ t => I t) (Program.forEach xs f) s := by
  induction xs generalizing s with
  | nil => exact start
  | cons x xs ih =>
    refine bind (pass x (by simp) s start) fun _ t ht => ?_
    exact ih ht fun y hy => pass y (by simp [hy])

/-- A program that runs alone passes through its locked sections. -/
theorem locked (h : Guards true G Q p s) : Guards true G Q p.locked s := wp_locked h

/-- What holds whatever the program does. -/
theorem ignore {C : Prop} (h : C) : Guards true (fun _ _ => True) (fun _ _ => C) p s := by
  induction p generalizing s with
  | pure => exact h
  | throw => exact trivial
  | read next ih => exact ih s
  | act write next ih =>
    simp only [Guards, WP]
    cases write s with
    | ok t => exact ⟨trivial, ih _⟩
    | error e => exact ih _
  | boundary fault next ih => exact ⟨ih _, ih _⟩
  | acquire next ih => exact ⟨rfl, ih⟩
  | release next ih => exact ⟨rfl, ih⟩

end Guards

/-! ## Fault-free success -/

/-- Run alone without faults, the program returns `a` and leaves `t`. -/
def Succeeds (p : Program σ ε α) (s : σ) (a : α) (t : σ) : Prop := p.exec s = (.ok a, t)

namespace Succeeds

variable {p : Program σ ε α} {f : α → Program σ ε β} {a : α} {b : β}

theorem bind (first : Succeeds p s a t) (next : Succeeds (f a) t b u) :
    Succeeds (p >>= f) s b u := by
  rw [Succeeds, exec_bind, first]
  exact next

theorem pure : Succeeds (Pure.pure a : Program σ ε α) s a s := rfl

theorem get : Succeeds (Program.get : Program σ ε σ) s s s := rfl

theorem reads {query : σ → Except ε α} (h : query s = .ok a) :
    Succeeds (Program.reads query) s a s := by
  rw [Succeeds, exec_reads, h]

theorem ofExcept {r : Except ε α} (h : r = .ok a) : Succeeds (Program.ofExcept r) s a s := by
  rw [Succeeds, exec_ofExcept, h]

theorem write {w : σ → Except ε σ} (h : w s = .ok t) :
    Succeeds (Program.write w) s () t := exec_write_ok h

theorem mark {fault : ε} : Succeeds (Program.mark fault) s () s := rfl

theorem require {condition : Prop} [Decidable condition] {e : ε} (h : condition) :
    Succeeds (Program.require condition e) s () s := exec_require_true s e h

theorem onlyIf {condition : Prop} [Decidable condition] {p : Program σ ε Unit}
    (yes : condition → Succeeds p s () t) (no : ¬ condition → t = s) :
    Succeeds (Program.onlyIf condition p) s () t := by
  by_cases h : condition
  · rw [Succeeds, exec_onlyIf_true s p h]
    exact yes h
  · rw [Succeeds, exec_onlyIf_false s p h, no h]

theorem locked (h : Succeeds p s a t) : Succeeds p.locked s a t := by
  rw [Succeeds, exec_locked]
  exact h

theorem attempt (h : Succeeds p s a t) : Succeeds (Program.attempt p) s (.ok a) t := by
  rw [Succeeds, exec_attempt, h]

/-- The rest of an execution whose first part is known. -/
theorem exec_bind (first : Succeeds p s a t) : (p >>= f).exec s = (f a).exec t := by
  rw [Program.exec_bind, first]

end Succeeds

/-- Run alone without faults, the program succeeds. -/
def Returns (p : Program σ ε α) (s : σ) : Prop := ∃ a t, Succeeds p s a t

theorem Succeeds.returns {p : Program σ ε α} {a : α} (h : Succeeds p s a t) : Returns p s :=
  ⟨a, t, h⟩

/-- What the guards promise of a successful result, they promise of this one. -/
theorem Succeeds.guarded {p : Program σ ε α} {a : α} {Q : α → σ → Prop} (h : Succeeds p s a t)
    (guarded : Guards true G Q p s) : Q a t := by
  have post := WP.exec guarded
  rw [h] at post
  exact post

namespace Returns

variable {p : Program σ ε α} {f : α → Program σ ε β}

theorem pure (a : α) : Returns (Pure.pure a : Program σ ε α) s := Succeeds.pure.returns

/-- Continue from whatever the guards of the first program promise. -/
theorem bind {M : α → σ → Prop} (h : Returns p s) (guarded : Guards true G M p s)
    (next : ∀ a t, M a t → Returns (f a) t) : Returns (p >>= f) s := by
  obtain ⟨a, t, first⟩ := h
  obtain ⟨b, u, second⟩ := next a t (first.guarded guarded)
  exact (first.bind second).returns

/-- Continue whatever the first program has done. -/
theorem bind_any (h : Returns p s) (next : ∀ a t, Returns (f a) t) : Returns (p >>= f) s := by
  obtain ⟨a, t, first⟩ := h
  obtain ⟨b, u, second⟩ := next a t
  exact (first.bind second).returns

theorem bind_unchanged {M : α → Prop} (h : Returns p s)
    (guarded : Guards true G (fun a t => t = s ∧ M a) p s) (next : ∀ a, M a → Returns (f a) s) :
    Returns (p >>= f) s :=
  h.bind guarded fun a _ ⟨same, ha⟩ => same ▸ next a ha

theorem bind_succeeds {a : α} (first : Succeeds p s a t) (next : Returns (f a) t) :
    Returns (p >>= f) s := by
  obtain ⟨b, u, second⟩ := next
  exact (first.bind second).returns

theorem bind_get {f : σ → Program σ ε β} (h : Returns (f s) s) :
    Returns (Program.get >>= f) s := bind_succeeds Succeeds.get h

theorem bind_reads {query : σ → Except ε α} {a : α} (found : query s = .ok a)
    (h : Returns (f a) s) : Returns (Program.reads query >>= f) s :=
  bind_succeeds (Succeeds.reads found) h

theorem bind_ofExcept {r : Except ε α} {a : α} (found : r = .ok a) (h : Returns (f a) s) :
    Returns (Program.ofExcept r >>= f) s := bind_succeeds (Succeeds.ofExcept found) h

theorem bind_require {condition : Prop} [Decidable condition] {e : ε} {f : Unit → Program σ ε β}
    (holds : condition) (h : Returns (f ()) s) :
    Returns (Program.require condition e >>= f) s := bind_succeeds (Succeeds.require holds) h

theorem bind_mark {fault : ε} {f : Unit → Program σ ε β} (h : Returns (f ()) s) :
    Returns (Program.mark fault >>= f) s := bind_succeeds Succeeds.mark h

theorem onlyIf {condition : Prop} [Decidable condition] {p : Program σ ε Unit}
    (h : condition → Returns p s) : Returns (Program.onlyIf condition p) s := by
  rw [Program.onlyIf]
  split
  · exact h ‹_›
  · exact pure ()

theorem forEach {xs : List β} {f : β → Program σ ε Unit} (h : ∀ x ∈ xs, ∀ t, Returns (f x) t) :
    Returns (Program.forEach xs f) s := by
  induction xs generalizing s with
  | nil => exact pure ()
  | cons x xs ih =>
    exact (h x (by simp) s).bind_any fun _ t => ih fun y hy => h y (by simp [hy])

theorem locked (h : Returns p s) : Returns p.locked s := by
  obtain ⟨a, t, h⟩ := h
  exact h.locked.returns

end Returns

/-! ## Relations that no write leaves -/

/-- Every write of the program, whatever state it meets, is related by `R`. -/
def Keeps (R : σ → σ → Prop) (p : Program σ ε α) : Prop :=
  ∀ s, WP true R (fun _ _ => True) p s

namespace Keeps

variable {R : σ → σ → Prop} {p : Program σ ε α} {f : α → Program σ ε β}

theorem pure (a : α) : Keeps R (Pure.pure a : Program σ ε α) := fun _ => trivial

theorem throw (e : ε) : Keeps R (Program.throw e : Program σ ε α) := fun _ => trivial

theorem get : Keeps R (Program.get : Program σ ε σ) := fun _ => trivial

theorem ofExcept (r : Except ε α) : Keeps R (Program.ofExcept r) := fun _ => by
  rw [wp_ofExcept]
  trivial

theorem reads (query : σ → Except ε α) : Keeps R (Program.reads query) := fun _ => by
  rw [wp_reads]
  trivial

theorem mark (fault : ε) : Keeps R (Program.mark fault) := fun _ => ⟨trivial, trivial⟩

theorem require {condition : Prop} [Decidable condition] (e : ε) :
    Keeps R (Program.require condition e) := fun _ => by
  rw [wp_require]
  exact ⟨fun _ => trivial, fun _ => trivial⟩

theorem write {w : σ → Except ε σ} (h : ∀ s t, w s = .ok t → R s t) :
    Keeps R (Program.write w) := fun s => by
  rw [wp_write]
  exact ⟨fun t ht => ⟨h s t ht, trivial⟩, fun _ _ => trivial⟩

theorem bind (first : Keeps R p) (next : ∀ a, Keeps R (f a)) : Keeps R (p >>= f) := fun s =>
  wp_bind_of (first s) (fun a t _ => next a t) fun _ _ _ => trivial

theorem onlyIf {condition : Prop} [Decidable condition] {p : Program σ ε Unit}
    (h : condition → Keeps R p) : Keeps R (Program.onlyIf condition p) := by
  rw [Program.onlyIf]
  split
  · exact h ‹_›
  · exact pure ()

theorem attempt (h : Keeps R p) : Keeps R (Program.attempt p) := fun s => by
  rw [wp_attempt]
  exact h s

theorem forEach {xs : List β} {f : β → Program σ ε Unit} (h : ∀ x, Keeps R (f x)) :
    Keeps R (Program.forEach xs f) := by
  induction xs with
  | nil => exact pure ()
  | cons x xs ih => exact bind (h x) fun _ => ih

/-- What the guards promise comes with the relation. -/
theorem guards {G : σ → σ → Prop} {Q : α → σ → Prop} (h : Keeps R p) (g : Guards true G Q p s) :
    Guards true R Q p s :=
  (WP.and g (h s)).mono (fun _ _ both => both.2) fun _ _ both => both.1

end Keeps

/-! ## Fault-free outcomes -/

/-- Run alone without faults, an error leaves a state that satisfies `E`, and a
successful result satisfies `Q`. -/
def Ends (E : σ → Prop) (Q : α → σ → Prop) (p : Program σ ε α) (s : σ) : Prop :=
  match p.exec s with
  | (.ok a, t) => Q a t
  | (.error _, t) => E t

namespace Ends

variable {E : σ → Prop} {Q : α → σ → Prop} {p : Program σ ε α} {f : α → Program σ ε β}

theorem ok {a : α} (h : Ends E Q p s) (run : p.exec s = (.ok a, t)) : Q a t := by
  rw [Ends, run] at h
  exact h

theorem error {e : ε} (h : Ends E Q p s) (run : p.exec s = (.error e, t)) : E t := by
  rw [Ends, run] at h
  exact h

theorem mono {E' : σ → Prop} {Q' : α → σ → Prop} (h : Ends E Q p s) (fails : ∀ t, E t → E' t)
    (post : ∀ a t, Q a t → Q' a t) : Ends E' Q' p s := by
  rw [Ends] at *
  split
  · rename_i a t run
    rw [run] at h
    exact post a t h
  · rename_i e t run
    rw [run] at h
    exact fails t h

theorem bind {M : α → σ → Prop} {Q : β → σ → Prop} (first : Ends E M p s)
    (next : ∀ a t, M a t → Ends E Q (f a) t) : Ends E Q (p >>= f) s := by
  rw [Ends, Program.exec_bind]
  obtain ⟨⟨result, t⟩, run⟩ : ∃ ended, p.exec s = ended := ⟨_, rfl⟩
  rw [run]
  cases result with
  | ok a => exact next a t (first.ok run)
  | error e => exact first.error run

theorem pure {a : α} (h : Q a s) : Ends E Q (Pure.pure a : Program σ ε α) s := h

theorem throw {e : ε} (h : E s) : Ends E Q (Program.throw e : Program σ ε α) s := h

theorem write {w : σ → Except ε σ} {Q : Unit → σ → Prop} (fails : ∀ e, w s = .error e → E s)
    (h : ∀ t, w s = .ok t → Q () t) : Ends E Q (Program.write w) s := by
  rw [Ends, exec_write]
  cases hw : w s with
  | ok t => exact h t hw
  | error e => exact fails e hw

theorem succeeds {a : α} (run : Succeeds p s a t) (h : Q a t) : Ends E Q p s := by
  rw [Ends, run]
  exact h

theorem bind_succeeds {Q : β → σ → Prop} {a : α} (run : Succeeds p s a t)
    (next : Ends E Q (f a) t) : Ends E Q (p >>= f) s := by
  rw [Ends, run.exec_bind]
  exact next

/-- A handler starts from either outcome of the program it guards. -/
theorem bind_attempt {E' : σ → Prop} {Q' : β → σ → Prop} {f : Except ε α → Program σ ε β}
    (h : Ends E Q p s) (handled : ∀ e t, E t → Ends E' Q' (f (.error e)) t)
    (next : ∀ a t, Q a t → Ends E' Q' (f (.ok a)) t) :
    Ends E' Q' (Program.attempt p >>= f) s := by
  unfold Ends at h
  rw [Ends, exec_bind, exec_attempt]
  dsimp only
  split at h
  · rename_i a t run
    rw [run]
    exact next a t h
  · rename_i e t run
    rw [run]
    exact handled e t h

end Ends

end Durable.Program
