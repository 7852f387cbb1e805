import Relswap.Durable.Program

/-!
# Programs among others that change the state at will

`Always R Q p` bounds every write of a program by a relation, whatever it has read
before, and every result by a predicate. Such a bound survives any interference:
between two actions of the program the state may become any other one.
-/

namespace Durable.Program

variable {σ ε α β : Type} {R : σ → σ → Prop} {Q : α → Prop}

/-- Every write of the program, in any state it may be performed in, is related by
`R`, and every result satisfies `Q`. -/
def Always (R : σ → σ → Prop) (Q : α → Prop) : Program σ ε α → Prop
  | .pure a => Q a
  | .throw _ => True
  | .read next => ∀ s, Always R Q (next s)
  | .act write next => (∀ s t, write s = .ok t → R s t) ∧ ∀ r, Always R Q (next r)
  | .boundary _ next => ∀ r, Always R Q (next r)
  | .acquire next => Always R Q next
  | .release next => Always R Q next

/-- One action of the program, or any change of the state by others. -/
inductive AmongStep : Program σ ε α × σ → Program σ ε α × σ → Prop where
  | own {c c' : Program σ ε α × σ} (action : Step c c') : AmongStep c c'
  | others {p : Program σ ε α} (s t : σ) : AmongStep (p, s) (p, t)

/-- The runs of a program among others. -/
def Among (p : Program σ ε α) (s : σ) (q : Program σ ε α) (t : σ) : Prop :=
  Relation.ReflTransGen AmongStep (p, s) (q, t)

namespace Always

variable {p : Program σ ε α} {f : α → Program σ ε β} {M : α → Prop} {Q' : β → Prop}

theorem pure {a : α} (h : Q a) : Always R Q (Pure.pure a : Program σ ε α) := h

theorem throw (e : ε) : Always R Q (Program.throw e : Program σ ε α) := trivial

theorem get : Always R (fun _ => True) (Program.get : Program σ ε σ) := fun _ => trivial

theorem ofExcept (r : Except ε α) : Always R (fun _ => True) (Program.ofExcept r) := by
  cases r <;> exact trivial

theorem mark (fault : ε) : Always R (fun _ => True) (Program.mark fault) := fun r => ofExcept r

theorem write {f : σ → Except ε σ} (h : ∀ s t, f s = .ok t → R s t) :
    Always R (fun _ => True) (Program.write f) := ⟨h, fun r => ofExcept r⟩

theorem require {condition : Prop} [Decidable condition] (e : ε) :
    Always R (fun _ => True) (Program.require condition e : Program σ ε Unit) := by
  rw [Program.require]
  split <;> exact trivial

theorem onlyIf {condition : Prop} [Decidable condition] {p : Program σ ε Unit}
    (h : Always R (fun _ => True) p) : Always R (fun _ => True) (Program.onlyIf condition p) := by
  rw [Program.onlyIf]
  split
  · exact h
  · exact trivial

theorem bind (first : Always R M p) (next : ∀ a, M a → Always R Q' (f a)) :
    Always R Q' (p >>= f) := by
  change Always R Q' (p.bind f)
  induction p with
  | pure a => exact next a first
  | throw => exact trivial
  | read _ ih => exact fun s => ih s (first s)
  | act _ _ ih => exact ⟨first.1, fun r => ih r (first.2 r)⟩
  | boundary _ _ ih => exact fun r => ih r (first r)
  | acquire _ ih => exact ih first
  | release _ ih => exact ih first

theorem attempt (h : Always R M p) : Always R (fun _ => True) (Program.attempt p) := by
  induction p with
  | pure => exact trivial
  | throw => exact trivial
  | read _ ih => exact fun s => ih s (h s)
  | act _ _ ih => exact ⟨h.1, fun r => ih r (h.2 r)⟩
  | boundary _ _ ih => exact fun r => ih r (h r)
  | acquire _ ih => exact ih h
  | release _ ih => exact ih h

theorem forEach {xs : List β} {f : β → Program σ ε Unit}
    (h : ∀ x, Always R (fun _ => True) (f x)) :
    Always R (fun _ => True) (Program.forEach xs f) := by
  induction xs with
  | nil => exact trivial
  | cons x xs ih => exact bind (h x) fun _ _ => ih

/-- One action stays within the bound and leaves a program within it. -/
theorem step {c c' : Program σ ε α × σ} (h : Always R Q c.1) (action : Step c c') :
    Always R Q c'.1 ∧ (c'.2 = c.2 ∨ R c.2 c'.2) := by
  cases action with
  | read => exact ⟨h _, .inl rfl⟩
  | actOk hw => exact ⟨h.2 _, .inr (h.1 _ _ hw)⟩
  | actError => exact ⟨h.2 _, .inl rfl⟩
  | pass => exact ⟨h _, .inl rfl⟩
  | strike => exact ⟨h _, .inl rfl⟩
  | acquire => exact ⟨h, .inl rfl⟩
  | release => exact ⟨h, .inl rfl⟩

theorem among {q : Program σ ε α} {s t : σ} (h : Always R Q p) (run : p.Among s q t) :
    Always R Q q := by
  have general : ∀ c, Relation.ReflTransGen AmongStep (p, s) c → Always R Q c.1 := by
    intro c steps
    induction steps with
    | refl => exact h
    | tail _ last ih =>
      cases last with
      | own action => exact (ih.step action).1
      | others => exact ih
  exact general (q, t) run

/-- Whatever the others did before, an action of the program stays within the bound. -/
theorem every {q q' : Program σ ε α} {s t u : σ} (h : Always R Q p) (refl : ∀ s, R s s)
    (run : p.Among s q t) (action : Step (q, t) (q', u)) : R t u := by
  rcases (step (h.among run) action).2 with same | changed
  · have same : u = t := same
    rw [same]
    exact refl t
  · exact changed

end Always

end Durable.Program
