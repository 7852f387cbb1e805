import Mathlib.Logic.Relation

/-!
# A journalled handover

A pointer is moved from one value to another in three durable steps, between the
announcement in a journal and its removal: the pointer is switched, then a record of
it is written. A crash may leave any of these steps as the last one. The journal then
tells which of the two values the pointer and the record have.
-/

namespace Durable.Handover

variable {α : Type}

/-- A pointer, the record of it, and what the journal announces. -/
structure State (α : Type) where
  pointer : Option α
  record : Option α
  journal : Option (Option α × α)

/-- Nothing is selected, recorded or announced. -/
def State.initial : State α := ⟨none, none, none⟩

inductive Step : State α → State α → Prop where
  | announce {s : State α} (target : α) (recorded : s.record = s.pointer)
      (moves : s.pointer ≠ some target) : Step s { s with journal := some (s.pointer, target) }
  | «switch» {s : State α} {target : α} (announced : s.journal = some (s.pointer, target)) :
      Step s { s with pointer := some target }
  | record {s : State α} {source : Option α} {target : α}
      (announced : s.journal = some (source, target)) (switched : s.pointer = some target) :
      Step s { s with record := some target }
  | finish {s : State α} {source : Option α} {target : α}
      (announced : s.journal = some (source, target)) (switched : s.pointer = some target)
      (recorded : s.record = some target) : Step s { s with journal := none }
  | abandon {s : State α} {target : α} (announced : s.journal = some (s.pointer, target))
      (recorded : s.record = s.pointer) : Step s { s with journal := none }

abbrev Run : State α → State α → Prop := Relation.ReflTransGen Step

/-- The journal accounts for every difference between the pointer and its record. -/
structure Consistent (s : State α) : Prop where
  quiet : s.journal = none → s.record = s.pointer
  moves : ∀ source target, s.journal = some (source, target) → source ≠ some target
  announced : ∀ source target, s.journal = some (source, target) →
    (s.pointer = source ∧ s.record = source) ∨
      s.pointer = some target ∧ (s.record = source ∨ s.record = some target)

variable {s t : State α}

theorem Consistent.initial : Consistent (State.initial : State α) := by
  refine ⟨fun _ => rfl, ?_, ?_⟩
  · intro source target announced
    cases announced
  · intro source target announced
    cases announced

theorem Step.consistent (step : Step s t) (h : Consistent s) : Consistent t := by
  cases step with
  | announce target recorded moves =>
    refine ⟨?_, ?_, ?_⟩
    · intro none
      cases none
    · intro source target' announced
      cases announced
      exact moves
    · intro source target' announced
      cases announced
      exact .inl ⟨rfl, recorded⟩
  | @«switch» target announced =>
    -- before the switch the pointer is the source, which differs from the target
    have before : s.record = s.pointer := by
      rcases h.announced _ _ announced with ⟨_, recorded⟩ | ⟨switched, _⟩
      · exact recorded
      · exact absurd switched (h.moves _ _ announced)
    refine ⟨?_, h.moves, ?_⟩
    · intro none
      rw [announced] at none
      cases none
    · intro source target' announced'
      rw [announced] at announced'
      cases announced'
      exact .inr ⟨rfl, .inl before⟩
  | @record source target announced switched =>
    refine ⟨?_, h.moves, ?_⟩
    · intro none
      rw [announced] at none
      cases none
    · intro source' target' announced'
      rw [announced] at announced'
      cases announced'
      exact .inr ⟨switched, .inr rfl⟩
  | finish announced switched recorded =>
    refine ⟨fun _ => recorded.trans switched.symm, ?_, ?_⟩
    · intro source target absent
      cases absent
    · intro source target absent
      cases absent
  | abandon announced recorded =>
    refine ⟨fun _ => recorded, ?_, ?_⟩
    · intro source target absent
      cases absent
    · intro source target absent
      cases absent

theorem Run.consistent (run : Run s t) (h : Consistent s) : Consistent t := by
  induction run with
  | refl => exact h
  | tail _ last ih => exact last.consistent ih

/-- Recovery: the record follows the pointer, and the journal goes. -/
def State.resolve (s : State α) : State α := ⟨s.pointer, s.pointer, none⟩

/-- Recovery takes steps of the handover only, wherever it was cut off. -/
theorem Consistent.resolves (h : Consistent s) : Run s s.resolve := by
  obtain ⟨pointer, record, journal⟩ := s
  cases journal with
  | none =>
    have same : record = pointer := h.quiet rfl
    subst same
    exact .refl
  | some announced =>
    obtain ⟨source, target⟩ := announced
    rcases h.announced source target rfl with ⟨here, recorded⟩ | ⟨there, _⟩
    · have same : pointer = source := here
      have same' : record = source := recorded
      subst same same'
      exact .single (.abandon rfl rfl)
    · have same : pointer = some target := there
      subst same
      exact .head (.record rfl rfl) (.single (.finish rfl rfl rfl))

end Durable.Handover
