import Relswap.Durable.Check

/-!
# Scripts

A script stops at its first error and keeps what it has done to the state by then.
-/

namespace Checked

open Durable

variable {σ ε α β : Type}

abbrev Script (σ ε α : Type) := ExceptT ε (StateM σ) α

namespace Script

/-- How a script ends, and the state it leaves. -/
def outcome (script : Script σ ε α) (s : σ) : Except ε α × σ := script s

theorem outcome_bind (script : Script σ ε α) (next : α → Script σ ε β) (s : σ) :
    (script >>= next).outcome s =
      match script.outcome s with
      | (.ok a, s') => (next a).outcome s'
      | (.error e, s') => (.error e, s') := by
  change (ExceptT.bindCont next (script.outcome s).1) (script.outcome s).2 = _
  cases ended : script.outcome s with
  | mk result s' => cases result <;> rfl

@[simp] theorem outcome_pure (a : α) (s : σ) :
    (pure a : Script σ ε α).outcome s = (.ok a, s) := rfl

@[simp] theorem outcome_get (s : σ) : (MonadState.get : Script σ ε σ).outcome s = (.ok s, s) := rfl

@[simp] theorem outcome_modify (f : σ → σ) (s : σ) :
    (modify f : Script σ ε PUnit).outcome s = (.ok ⟨⟩, f s) := rfl

@[simp] theorem outcome_lift (x : Except ε α) (s : σ) :
    (liftM x : Script σ ε α).outcome s = (x, s) := rfl

@[simp] theorem outcome_throw (e : ε) (s : σ) :
    (throw e : Script σ ε α).outcome s = (.error e, s) := rfl

theorem bind_ok {script : Script σ ε α} {next : α → Script σ ε β} {s s' : σ} {a : α}
    (first : script.outcome s = (.ok a, s')) :
    (script >>= next).outcome s = (next a).outcome s' := by
  rw [outcome_bind, first]

theorem bind_error {script : Script σ ε α} {next : α → Script σ ε β} {s s' : σ} {e : ε}
    (first : script.outcome s = (.error e, s')) :
    (script >>= next).outcome s = (.error e, s') := by
  rw [outcome_bind, first]

theorem lift_bind_ok {x : Except ε α} {next : α → Script σ ε β} {s : σ} {a : α}
    (first : x = .ok a) : ((liftM x : Script σ ε α) >>= next).outcome s = (next a).outcome s := by
  rw [first, bind_ok (outcome_lift _ _)]

theorem bind_eq_ok {script : Script σ ε α} {next : α → Script σ ε β} {s s' : σ} {b : β} :
    (script >>= next).outcome s = (.ok b, s') ↔
      ∃ a s₁, script.outcome s = (.ok a, s₁) ∧ (next a).outcome s₁ = (.ok b, s') := by
  rw [outcome_bind]
  cases ended : script.outcome s with
  | mk result s₁ =>
    cases result with
    | ok a =>
      constructor
      · intro rest
        exact ⟨a, s₁, rfl, rest⟩
      · intro both
        obtain ⟨_, _, same, rest⟩ := both
        cases same
        exact rest
    | error e =>
      constructor
      · intro failed
        cases failed
      · intro both
        obtain ⟨_, _, same, _⟩ := both
        cases same

/-! ## Scripts that only read -/

/-- What succeeds in a state leaves it as it is, and does the same in the related states. -/
def ReadOnly (related : σ → σ → Prop) (script : Script σ ε α) : Prop :=
  ∀ s s' s₁ a, related s s' → script.outcome s = (.ok a, s₁) →
    s₁ = s ∧ script.outcome s' = (.ok a, s')

variable {related : σ → σ → Prop}

theorem ReadOnly.pure (a : α) : ReadOnly related (pure a : Script σ ε α) := by
  intro s s' s₁ b _ ended
  cases ended
  exact ⟨rfl, rfl⟩

theorem ReadOnly.lift (x : Except ε α) : ReadOnly related (liftM x : Script σ ε α) := by
  intro s s' s₁ a _ ended
  rw [outcome_lift] at ended
  cases ended
  exact ⟨rfl, rfl⟩

theorem ReadOnly.bind {script : Script σ ε α} {next : α → Script σ ε β}
    (first : ReadOnly related script) (rest : ∀ a, ReadOnly related (next a)) :
    ReadOnly related (script >>= next) := by
  intro s s' s₂ b relation ended
  obtain ⟨a, s₁, began, later⟩ := bind_eq_ok.mp ended
  obtain ⟨rfl, again⟩ := first s s' s₁ a relation began
  obtain ⟨rfl, finish⟩ := rest a s₁ s' s₂ b relation later
  exact ⟨rfl, (bind_ok again).trans finish⟩

end Script

end Checked
