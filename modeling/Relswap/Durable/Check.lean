import Mathlib

/-!
# Checks in fallible computations

A validator is a sequence of checks in `Except`. Each check either passes or
ends the computation with its own error, so a successful run means that every
condition holds: the equations below take such a run apart.
-/

namespace Durable

variable {ε α β : Type}

/-- Pass when the condition holds and fail with the given error otherwise. -/
def check (condition : Prop) [Decidable condition] (error : ε) : Except ε Unit :=
  if condition then .ok () else .error error

/-- Read an optional value, failing with the given error when it is absent. -/
def orError (value : Option α) (error : ε) : Except ε α :=
  match value with
  | some a => .ok a
  | none => .error error

@[simp] theorem check_eq_ok {condition : Prop} [Decidable condition] {error : ε} {u : Unit} :
    check condition error = .ok u ↔ condition := by
  rw [check]
  split <;> simp [*]

@[simp] theorem check_eq_error {condition : Prop} [Decidable condition] {error e : ε} :
    check condition error = .error e ↔ ¬ condition ∧ error = e := by
  rw [check]
  split <;> simp [*]

theorem check_pass {condition : Prop} [Decidable condition] {error : ε} (h : condition) :
    check condition error = .ok () := if_pos h

theorem check_fail {condition : Prop} [Decidable condition] {error : ε} (h : ¬ condition) :
    check condition error = .error error := if_neg h

@[simp] theorem orError_eq_ok {value : Option α} {error : ε} {a : α} :
    orError value error = .ok a ↔ value = some a := by
  cases value <;> simp [orError]

@[simp] theorem bind_eq_ok {x : Except ε α} {f : α → Except ε β} {b : β} :
    (x >>= f) = .ok b ↔ ∃ a, x = .ok a ∧ f a = .ok b := by
  cases x with
  | ok a => simp [bind, Except.bind]
  | error e => simp [bind, Except.bind]

@[simp] theorem map_ok (f : α → β) (a : α) : f <$> (Except.ok a : Except ε α) = .ok (f a) := rfl

@[simp] theorem map_eq_ok {x : Except ε α} {f : α → β} {b : β} :
    f <$> x = .ok b ↔ ∃ a, x = .ok a ∧ f a = b := by
  cases x <;> simp [Functor.map, Except.map]

@[simp] theorem pure_eq_ok {a b : α} : (pure a : Except ε α) = .ok b ↔ a = b := by
  simp [pure, Except.pure]

@[simp] theorem mapError_eq_ok {ε' : Type} {x : Except ε α} {f : ε → ε'} {a : α} :
    x.mapError f = .ok a ↔ x = .ok a := by
  cases x <;> simp [Except.mapError]

@[simp] theorem ok_bind (a : α) (f : α → Except ε β) : (Except.ok a >>= f) = f a := rfl

@[simp] theorem error_bind (e : ε) (f : α → Except ε β) :
    ((Except.error e : Except ε α) >>= f) = .error e := rfl

theorem toOption_eq_some {x : Except ε α} {a : α} : x.toOption = some a ↔ x = .ok a := by
  cases x with
  | ok b =>
    change some b = some a ↔ _
    rw [Option.some.injEq, Except.ok.injEq]
  | error e => simp [Except.toOption]

end Durable
