import Relswap.Durable.Check

/-!
# Runs that may fault

A run ends with a result, with an error of its own, or in one of the ways a
correct program never ends: an index out of range, an arithmetic overflow, a
loop without an end. The rules below show that a run stays regular and say what
it returns.
-/

namespace Checked

open Durable

variable {ε α β σ : Type}

/-- How a run ends without a result. -/
inductive Fault (ε : Type) where
  | error (error : ε)
  | outOfRange
  | overflow
  | unfinished
  deriving DecidableEq

abbrev Run (ε α : Type) := Except (Fault ε) α

def fail (error : ε) : Run ε α := .error (.error error)

/-! ## Operations -/

def get (xs : List α) (index : Nat) : Run ε α := orError xs[index]? .outOfRange

/-- The elements from `start` on. -/
def dropTo (xs : List α) (start : Nat) : Run ε (List α) :=
  if start ≤ xs.length then .ok (xs.drop start) else .error .outOfRange

/-- The elements before `stop`. -/
def takeTo (xs : List α) (stop : Nat) : Run ε (List α) :=
  if stop ≤ xs.length then .ok (xs.take stop) else .error .outOfRange

/-- The elements from `start` to `stop`. -/
def slice (xs : List α) (start stop : Nat) : Run ε (List α) :=
  if start ≤ stop ∧ stop ≤ xs.length then .ok ((xs.drop start).take (stop - start))
  else .error .outOfRange

/-- The elements from `start` to `stop`, when there are that many. -/
def range (xs : List α) (start stop : Nat) : Option (List α) :=
  if start ≤ stop ∧ stop ≤ xs.length then some ((xs.drop start).take (stop - start)) else none

def add (limit a b : Nat) : Run ε Nat := if a + b < limit then .ok (a + b) else .error .overflow

def sub (a b : Nat) : Run ε Nat := if b ≤ a then .ok (a - b) else .error .overflow

def checkedAdd (limit a b : Nat) : Option Nat := if a + b < limit then some (a + b) else none

/-- Repeat the body until it returns a result. -/
def loop (body : σ → Run ε (σ ⊕ α)) : Nat → σ → Run ε α
  | 0, _ => .error .unfinished
  | fuel + 1, s => do
    match ← body s with
    | .inl next => loop body fuel next
    | .inr a => return a

@[simp] theorem add_eq_ok {limit a b c : Nat} :
    (add limit a b : Run ε Nat) = .ok c ↔ a + b < limit ∧ a + b = c := by
  rw [add]
  split <;> simp [*]

theorem add_eq {limit a b : Nat} (h : a + b < limit) : (add limit a b : Run ε Nat) = .ok (a + b) :=
  if_pos h

@[simp] theorem checkedAdd_eq_some {limit a b c : Nat} :
    checkedAdd limit a b = some c ↔ a + b < limit ∧ a + b = c := by
  rw [checkedAdd]
  split <;> simp [*]

theorem checkedAdd_eq {limit a b : Nat} (h : a + b < limit) : checkedAdd limit a b = some (a + b) :=
  if_pos h

theorem get_eq {xs : List α} {index : Nat} (h : index < xs.length) :
    (get xs index : Run ε α) = .ok xs[index] := by
  rw [get, List.getElem?_eq_getElem h]
  rfl

theorem dropTo_eq {xs : List α} {start : Nat} (h : start ≤ xs.length) :
    (dropTo xs start : Run ε (List α)) = .ok (xs.drop start) := if_pos h

theorem takeTo_eq {xs : List α} {stop : Nat} (h : stop ≤ xs.length) :
    (takeTo xs stop : Run ε (List α)) = .ok (xs.take stop) := if_pos h

theorem slice_eq {xs : List α} {start stop : Nat} (order : start ≤ stop) (inside : stop ≤ xs.length) :
    (slice xs start stop : Run ε (List α)) = .ok ((xs.drop start).take (stop - start)) :=
  if_pos ⟨order, inside⟩

theorem sub_eq {a b : Nat} (h : b ≤ a) : (sub a b : Run ε Nat) = .ok (a - b) := if_pos h

@[simp] theorem slice_eq_ok {xs part : List α} {start stop : Nat} :
    (slice xs start stop : Run ε (List α)) = .ok part ↔
      (start ≤ stop ∧ stop ≤ xs.length) ∧ (xs.drop start).take (stop - start) = part := by
  rw [slice]
  split <;> simp [*]

@[simp] theorem dropTo_eq_ok {xs part : List α} {start : Nat} :
    (dropTo xs start : Run ε (List α)) = .ok part ↔ start ≤ xs.length ∧ xs.drop start = part := by
  rw [dropTo]
  split <;> simp [*]

@[simp] theorem takeTo_eq_ok {xs part : List α} {stop : Nat} :
    (takeTo xs stop : Run ε (List α)) = .ok part ↔ stop ≤ xs.length ∧ xs.take stop = part := by
  rw [takeTo]
  split <;> simp [*]

@[simp] theorem sub_eq_ok {a b c : Nat} : (sub a b : Run ε Nat) = .ok c ↔ b ≤ a ∧ a - b = c := by
  rw [sub]
  split <;> simp [*]

@[simp] theorem get_eq_ok {xs : List α} {index : Nat} {a : α} :
    (get xs index : Run ε α) = .ok a ↔ xs[index]? = some a := orError_eq_ok

theorem range_eq_some {xs part : List α} {start stop : Nat} :
    range xs start stop = some part ↔
      start ≤ stop ∧ stop ≤ xs.length ∧ (xs.drop start).take (stop - start) = part := by
  rw [range]
  split <;> simp_all

/-! ## Regular runs -/

/-- A run that ends with a result or with an error of its own. -/
def Regular (x : Run ε α) : Prop :=
  ∀ fault, x = .error fault → ∃ error, fault = .error error

theorem regular_ok (a : α) : Regular (.ok a : Run ε α) := by
  intro fault fails
  cases fails

theorem regular_fail (error : ε) : Regular (fail error : Run ε α) := by
  intro fault fails
  exact ⟨error, (Except.error.inj fails).symm⟩

theorem Regular.bind {x : Run ε α} {f : α → Run ε β} (first : Regular x)
    (next : ∀ a, x = .ok a → Regular (f a)) : Regular (x >>= f) := by
  cases x with
  | error fault =>
    obtain ⟨error, rfl⟩ := first fault rfl
    exact regular_fail error
  | ok a => exact next a rfl

theorem regular_check {condition : Prop} [Decidable condition] (error : ε) :
    Regular (check condition (Fault.error error)) := by
  intro fault fails
  exact ⟨error, (check_eq_error.mp fails).2.symm⟩

theorem regular_orError (value : Option α) (error : ε) :
    Regular (orError value (Fault.error error)) := by
  cases value with
  | none => exact regular_fail error
  | some a => exact regular_ok a

theorem Regular.ite {condition : Prop} [Decidable condition] {x y : Run ε α}
    (yes : condition → Regular x) (no : ¬ condition → Regular y) :
    Regular (if condition then x else y) := by
  split
  · rename_i h
    exact yes h
  · rename_i h
    exact no h

/-! ## Positions -/

/-- The first place of an element splits the list there. -/
theorem findIdx?_eq_some_split [BEq α] [LawfulBEq α] {xs : List α} {a : α} {index : Nat} :
    xs.findIdx? (· == a) = some index ↔
      ∃ before after, xs = before ++ a :: after ∧ a ∉ before ∧ before.length = index := by
  induction xs generalizing index with
  | nil => simp
  | cons x xs ih =>
    rw [List.findIdx?_cons]
    by_cases here : x = a
    · subst here
      rw [if_pos (beq_self_eq_true x), Option.some.injEq]
      constructor
      · intro first
        exact ⟨[], xs, rfl, List.not_mem_nil, first⟩
      · intro split
        obtain ⟨before, after, whole, fresh, rfl⟩ := split
        cases before with
        | nil => rfl
        | cons y before =>
          cases whole
          exact absurd List.mem_cons_self fresh
    · rw [if_neg (by simpa using here), Option.map_eq_some_iff]
      constructor
      · intro found
        obtain ⟨place, found, rfl⟩ := found
        obtain ⟨before, after, rfl, fresh, rfl⟩ := ih.mp found
        refine ⟨x :: before, after, rfl, ?_, rfl⟩
        rw [List.mem_cons]
        tauto
      · intro split
        obtain ⟨before, after, whole, fresh, rfl⟩ := split
        cases before with
        | nil =>
          cases whole
          exact absurd rfl here
        | cons y before =>
          cases whole
          exact ⟨before.length, ih.mpr ⟨before, after, rfl,
            fun member => fresh (List.mem_cons_of_mem _ member), rfl⟩, rfl⟩

/-! ## Loops -/

theorem loop_next {body : σ → Run ε (σ ⊕ α)} {fuel : Nat} {s next : σ}
    (h : body s = .ok (.inl next)) : loop body (fuel + 1) s = loop body fuel next := by
  rw [loop, h, ok_bind]

theorem loop_done {body : σ → Run ε (σ ⊕ α)} {fuel : Nat} {s : σ} {a : α}
    (h : body s = .ok (.inr a)) : loop body (fuel + 1) s = .ok a := by
  rw [loop, h, ok_bind]
  rfl

theorem loop_stop {body : σ → Run ε (σ ⊕ α)} {fuel : Nat} {s : σ} {fault : Fault ε}
    (h : body s = .error fault) : loop body (fuel + 1) s = .error fault := by
  rw [loop, h, error_bind]

/-- A loop whose passes keep an invariant and decrease a measure ends within the fuel, with
a result that its passes hand back. -/
theorem loop_rule {body : σ → Run ε (σ ⊕ α)} (inv : σ → Prop) (measure : σ → Nat)
    (post : σ → Run ε α → Prop)
    (next : ∀ s s', inv s → body s = .ok (.inl s') →
      inv s' ∧ measure s' < measure s ∧ ∀ result, post s' result → post s result)
    (done : ∀ s a, inv s → body s = .ok (.inr a) → post s (.ok a))
    (stop : ∀ s fault, inv s → body s = .error fault → post s (.error fault)) :
    ∀ fuel s, inv s → measure s < fuel → post s (loop body fuel s) := by
  intro fuel
  induction fuel with
  | zero =>
    intro s _ enough
    omega
  | succ fuel ih =>
    intro s holds enough
    match pass : body s with
    | .error fault =>
      rw [loop_stop pass]
      exact stop s fault holds pass
    | .ok (.inr a) =>
      rw [loop_done pass]
      exact done s a holds pass
    | .ok (.inl s') =>
      obtain ⟨holds', smaller, back⟩ := next s s' holds pass
      rw [loop_next pass]
      exact back _ (ih s' holds' (by omega))

end Checked
