import Mathlib

/-!
# Programs over durable state

A program is a tree of atomic actions on one shared state. Reading yields the
whole state; writing replaces it atomically or fails without a change. Named
boundaries are the places where an observer may inject a failure, and the two
lock actions delimit the sections that exclude each other.

`exec` runs a program alone and without faults. `run` consults an injector at
every boundary. `Step` is the same execution one action at a time, so that a
crash is simply a program that takes no further step: every state reachable by
`Step` is a state a crash can leave behind.
-/

namespace Durable

/-- Atomic actions over a state `σ`, failing with `ε` and returning `α`. A
write hands its outcome to the continuation, so that code which must still run
after a failure, such as releasing a lock, is an ordinary continuation. -/
inductive Program (σ ε α : Type) where
  | pure (value : α)
  | throw (error : ε)
  | read (next : σ → Program σ ε α)
  | act (write : σ → Except ε σ) (next : Except ε Unit → Program σ ε α)
  | boundary (fault : ε) (next : Except ε Unit → Program σ ε α)
  | acquire (next : Program σ ε α)
  | release (next : Program σ ε α)

namespace Program

variable {σ ε α β γ : Type}

/-- Sequential composition. An error ends the composition immediately. -/
def bind : Program σ ε α → (α → Program σ ε β) → Program σ ε β
  | .pure value, f => f value
  | .throw error, _ => .throw error
  | .read next, f => .read fun s => (next s).bind f
  | .act write next, f => .act write fun r => (next r).bind f
  | .boundary fault next, f => .boundary fault fun r => (next r).bind f
  | .acquire next, f => .acquire (next.bind f)
  | .release next, f => .release (next.bind f)

instance : Monad (Program σ ε) where
  pure := Program.pure
  bind := Program.bind

theorem bind_pure (p : Program σ ε α) : p.bind .pure = p := by
  induction p with
  | pure => rfl
  | throw => rfl
  | read next ih => exact congrArg Program.read (funext ih)
  | act write next ih => exact congrArg (Program.act write) (funext ih)
  | boundary fault next ih => exact congrArg (Program.boundary fault) (funext ih)
  | acquire next ih => exact congrArg Program.acquire ih
  | release next ih => exact congrArg Program.release ih

theorem bind_assoc (p : Program σ ε α) (f : α → Program σ ε β) (g : β → Program σ ε γ) :
    (p.bind f).bind g = p.bind fun a => (f a).bind g := by
  induction p with
  | pure => rfl
  | throw => rfl
  | read next ih => exact congrArg Program.read (funext ih)
  | act write next ih => exact congrArg (Program.act write) (funext ih)
  | boundary fault next ih => exact congrArg (Program.boundary fault) (funext ih)
  | acquire next ih => exact congrArg Program.acquire ih
  | release next ih => exact congrArg Program.release ih

instance : LawfulMonad (Program σ ε) :=
  LawfulMonad.mk' (Program σ ε) bind_pure (fun _ _ => rfl) bind_assoc

/-- Return a value or raise an error computed without touching the state. -/
def ofExcept : Except ε α → Program σ ε α
  | .ok value => .pure value
  | .error error => .throw error

/-- Read the whole state. -/
def get : Program σ ε σ := .read .pure

/-- Read what a fallible query finds in the state. -/
def reads (query : σ → Except ε α) : Program σ ε α := .read fun s => ofExcept (query s)

/-- Replace the state atomically, or fail and leave it as it is. -/
def write (f : σ → Except ε σ) : Program σ ε Unit := .act f ofExcept

/-- A named boundary at which `fault` may be injected. -/
def mark (fault : ε) : Program σ ε Unit := .boundary fault ofExcept

/-- Continue only when the condition holds. -/
def require (condition : Prop) [Decidable condition] (error : ε) : Program σ ε Unit :=
  if condition then .pure () else .throw error

/-- Run a program only under a condition. -/
def onlyIf (condition : Prop) [Decidable condition] (p : Program σ ε Unit) : Program σ ε Unit :=
  if condition then p else .pure ()

/-- Turn the outcome of a program into an ordinary value. -/
def attempt : Program σ ε α → Program σ ε (Except ε α)
  | .pure value => .pure (.ok value)
  | .throw error => .pure (.error error)
  | .read next => .read fun s => (next s).attempt
  | .act write next => .act write fun r => (next r).attempt
  | .boundary fault next => .boundary fault fun r => (next r).attempt
  | .acquire next => .acquire next.attempt
  | .release next => .release next.attempt

/-- Release the lock at every exit of a program, whether it succeeds or fails. -/
def releasing : Program σ ε α → Program σ ε α
  | .pure value => .release (.pure value)
  | .throw error => .release (.throw error)
  | .read next => .read fun s => (next s).releasing
  | .act write next => .act write fun r => (next r).releasing
  | .boundary fault next => .boundary fault fun r => (next r).releasing
  | .acquire next => .acquire next.releasing
  | .release next => .release next.releasing

/-- A section that holds the lock from its first action to each of its exits. -/
def locked (body : Program σ ε α) : Program σ ε α := .acquire body.releasing

/-- Run the programs of a list in order. -/
def forEach (xs : List β) (f : β → Program σ ε Unit) : Program σ ε Unit :=
  match xs with
  | [] => .pure ()
  | x :: xs => do
    f x
    forEach xs f

/-! ## Execution -/

/-- Run alone, with no injected fault. -/
def exec : Program σ ε α → σ → Except ε α × σ
  | .pure value, s => (.ok value, s)
  | .throw error, s => (.error error, s)
  | .read next, s => (next s).exec s
  | .act write next, s =>
    match write s with
    | .ok t => (next (.ok ())).exec t
    | .error error => (next (.error error)).exec s
  | .boundary _ next, s => (next (.ok ())).exec s
  | .acquire next, s => next.exec s
  | .release next, s => next.exec s

/-- Run alone under an injector: `inject n` decides the `n`-th boundary passed. -/
def run : (Nat → Bool) → Program σ ε α → σ → Except ε α × σ
  | _, .pure value, s => (.ok value, s)
  | _, .throw error, s => (.error error, s)
  | inject, .read next, s => run inject (next s) s
  | inject, .act write next, s =>
    match write s with
    | .ok t => run inject (next (.ok ())) t
    | .error error => run inject (next (.error error)) s
  | inject, .boundary fault next, s =>
    run (fun n => inject (n + 1)) (next (if inject 0 then .error fault else .ok ())) s
  | inject, .acquire next, s => run inject next s
  | inject, .release next, s => run inject next s

/-- One action of a program running alone. A boundary may pass or strike. -/
inductive Step : Program σ ε α × σ → Program σ ε α × σ → Prop where
  | read {next : σ → Program σ ε α} {s} : Step (.read next, s) (next s, s)
  | actOk {write : σ → Except ε σ} {next : Except ε Unit → Program σ ε α} {s t}
      (h : write s = .ok t) : Step (.act write next, s) (next (.ok ()), t)
  | actError {write : σ → Except ε σ} {next : Except ε Unit → Program σ ε α} {s error}
      (h : write s = .error error) : Step (.act write next, s) (next (.error error), s)
  | pass {fault : ε} {next : Except ε Unit → Program σ ε α} {s} :
      Step (.boundary fault next, s) (next (.ok ()), s)
  | strike {fault : ε} {next : Except ε Unit → Program σ ε α} {s} :
      Step (.boundary fault next, s) (next (.error fault), s)
  | acquire {next : Program σ ε α} {s} : Step (.acquire next, s) (next, s)
  | release {next : Program σ ε α} {s} : Step (.release next, s) (next, s)

/-- The program reaches the residual program `q` in state `t`. -/
def Reaches (p : Program σ ε α) (s : σ) (q : Program σ ε α) (t : σ) : Prop :=
  Relation.ReflTransGen Step (p, s) (q, t)

/-- A crash or an injected fault can leave the state `t` behind. -/
def Leaves (p : Program σ ε α) (s t : σ) : Prop := ∃ q, p.Reaches s q t

theorem Leaves.refl (p : Program σ ε α) (s : σ) : p.Leaves s s := ⟨p, .refl⟩

/-- Whatever the injector decides, a complete run ends in a state that the
small steps reach with its result as the residual program. -/
theorem run_reaches (inject : Nat → Bool) (p : Program σ ε α) (s : σ) :
    p.Reaches s (ofExcept (p.run inject s).1) (p.run inject s).2 := by
  induction p generalizing inject s with
  | pure => exact .refl
  | throw => exact .refl
  | read next ih => exact .head .read (ih s inject s)
  | act write next ih =>
    simp only [run]
    cases h : write s with
    | ok t => exact .head (.actOk h) (ih _ inject t)
    | error e => exact .head (.actError h) (ih _ inject s)
  | boundary fault next ih =>
    simp only [run]
    by_cases h : inject 0 = true
    · rw [if_pos h]
      exact .head .strike (ih _ _ s)
    · rw [if_neg h]
      exact .head .pass (ih _ _ s)
  | acquire next ih => exact .head .acquire (ih inject s)
  | release next ih => exact .head .release (ih inject s)

theorem run_leaves (inject : Nat → Bool) (p : Program σ ε α) (s : σ) :
    p.Leaves s (p.run inject s).2 := ⟨_, run_reaches inject p s⟩

/-- A silent injector never changes an execution. -/
theorem run_silent (p : Program σ ε α) (s : σ) : p.run (fun _ => false) s = p.exec s := by
  induction p generalizing s with
  | pure => rfl
  | throw => rfl
  | read next ih => exact ih s s
  | act write next ih =>
    simp only [run, exec]
    cases write s with
    | ok t => exact ih _ t
    | error e => exact ih _ s
  | boundary fault next ih => exact ih _ s
  | acquire next ih => exact ih s
  | release next ih => exact ih s

theorem exec_reaches (p : Program σ ε α) (s : σ) :
    p.Reaches s (ofExcept (p.exec s).1) (p.exec s).2 := by
  simpa only [run_silent] using run_reaches (fun _ => false) p s

theorem exec_leaves (p : Program σ ε α) (s : σ) : p.Leaves s (p.exec s).2 :=
  ⟨_, exec_reaches p s⟩

/-! ## Equations for fault-free execution -/

section Exec

variable (s : σ)

@[simp] theorem exec_pure (a : α) : (Pure.pure a : Program σ ε α).exec s = (.ok a, s) := rfl

@[simp] theorem exec_throw (e : ε) : (throw e : Program σ ε α).exec s = (.error e, s) := rfl

@[simp] theorem exec_bind (p : Program σ ε α) (f : α → Program σ ε β) :
    (p >>= f).exec s = match p.exec s with
      | (.ok a, t) => (f a).exec t
      | (.error e, t) => (.error e, t) := by
  change (p.bind f).exec s = _
  induction p generalizing s with
  | pure => rfl
  | throw => rfl
  | read next ih => exact ih s s
  | act write next ih =>
    simp only [bind, exec]
    cases write s with
    | ok t => exact ih _ t
    | error e => exact ih _ s
  | boundary fault next ih => exact ih _ s
  | acquire next ih => exact ih s
  | release next ih => exact ih s

@[simp] theorem exec_get : (get : Program σ ε σ).exec s = (.ok s, s) := rfl

@[simp] theorem exec_ofExcept (r : Except ε α) : (ofExcept r).exec s = (r, s) := by
  cases r <;> rfl

@[simp] theorem exec_reads (query : σ → Except ε α) : (reads query).exec s = (query s, s) := by
  change (ofExcept (query s)).exec s = _
  cases query s <;> rfl

@[simp] theorem exec_mark (fault : ε) : (mark fault).exec s = (.ok (), s) := rfl

theorem exec_write (f : σ → Except ε σ) :
    (write f).exec s = match f s with
      | .ok t => (.ok (), t)
      | .error e => (.error e, s) := by
  simp only [write, exec]
  cases f s <;> rfl

theorem exec_write_ok {f : σ → Except ε σ} {s t : σ} (h : f s = .ok t) :
    (write f).exec s = (.ok (), t) := by rw [exec_write, h]

theorem exec_require_true {condition : Prop} [Decidable condition] (e : ε)
    (h : condition) : (require condition e).exec s = (.ok (), s) := by
  rw [require, if_pos h]; rfl

theorem exec_onlyIf_true {condition : Prop} [Decidable condition] (p : Program σ ε Unit)
    (h : condition) : (onlyIf condition p).exec s = p.exec s := by rw [onlyIf, if_pos h]

theorem exec_onlyIf_false {condition : Prop} [Decidable condition] (p : Program σ ε Unit)
    (h : ¬ condition) : (onlyIf condition p).exec s = (.ok (), s) := by
  rw [onlyIf, if_neg h]; rfl

@[simp] theorem exec_attempt (p : Program σ ε α) :
    p.attempt.exec s = (.ok (p.exec s).1, (p.exec s).2) := by
  induction p generalizing s with
  | pure => rfl
  | throw => rfl
  | read next ih => exact ih s s
  | act write next ih =>
    simp only [attempt, exec]
    cases write s with
    | ok t => exact ih _ t
    | error e => exact ih _ s
  | boundary fault next ih => exact ih _ s
  | acquire next ih => exact ih s
  | release next ih => exact ih s

@[simp] theorem exec_releasing (p : Program σ ε α) : p.releasing.exec s = p.exec s := by
  induction p generalizing s with
  | pure => rfl
  | throw => rfl
  | read next ih => exact ih s s
  | act write next ih =>
    simp only [releasing, exec]
    cases write s with
    | ok t => exact ih _ t
    | error e => exact ih _ s
  | boundary fault next ih => exact ih _ s
  | acquire next ih => exact ih s
  | release next ih => exact ih s

@[simp] theorem exec_locked (p : Program σ ε α) : p.locked.exec s = p.exec s :=
  exec_releasing s p

end Exec

end Program

end Durable
