import Relswap.Durable.Contract

/-!
# Processes that share a durable state and one lock

Any number of processes run programs over one state. Each action of each
process is a step of the world; the lock admits one holder at a time, and a
process may stop at any moment, which releases the lock if it held it. Actions
outside the lock interleave freely with everything else.

`Obeys` is the local proof obligation of one process. Outside the lock it
assumes only that the others keep the shared invariant and stay within the
rely relation; inside the lock nobody else changes the state. `Sound.step` turns
the local obligations into an invariant of every interleaving.
-/

namespace Durable

variable {ι κ σ ε α β : Type}

/-- A process: the kind of operation it performs and what it has left to run. -/
structure Process (κ σ ε α : Type) where
  kind : κ
  rest : Program σ ε α

/-- The shared state, the process holding the lock, and all running processes. -/
structure World (ι κ σ ε α : Type) where
  state : σ
  holder : Option ι
  process : ι → Option (Process κ σ ε α)

namespace Program

/-- Whether the next action of a program is a lock action. -/
def AtLock : Program σ ε α → Prop
  | .acquire _ => True
  | .release _ => True
  | _ => False

end Program

namespace World

variable [DecidableEq ι]

/-- Replace what one process has left to run. -/
def setProcess (w : World ι κ σ ε α) (i : ι) (p : Option (Process κ σ ε α)) :
    World ι κ σ ε α :=
  { w with process := Function.update w.process i p }

@[simp] theorem setProcess_state (w : World ι κ σ ε α) (i : ι)
    (p : Option (Process κ σ ε α)) : (w.setProcess i p).state = w.state := rfl

@[simp] theorem setProcess_holder (w : World ι κ σ ε α) (i : ι)
    (p : Option (Process κ σ ε α)) : (w.setProcess i p).holder = w.holder := rfl

theorem setProcess_self (w : World ι κ σ ε α) (i : ι) (p : Option (Process κ σ ε α)) :
    (w.setProcess i p).process i = p := Function.update_self ..

theorem setProcess_other (w : World ι κ σ ε α) {i j : ι} (h : j ≠ i)
    (p : Option (Process κ σ ε α)) : (w.setProcess i p).process j = w.process j :=
  Function.update_of_ne h ..

/-- One step of the world, labelled with the kind of the process that acted.
`starts` lists the programs a new process of each kind may begin. -/
inductive Step (starts : κ → Program σ ε α → Prop) :
    World ι κ σ ε α → Option κ → World ι κ σ ε α → Prop where
  | start {w : World ι κ σ ε α} (i : ι) (k : κ) (p : Program σ ε α)
      (idle : w.process i = none) (allowed : starts k p) :
      Step starts w none (w.setProcess i (some ⟨k, p⟩))
  | act {w : World ι κ σ ε α} (i : ι) (k : κ) {p q : Program σ ε α} {t : σ}
      (running : w.process i = some ⟨k, p⟩) (notLock : ¬ p.AtLock)
      (action : Program.Step (p, w.state) (q, t)) :
      Step starts w (some k) { w.setProcess i (some ⟨k, q⟩) with state := t }
  | acquire {w : World ι κ σ ε α} (i : ι) (k : κ) {next : Program σ ε α}
      (running : w.process i = some ⟨k, .acquire next⟩) (free : w.holder = none) :
      Step starts w (some k) { w.setProcess i (some ⟨k, next⟩) with holder := some i }
  | release {w : World ι κ σ ε α} (i : ι) (k : κ) {next : Program σ ε α}
      (running : w.process i = some ⟨k, .release next⟩) (held : w.holder = some i) :
      Step starts w (some k) { w.setProcess i (some ⟨k, next⟩) with holder := none }
  | stop {w : World ι κ σ ε α} (i : ι) :
      Step starts w none
        { w.setProcess i none with
          holder := if w.holder = some i then none else w.holder }

/-- Every world some interleaving leads to. -/
def Reachable (starts : κ → Program σ ε α → Prop) (w w' : World ι κ σ ε α) : Prop :=
  Relation.ReflTransGen (fun a b => ∃ k, Step starts a k b) w w'

/-- The world in which nothing runs yet. -/
def initial (s : σ) : World ι κ σ ε α := ⟨s, none, fun _ => none⟩

end World

/-- What all processes rely on: an invariant of the shared state, a preorder
bounding every change anyone makes, and what holds of the state while the lock
is held, whoever holds it. -/
structure Discipline (σ : Type) where
  inv : σ → Prop
  rely : σ → σ → Prop
  settled : σ → Prop
  rely_refl : ∀ s, rely s s
  rely_trans : ∀ {s t u}, rely s t → rely t u → rely s u

namespace Program

variable {D : Discipline σ} {G : σ → σ → Prop}

/-- The local obligation of a process with guarantee `G`. The flag tells whether
it holds the lock. A write outside the lock must be the identity as soon as the
state is settled, so that it cannot disturb a locked section. A program may only
end after it has released the lock. -/
def Obeys (D : Discipline σ) (G : σ → σ → Prop) (Q : Except ε α → σ → Prop) :
    Bool → Program σ ε α → σ → Prop
  | false, .pure value, s => Q (.ok value) s
  | false, .throw error, s => Q (.error error) s
  | true, .pure _, _ => False
  | true, .throw _, _ => False
  | false, .read next, s =>
    ∀ t, D.inv t → D.rely s t → Obeys D G Q false (next t) t
  | false, .act write next, s =>
    ∀ t, D.inv t → D.rely s t →
      match write t with
      | .ok u => D.inv u ∧ D.rely t u ∧ G t u ∧ (D.settled t → u = t) ∧
          Obeys D G Q false (next (.ok ())) u
      | .error error => Obeys D G Q false (next (.error error)) t
  | held, .boundary fault next, s =>
    Obeys D G Q held (next (.ok ())) s ∧ Obeys D G Q held (next (.error fault)) s
  | false, .acquire next, s =>
    ∀ t, D.inv t → D.rely s t → D.settled t ∧ Obeys D G Q true next t
  | false, .release _, _ => False
  | true, .read next, s => Obeys D G Q true (next s) s
  | true, .act write next, s =>
    match write s with
    | .ok t => D.inv t ∧ D.rely s t ∧ G s t ∧ D.settled t ∧
        Obeys D G Q true (next (.ok ())) t
    | .error error => Obeys D G Q true (next (.error error)) s
  | true, .acquire _, _ => False
  | true, .release next, s => Obeys D G Q false next s

namespace Obeys

variable {Q Q' : Except ε α → σ → Prop} {p : Program σ ε α} {s t : σ}

/-- Outside the lock an obligation survives whatever the others do. -/
theorem rely (h : Obeys D G Q false p s) (moved : D.rely s t)
    (stable : ∀ r, Q r s → Q r t) : Obeys D G Q false p t := by
  induction p with
  | pure => exact stable _ h
  | throw => exact stable _ h
  | read next _ => exact fun u hu hr => h u hu (D.rely_trans moved hr)
  | act write next _ => exact fun u hu hr => h u hu (D.rely_trans moved hr)
  | boundary fault next ih => exact ⟨ih _ h.1, ih _ h.2⟩
  | acquire next _ => exact fun u hu hr => h u hu (D.rely_trans moved hr)
  | release next _ => exact h

theorem mono_post {held : Bool} (h : Obeys D G Q held p s)
    (post : ∀ r t, Q r t → Q' r t) : Obeys D G Q' held p s := by
  induction p generalizing held s with
  | pure =>
    cases held with
    | false => exact post _ _ h
    | true => exact h
  | throw =>
    cases held with
    | false => exact post _ _ h
    | true => exact h
  | read next ih =>
    cases held with
    | false => exact fun u hu hr => ih _ (h u hu hr)
    | true => exact ih _ h
  | act write next ih =>
    cases held with
    | false =>
      intro u hu hr
      have here := h u hu hr
      cases hw : write u with
      | ok v =>
        rw [hw] at here
        exact ⟨here.1, here.2.1, here.2.2.1, here.2.2.2.1, ih _ here.2.2.2.2⟩
      | error e => rw [hw] at here; exact ih _ here
    | true =>
      simp only [Obeys] at h ⊢
      cases hw : write s with
      | ok v => rw [hw] at h; exact ⟨h.1, h.2.1, h.2.2.1, h.2.2.2.1, ih _ h.2.2.2.2⟩
      | error e => rw [hw] at h; exact ih _ h
  | boundary fault next ih => cases held <;> exact ⟨ih _ h.1, ih _ h.2⟩
  | acquire next ih =>
    cases held with
    | false => exact fun u hu hr => ⟨(h u hu hr).1, ih (h u hu hr).2⟩
    | true => exact False.elim h
  | release next ih =>
    cases held with
    | false => exact False.elim h
    | true => exact ih h

/-- The continuation of a bind, as a postcondition of its first program. -/
def andThen (D : Discipline σ) (G : σ → σ → Prop) (Q : Except ε β → σ → Prop)
    (f : α → Program σ ε β) : Except ε α → σ → Prop
  | .ok a, t => Obeys D G Q false (f a) t
  | .error e, t => Q (.error e) t

/-- Outside the lock a bind is proved by continuing from every outcome. -/
theorem bind {f : α → Program σ ε β} {Q : Except ε β → σ → Prop}
    (h : Obeys D G (andThen D G Q f) false p s) :
    Obeys D G Q false (p >>= f) s := by
  change Obeys D G Q false (p.bind f) s
  have general : ∀ held, Obeys D G (andThen D G Q f) held p s →
      Obeys D G Q held (p.bind f) s := by
    clear h
    intro held h
    induction p generalizing held s with
    | pure =>
      cases held with
      | false => exact h
      | true => exact h.elim
    | throw =>
      cases held with
      | false => exact h
      | true => exact h.elim
    | read next ih =>
      cases held with
      | false => exact fun u hu hr => ih _ _ (h u hu hr)
      | true => exact ih _ _ h
    | act write next ih =>
      cases held with
      | false =>
        intro u hu hr
        have here := h u hu hr
        cases hw : write u with
        | ok v =>
          rw [hw] at here
          exact ⟨here.1, here.2.1, here.2.2.1, here.2.2.2.1, ih _ _ here.2.2.2.2⟩
        | error e => rw [hw] at here; exact ih _ _ here
      | true =>
        simp only [Obeys, Program.bind] at h ⊢
        cases hw : write s with
        | ok v => rw [hw] at h; exact ⟨h.1, h.2.1, h.2.2.1, h.2.2.2.1, ih _ _ h.2.2.2.2⟩
        | error e => rw [hw] at h; exact ih _ _ h
    | boundary fault next ih => cases held <;> exact ⟨ih _ _ h.1, ih _ _ h.2⟩
    | acquire next ih =>
      cases held with
      | false => exact fun u hu hr => ⟨(h u hu hr).1, ih _ (h u hu hr).2⟩
      | true => exact False.elim h
    | release next ih =>
      cases held with
      | false => exact False.elim h
      | true => exact ih _ h
  exact general false h

theorem ofExcept {r : Except ε α} (h : Q r s) :
    Obeys D G Q false (Program.ofExcept r) s := by
  cases r <;> exact h

theorem reads {query : σ → Except ε α}
    (h : ∀ t, D.inv t → D.rely s t → Q (query t) t) :
    Obeys D G Q false (Program.reads query) s :=
  fun t inv moved => Obeys.ofExcept (h t inv moved)

theorem require {condition : Prop} [Decidable condition] {e : ε}
    {Q : Except ε Unit → σ → Prop}
    (yes : condition → Q (.ok ()) s) (no : ¬ condition → Q (.error e) s) :
    Obeys D G Q false (Program.require condition e) s := by
  rw [Program.require]
  split
  · exact yes ‹_›
  · exact no ‹_›

/-- A write outside the lock keeps the invariant and leaves settled states alone. -/
theorem write {f : σ → Except ε σ} {Q : Except ε Unit → σ → Prop}
    (succeeds : ∀ t u, D.inv t → D.rely s t → f t = .ok u →
      D.inv u ∧ D.rely t u ∧ G t u ∧ (D.settled t → u = t) ∧ Q (.ok ()) u)
    (fails : ∀ t e, D.inv t → D.rely s t → f t = .error e → Q (.error e) t) :
    Obeys D G Q false (Program.write f) s := by
  intro t ht hr
  cases hf : f t with
  | ok u =>
    obtain ⟨h1, h2, h3, h4, h5⟩ := succeeds t u ht hr hf
    exact ⟨h1, h2, h3, h4, h5⟩
  | error e => exact fails t e ht hr hf

/-- A locked section is proved with weakest preconditions: once the lock is
held, only the section itself changes the state. -/
theorem locked
    (h : ∀ t, D.inv t → D.rely s t → D.settled t ∧
      WP false (fun a b => D.inv b ∧ D.rely a b ∧ G a b ∧ D.settled b) Q p t) :
    Obeys D G Q false p.locked s := by
  intro t ht hr
  refine ⟨(h t ht hr).1, ?_⟩
  have body := (h t ht hr).2
  clear h ht hr
  induction p generalizing t with
  | pure => exact body
  | throw => exact body
  | read next ih => exact ih _ _ body
  | act write next ih =>
    simp only [WP] at body
    simp only [releasing, Obeys]
    cases hw : write t with
    | ok u =>
      rw [hw] at body
      obtain ⟨⟨h1, h2, h3, h4⟩, rest⟩ := body
      exact ⟨h1, h2, h3, h4, ih _ _ rest⟩
    | error e => rw [hw] at body; exact ih _ _ body
  | boundary fault next ih => exact ⟨ih _ _ body.1, ih _ _ body.2⟩
  | acquire next ih => exact absurd body.1 Bool.false_ne_true
  | release next ih => exact absurd body.1 Bool.false_ne_true

/-- One action of the process itself, with or without the lock. -/
theorem step {held : Bool} {q : Program σ ε α} (h : Obeys D G Q held p s)
    (inv : D.inv s) (notLock : ¬ p.AtLock) (action : Step (p, s) (q, t)) :
    Obeys D G Q held q t ∧ D.inv t ∧ D.rely s t ∧ (t = s ∨ G s t) ∧
      (D.settled s → if held then D.settled t else t = s) := by
  cases action with
  | read =>
    cases held with
    | false => exact ⟨h s inv (D.rely_refl s), inv, D.rely_refl s, .inl rfl, fun _ => rfl⟩
    | true => exact ⟨h, inv, D.rely_refl s, .inl rfl, fun hs => hs⟩
  | actOk hw =>
    cases held with
    | false =>
      have here := h s inv (D.rely_refl s)
      rw [hw] at here
      exact ⟨here.2.2.2.2, here.1, here.2.1, .inr here.2.2.1, here.2.2.2.1⟩
    | true =>
      simp only [Obeys, hw] at h
      exact ⟨h.2.2.2.2, h.1, h.2.1, .inr h.2.2.1, fun _ => h.2.2.2.1⟩
  | actError hw =>
    cases held with
    | false =>
      have here := h s inv (D.rely_refl s)
      rw [hw] at here
      exact ⟨here, inv, D.rely_refl s, .inl rfl, fun _ => rfl⟩
    | true =>
      simp only [Obeys, hw] at h
      exact ⟨h, inv, D.rely_refl s, .inl rfl, fun hs => hs⟩
  | pass => cases held <;> exact ⟨h.1, inv, D.rely_refl s, .inl rfl, by simp⟩
  | strike => cases held <;> exact ⟨h.2, inv, D.rely_refl s, .inl rfl, by simp⟩
  | acquire => exact absurd trivial notLock
  | release => exact absurd trivial notLock

end Obeys

end Program

/-! ## The invariant of every interleaving -/

namespace World

variable [DecidableEq ι] {D : Discipline σ} {G : κ → σ → σ → Prop}
variable {starts : κ → Program σ ε α → Prop}

/-- The shared invariant holds, the state is settled while a running process
holds the lock, and every process still meets its own obligation. -/
structure Sound (D : Discipline σ) (G : κ → σ → σ → Prop) (w : World ι κ σ ε α) : Prop where
  inv : D.inv w.state
  settled : ∀ i, w.holder = some i → D.settled w.state
  holding : ∀ i, w.holder = some i → w.process i ≠ none
  obeys : ∀ i k p, w.process i = some ⟨k, p⟩ →
    p.Obeys D (G k) (fun _ _ => True) (decide (w.holder = some i)) w.state

theorem Sound.initial {s : σ} (h : D.inv s) :
    Sound D G (World.initial s : World ι κ σ ε α) :=
  ⟨h, fun _ held => (Option.some_ne_none _ held.symm).elim,
    fun _ held => (Option.some_ne_none _ held.symm).elim,
    fun _ _ _ running => (Option.some_ne_none _ running.symm).elim⟩

/-- Process `i` becomes `p` and the state becomes `t`. The other processes keep
their obligations when the lock stays theirs to hold and the state only moves
while none of them holds it. -/
private theorem Sound.update {w : World ι κ σ ε α} (h : Sound D G w) {i : ι}
    {p : Option (Process κ σ ε α)} {t : σ} {holder : Option ι} (inv : D.inv t)
    (moved : D.rely w.state t)
    (still : ∀ j, j ≠ i → w.holder = some j → t = w.state)
    (lock : ∀ j, j ≠ i → (holder = some j ↔ w.holder = some j))
    (own : holder = some i → D.settled t ∧ p ≠ none)
    (obeys : ∀ k q, p = some ⟨k, q⟩ →
      q.Obeys D (G k) (fun _ _ => True) (decide (holder = some i)) t) :
    Sound D G ⟨t, holder, (w.setProcess i p).process⟩ := by
  refine ⟨inv, ?_, ?_, ?_⟩
  · intro j held
    by_cases hj : j = i
    · exact (own (hj ▸ held)).1
    · have before := (lock j hj).mp held
      have same := still j hj before
      exact same ▸ h.settled j before
  · intro j held
    by_cases hj : j = i
    · subst hj
      rw [setProcess_self]
      exact (own held).2
    · rw [setProcess_other w hj]
      exact h.holding j ((lock j hj).mp held)
  · intro j k q running
    by_cases hj : j = i
    · subst hj
      rw [setProcess_self] at running
      exact obeys k q running
    · rw [setProcess_other w hj] at running
      have old := h.obeys j k q running
      by_cases held : w.holder = some j
      · rw [decide_eq_true held] at old
        rw [decide_eq_true ((lock j hj).mpr held), still j hj held]
        exact old
      · rw [decide_eq_false held] at old
        rw [decide_eq_false (mt (lock j hj).mp held)]
        exact old.rely moved fun _ hq => hq

/-- Every step of every process keeps the world sound, stays within the rely
relation, and changes the state only within the guarantee of the acting kind. -/
theorem Sound.step {w w' : World ι κ σ ε α} {label : Option κ} (h : Sound D G w)
    (obliged : ∀ k p, starts k p → ∀ s, D.inv s → p.Obeys D (G k) (fun _ _ => True) false s)
    (next : Step starts w label w') :
    Sound D G w' ∧ D.rely w.state w'.state ∧
      (w'.state = w.state ∨ ∃ k, label = some k ∧ G k w.state w'.state) := by
  cases next with
  | start i k p idle allowed =>
    refine ⟨?_, D.rely_refl _, .inl rfl⟩
    have free : w.holder ≠ some i := fun held => h.holding i held idle
    refine h.update h.inv (D.rely_refl _) (fun _ _ _ => rfl) (fun _ _ => Iff.rfl)
      (fun held => absurd held free) ?_
    intro k' q same
    cases same
    rw [decide_eq_false free]
    exact obliged k p allowed _ h.inv
  | act i k running notLock action =>
    obtain ⟨kept, inv, moved, changed, settled⟩ :=
      (h.obeys i k _ running).step h.inv notLock action
    refine ⟨?_, moved, changed.imp id fun hg => ⟨k, rfl, hg⟩⟩
    refine h.update inv moved ?_ (fun _ _ => Iff.rfl) ?_ ?_
    · -- another process holds the lock, so this write found a settled state
      intro j hj held
      have free : w.holder ≠ some i := fun own => hj (Option.some.inj (held.symm.trans own))
      simpa [free] using settled (h.settled j held)
    · intro held
      have held' : w.holder = some i := held
      exact ⟨by simpa [held'] using settled (h.settled i held'), nofun⟩
    · intro k' q same
      cases same
      exact kept
  | acquire i k running free =>
    have own := h.obeys i k _ running
    rw [decide_eq_false (by simp [free])] at own
    obtain ⟨settled, body⟩ := own _ h.inv (D.rely_refl _)
    refine ⟨?_, D.rely_refl _, .inl rfl⟩
    refine h.update h.inv (D.rely_refl _) (fun _ _ _ => rfl) ?_ (fun _ => ⟨settled, nofun⟩) ?_
    · intro j hj
      simp [free, Ne.symm hj]
    · intro k' q same
      cases same
      simpa using body
  | release i k running held =>
    have own := h.obeys i k _ running
    rw [decide_eq_true held] at own
    refine ⟨?_, D.rely_refl _, .inl rfl⟩
    refine h.update h.inv (D.rely_refl _) (fun _ _ _ => rfl) ?_ (fun own => nomatch own) ?_
    · intro j hj
      simp [held, Ne.symm hj]
    · intro k' q same
      cases same
      exact own
  | stop i =>
    refine ⟨?_, D.rely_refl _, .inl rfl⟩
    refine h.update h.inv (D.rely_refl _) (fun _ _ _ => rfl) ?_ ?_ nofun
    · intro j hj
      by_cases own : w.holder = some i
      · simp [own, Ne.symm hj]
      · simp [own]
    · intro held
      by_cases own : w.holder = some i
      · simp [own] at held
      · simp [own] at held

/-- The invariant of every interleaving. -/
theorem Sound.reachable {w w' : World ι κ σ ε α} (h : Sound D G w)
    (obliged : ∀ k p, starts k p → ∀ s, D.inv s → p.Obeys D (G k) (fun _ _ => True) false s)
    (reach : Reachable starts w w') : Sound D G w' := by
  induction reach with
  | refl => exact h
  | tail _ last ih =>
    obtain ⟨label, next⟩ := last
    exact (ih.step obliged next).1

/-- The world after process `i` has run down to `q`, holding the lock or not. -/
private def midway (w : World ι κ σ ε α) (i : ι) (k : κ) (held : Bool) (q : Program σ ε α)
    (t : σ) : World ι κ σ ε α :=
  ⟨t, if held then some i else none, (w.setProcess i (some ⟨k, q⟩)).process⟩

private theorem midway_again (w : World ι κ σ ε α) (i : ι) (k : κ) (held held' : Bool)
    (p q : Program σ ε α) (s t : σ) :
    (⟨t, if held' then some i else none,
      ((w.midway i k held p s).setProcess i (some ⟨k, q⟩)).process⟩ : World ι κ σ ε α) =
      w.midway i k held' q t := by
  simp only [midway, setProcess, Function.update_idem]

/-- One action of a process that meets its obligation, while the lock is free or
its own, is a step of the world. -/
private theorem midway_step {w : World ι κ σ ε α} {i : ι} {k : κ} {held : Bool}
    {p q : Program σ ε α} {s t : σ} {Q : Except ε α → σ → Prop} (inv : D.inv s)
    (obeys : p.Obeys D (G k) Q held s) (action : Program.Step (p, s) (q, t)) :
    ∃ held', D.inv t ∧ q.Obeys D (G k) Q held' t ∧
      Reachable starts (w.midway i k held p s) (w.midway i k held' q t) := by
  have running : (w.midway i k held p s).process i = some ⟨k, p⟩ := setProcess_self w i _
  have plain : ¬ p.AtLock → ∃ held', D.inv t ∧ q.Obeys D (G k) Q held' t ∧
      Reachable starts (w.midway i k held p s) (w.midway i k held' q t) := by
    intro notLock
    obtain ⟨kept, inv', -⟩ := obeys.step inv notLock action
    refine ⟨held, inv', kept, .single ⟨some k, ?_⟩⟩
    exact midway_again w i k held held p q s t ▸ Step.act i k running notLock action
  cases p with
  | pure => exact plain id
  | throw => exact plain id
  | read => exact plain id
  | act => exact plain id
  | boundary => exact plain id
  | acquire next =>
    cases action
    cases held with
    | true => exact False.elim obeys
    | false =>
      refine ⟨true, inv, (obeys s inv (D.rely_refl s)).2, .single ⟨some k, ?_⟩⟩
      exact midway_again w i k false true (.acquire q) q s s ▸ Step.acquire i k running rfl
  | release next =>
    cases action
    cases held with
    | false => exact False.elim obeys
    | true =>
      refine ⟨false, inv, obeys, .single ⟨some k, ?_⟩⟩
      exact midway_again w i k true false (.release q) q s s ▸ Step.release i k running rfl

private theorem stop_midway (i : ι) (k : κ) (held : Bool) (q : Program σ ε α) (s t : σ) :
    { ((initial s).midway i k held q t).setProcess i none with
      holder := if ((initial s).midway i k held q t).holder = some i then none
        else ((initial s).midway i k held q t).holder } = (initial t : World ι κ σ ε α) := by
  simp only [initial, midway, setProcess, Function.update_idem, mk.injEq, true_and]
  exact ⟨by cases held <;> simp, Function.update_eq_self i _⟩

/-- Whatever a crash of an operation running alone leaves behind, the world in
which that operation has stopped is reachable. -/
theorem Reachable.leaves {s t : σ} {k : κ} {p : Program σ ε α} (i : ι) (inv : D.inv s)
    (allowed : starts k p) (obeys : p.Obeys D (G k) (fun _ _ => True) false s)
    (left : p.Leaves s t) :
    Reachable starts (initial s : World ι κ σ ε α) (initial t) := by
  obtain ⟨q, reaches⟩ := left
  have started : Reachable starts (initial s) ((initial s).midway i k false p s) :=
    .single ⟨none, .start i k p rfl allowed⟩
  have ran : ∃ held, D.inv t ∧ q.Obeys D (G k) (fun _ _ => True) held t ∧
      Reachable starts (initial s) ((initial s).midway i k held q t) := by
    unfold Program.Reaches at reaches
    generalize hc : (q, t) = c at reaches
    induction reaches generalizing q t with
    | refl => cases hc; exact ⟨false, inv, obeys, started⟩
    | @tail b c _ last ih =>
      subst hc
      obtain ⟨held, invB, obeysB, reached⟩ := ih _ rfl
      have stepped : ∃ held', D.inv t ∧ q.Obeys D (G k) (fun _ _ => True) held' t ∧
          Reachable starts ((initial s).midway i k held _ _) ((initial s).midway i k held' q t) :=
        midway_step invB obeysB last
      obtain ⟨held', invC, obeysC, stepped⟩ := stepped
      exact ⟨held', invC, obeysC, reached.trans stepped⟩
  obtain ⟨held, -, -, reached⟩ := ran
  have stopped : Step starts ((initial s).midway i k held q t) none (initial t) := by
    have again : (initial t : World ι κ σ ε α) = _ := (stop_midway i k held q s t).symm
    exact again ▸ Step.stop i
  exact reached.tail ⟨none, stopped⟩

end World

end Durable
