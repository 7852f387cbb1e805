import Relswap.Durable.Obligation
import Relswap.Proof.Operation

/-!
# Any number of managers

Managers share one root and one command and interleave freely outside the lock.
Each operation meets the obligation of a process: what it writes under the lock
is an effect, and outside the lock it only ever creates the root and the lock
file. Hence the invariant holds in every interleaving.
-/

namespace Relswap

open Durable Durable.Program Disk

section Later

variable {V : Type}

/-- The root and the lock file are in place. -/
structure Settled (s : Disk V) : Prop where
  root : s.root = .directory true
  lock : s.lock = .regular

/-- What no manager ever undoes: the root, the lock file, and version directories. -/
structure Later (s t : Disk V) : Prop where
  root : s.root = .directory true → t.root = .directory true
  lock : s.lock = .regular → t.lock = .regular
  entries : ∀ name entry, s.versionEntry name = some entry → t.versionEntry name = some entry

namespace Later

variable {s t u : Disk V}

theorem refl (s : Disk V) : Later s s := ⟨id, id, fun _ _ => id⟩

theorem trans (h : Later s t) (h' : Later t u) : Later s u :=
  ⟨fun r => h'.root (h.root r), fun l => h'.lock (h.lock l),
    fun name entry e => h'.entries name entry (h.entries name entry e)⟩

theorem settled (h : Later s t) (settled : Settled s) : Settled t :=
  ⟨h.root settled.root, h.lock settled.lock⟩

end Later

theorem Scaffold.later {s t : Disk V} (h : Scaffold s t) : Later s t := by
  refine ⟨fun r => ?_, fun l => ?_, fun name entry found => (h.versionEntry name).trans found⟩
  · rcases h.root with same | ⟨_, made⟩
    · rw [same, r]
    · exact made
  · rcases h.lock with same | ⟨_, made⟩
    · rw [same, l]
    · exact made

end Later

namespace Installation

variable {V U : Type} [SemVer V] [Crates V] [UrlCrate U] (I : Installation)

/-- Nothing has been written but, perhaps, the root. -/
structure Bare (s : Disk V) : Prop where
  install : s.install = .absent
  pending : s.pending = .absent
  selected : I.Selects s none
  versions : s.versions = .absent
  staging : s.staging = .absent

/-- The invariant among managers: what has been written is guarded by a lock. -/
structure Shared (s : Disk V) : Prop extends I.Inv s where
  anchored : Settled s ∨ I.Bare s

/-- What the managers of one root agree on. -/
def discipline : Discipline (Disk V) where
  inv := I.Shared
  rely := Later
  settled := Settled
  rely_refl := Later.refl
  rely_trans := Later.trans

/-- A write of the operation, in a section that began in a reachable state. -/
def Acts (op : Operation V U) (s t : Disk V) : Prop :=
  ∃ kind s₀, I.Performs op kind ∧ I.Inv s₀ ∧ I.Effect kind s₀ s t

/-- The program of each operation a manager may start. -/
def starts (op : Operation V U) (p : Action V Unit) : Prop := p = I.perform op

variable {I} {s t s₀ : Disk V} {kind : Kind V} {op : Operation V U}

theorem Effect.later (step : I.Effect kind s₀ s t) : Later s t := by
  cases step with
  | scaffold h => exact h.later
  | emptyVersion v _ added =>
    refine ⟨fun r => ?_, fun l => ?_, fun name entry found => ?_⟩
    · rw [added.shape]; exact r
    · rw [added.shape]; exact l
    · rw [added.entry]
      split
      · rename_i same
        rw [same, added.1] at found
        cases found
      · exact found
  | stage h =>
    have frame := StageStep.frame I h
    cases h <;> exact ⟨fun r => r, fun l => l, fun name entry found =>
      (frame.versions name).trans found⟩
  | createLauncher => exact ⟨fun r => r, fun l => l, fun _ _ e => e⟩
  | removeLauncher => exact ⟨fun r => r, fun l => l, fun _ _ e => e⟩
  | publish v dir state id x _ publishes =>
    refine ⟨fun r => r, fun l => l, fun name entry found => ?_⟩
    have apart : name ≠ SemVer.toText v := by
      rintro rfl
      rw [publishes.free] at found
      cases found
    obtain ⟨p, entries, present, lookup⟩ := versions_of_entry found
    simpa [Disk.versionEntry, published, present, Folder.insert, AList.lookup_insert_ne apart]
      using lookup
  | journal => exact ⟨fun r => r, fun l => l, fun _ _ e => e⟩
  | «switch» p =>
    have fields := I.select_fields p.toVersion s
    refine ⟨fun r => ?_, fun l => ?_, fun name entry found => ?_⟩
    · unfold select; cases I.platform <;> exact r
    · unfold select; cases I.platform <;> exact l
    · rw [versionEntry_select]; exact found
  | record => exact ⟨fun r => r, fun l => l, fun _ _ e => e⟩
  | dropJournal => exact ⟨fun r => r, fun l => l, fun _ _ e => e⟩

theorem Fresh.shared (h : I.Fresh s) : I.Shared s :=
  { h.inv with anchored := .inr ⟨h.install, h.pending, h.selects, h.versions, h.staging⟩ }

/-! ## Outside the lock -/

/-- Obligations of an operation outside the lock. -/
abbrev Unlocked (I : Installation) (op : Operation V U) {α : Type} (Q : α → Disk V → Prop)
    (p : Action V α) (s : Disk V) : Prop :=
  Complies I.discipline (I.Acts op) Q p s

/-- Creating the root or the lock file. -/
theorem Shared.scaffold (h : I.Shared s) (step : Scaffold s t) (versions : t.versions = s.versions)
    (staging : t.staging = s.staging) : I.Shared t := by
  refine { h.toInv.scaffold step with anchored := h.anchored.imp step.later.settled fun bare => ?_ }
  have frame := Scaffold.frame I step
  exact ⟨frame.install.trans bare.install, frame.pending.trans bare.pending,
    bare.selected.same I frame.selector, versions.trans bare.versions, staging.trans bare.staging⟩

theorem unlocked_ensureRoot :
    Unlocked I op (fun _ t => t.root = .directory true) I.ensureRoot s := by
  refine Complies.write fun t u inv _ made => ?_
  simp only [bind_eq_ok, pure_eq_ok] at made
  obtain ⟨root, ensured, rfl⟩ := made
  have shape : (t.root = .absent ∨ t.root = .directory true) ∧ root = .directory true := by
    rcases inv.root with absent | own
    · rw [absent] at ensured
      exact ⟨.inl absent, (Except.ok.inj ensured).symm⟩
    · rw [own] at ensured
      exact ⟨.inr own, (Except.ok.inj ensured).symm⟩
  obtain ⟨before, rfl⟩ := shape
  have step : Scaffold t { t with root := .directory true } :=
    ⟨before.symm.imp (fun own => own.symm) fun absent => ⟨absent, rfl⟩, .inl rfl, .inl rfl,
      .inl rfl, .inl rfl, rfl, rfl, rfl, rfl⟩
  refine ⟨inv.scaffold step rfl rfl, step.later, ⟨.recovery, t, .inl rfl, inv.toInv,
    .scaffold step⟩, fun settled => ?_, rfl⟩
  rw [← settled.root]

theorem unlocked_createLockFile (rooted : s.root = .directory true) :
    Unlocked I op (fun _ t => Settled t) createLockFile s := by
  refine Complies.write fun t u inv moved made => ?_
  cases made
  have root := moved.root rooted
  have before : t.lock = .absent ∨ t.lock = .regular := by
    cases hl : t.lock with
    | absent => exact .inl rfl
    | regular => exact .inr rfl
    | foreign => exact absurd hl inv.lock
  have made : (if t.lock = .absent then .regular else t.lock) = LockEntry.regular := by
    rcases before with absent | regular
    · rw [if_pos absent]
    · rw [regular]; rfl
  rw [made]
  have step : Scaffold t { t with lock := .regular } :=
    ⟨.inl rfl, before.symm.imp (fun own => own.symm) fun absent => ⟨absent, rfl⟩, .inl rfl,
      .inl rfl, .inl rfl, rfl, rfl, rfl, rfl⟩
  refine ⟨inv.scaffold step rfl rfl, step.later, ⟨.recovery, t, .inl rfl, inv.toInv,
    .scaffold step⟩, fun settled => ?_, ⟨root, rfl⟩⟩
  rw [← settled.lock]

/-- Verifying a version that is present writes nothing. -/
theorem unlocked_verifyFinalVersion {v : V} {id : Option String} {entry : VersionEntry}
    (present : s.versionEntry (SemVer.toText v) = some entry) :
    Unlocked I op (fun _ _ => True) (I.verifyFinalVersion v id) s := by
  rw [verifyFinalVersion, ensureVersionDir]
  refine Complies.bind (M := fun _ _ => True) (Complies.write fun t u inv moved made => ?_)
    fun _ t _ => Complies.reads fun _ _ _ _ _ => trivial
  obtain ⟨p, entries, versions, found⟩ := versions_of_entry (moved.entries _ _ present)
  have same : u = t := by
    simp only [versions, found] at made
    cases entry with
    | foreign => cases made
    | directory dir =>
      simp only [bind_eq_ok, pure_eq_ok] at made
      exact made.choose_spec.2.symm
  rw [same]
  exact ⟨inv, Later.refl t, ⟨.recovery, t, .inl rfl, inv.toInv, Effect.refl I t⟩, fun _ => rfl,
    trivial⟩

theorem unlocked_retainedLauncherAmong {list : List (Sigma fun _ : String => VersionEntry)}
    (present : ∀ entry ∈ list, s.versionEntry entry.1 = some entry.2) :
    Unlocked I op (fun _ _ => True) (I.retainedLauncherAmong list) s := by
  induction list generalizing s with
  | nil => exact Complies.pure trivial
  | cons entry rest ih =>
    obtain ⟨name, entry⟩ := entry
    have later : ∀ t, Later s t → Unlocked I op (fun _ _ => True) (I.retainedLauncherAmong rest) t :=
      fun t moved => ih fun e he => moved.entries _ _ (present e (List.mem_cons_of_mem _ he))
    cases entry with
    | foreign => exact later s (Later.refl s)
    | directory dir =>
      rw [retainedLauncherAmong]
      refine Complies.bind_ofExcept fun v parsed => ?_
      have here := present _ List.mem_cons_self
      rw [parseCanonicalVersion_eq_ok.mp parsed] at here
      refine (unlocked_verifyFinalVersion here).since.bind fun state t found => ?_
      obtain ⟨_, moved⟩ := found
      split
      · exact later t moved
      · refine Complies.bind_reads fun found u _ moved' _ => ?_
        split
        · exact Complies.pure trivial
        · exact later u (moved.trans moved')

theorem unlocked_provenWithoutInstall {install : Option (InstallState V)} :
    Unlocked I op (fun _ _ => True) (I.provenWithoutInstall install) s := by
  rw [provenWithoutInstall, proveRetainedLauncherOwnership, retainedLauncherOwnership]
  split
  · refine Complies.bind (M := fun _ _ => True) ?_ fun _ _ _ => Complies.pure trivial
    refine Complies.bind_get fun t _ _ => ?_
    exact unlocked_retainedLauncherAmong fun _ he => lookup_of_mem he
  · exact Complies.pure trivial

theorem unlocked_ensureActiveOwned {active : V} {install : Option (InstallState V)}
    {entry : VersionEntry} (present : s.versionEntry (SemVer.toText active) = some entry) :
    Unlocked I op (fun _ _ => True) (I.ensureActiveOwned active install) s := by
  simp only [ensureActiveOwned]
  split
  · exact Complies.throw _
  · refine Complies.bind_require fun _ => ?_
    refine (unlocked_verifyFinalVersion present).bind fun _ t _ => ?_
    split
    · refine Complies.bind_get fun u _ _ => ?_
      split
      · exact Complies.require fun _ => trivial
      · exact Complies.throw _
    · exact Complies.reads fun _ _ _ _ _ => trivial

theorem unlocked_ensureCommandOwned {active : V} {install : Option (InstallState V)}
    {entry : VersionEntry} (present : s.versionEntry (SemVer.toText active) = some entry) :
    Unlocked I op (fun _ _ => True) (I.ensureCommandOwned (some active) install) s := by
  rw [ensureCommandOwned]
  refine Complies.bind_reads fun exists_ t _ moved _ => ?_
  split
  · exact unlocked_ensureActiveOwned (moved.entries _ _ present)
  · exact Complies.require fun _ => trivial

theorem unlocked_requireManagedCurrent :
    Unlocked I op (fun _ _ => True) I.requireManagedCurrent s := by
  unfold requireManagedCurrent
  refine Complies.bind_reads fun pointer t inv _ read => ?_
  refine Complies.bind_ofExcept fun current some_ => ?_
  rw [orError_eq_ok] at some_
  subst some_
  -- the selected version is retained, and stays so
  obtain ⟨state, dir, c, present, _⟩ := inv.selected (I.selects_of_read read)
  refine Complies.bind_reads fun install u _ moved _ => ?_
  have presentU := moved.entries _ _ present
  refine Complies.bind_ofExcept fun i _ => Complies.bind_ofExcept fun _ _ => ?_
  refine Complies.bind_require fun _ => ?_
  refine (unlocked_verifyFinalVersion presentU).since.bind fun _ a ⟨_, moved⟩ => ?_
  refine (unlocked_ensureCommandOwned (moved.entries _ _ presentU)).bind fun _ _ _ => ?_
  exact Complies.pure trivial

theorem unlocked_requireUnforeignCommand :
    Unlocked I op (fun _ _ => True) I.requireUnforeignCommand s := by
  rw [requireUnforeignCommand]
  refine Complies.bind_reads fun present t _ _ _ => ?_
  split
  · refine Complies.bind_get fun u _ _ => ?_
    split
    · refine unlocked_provenWithoutInstall.bind fun _ _ _ => ?_
      exact Complies.require fun _ => trivial
    · exact Complies.pure trivial
  · exact Complies.pure trivial

theorem unlocked_observedPointer :
    Unlocked I op (fun _ _ => True) I.observedPointer s := by
  rw [observedPointer]
  refine Complies.bind_get fun t _ _ => ?_
  split
  · exact Complies.pure trivial
  refine Complies.bind_reads fun _ _ _ _ _ => Complies.bind_reads fun install _ _ _ _ => ?_
  split
  · exact Complies.reads fun _ _ _ _ _ => trivial
  refine Complies.bind_reads fun present _ _ _ _ => ?_
  split
  · exact Complies.reads fun _ _ _ _ _ => trivial
  · exact Complies.pure trivial

/-! ## Under the lock -/

/-- A locked section of a kind the operation performs. -/
theorem unlocked_underLock {α : Type} {body : Action V α} {Q : Disk V → α → Disk V → Prop}
    (performs : I.Performs op kind) (settled : Settled s)
    (h : ∀ s₀, Guards false (I.Effect kind s₀) (Q s₀) body s₀) :
    Unlocked I op (fun _ _ => True) (underLock body) s := by
  refine Obeys.locked fun t inv moved => ?_
  have settledT := moved.settled settled
  refine ⟨settledT, ?_⟩
  have guarded : Guards false (I.Effect kind t) (Q t) (do mark (.fault .lockAcquired); body) t :=
    Guards.bind_mark (h t)
  have kept := WP.with_invariant (I := fun u => I.Shared u ∧ Settled u) guarded ⟨inv, settledT⟩
    fun a b ⟨_, sa⟩ step => ?_
  · refine kept.mono (fun a b ⟨⟨_, _⟩, step, ib, sb⟩ => ?_) fun r u _ => ?_
    · exact ⟨ib, step.later, ⟨kind, t, performs, inv.toInv, step⟩, sb⟩
    · cases r <;> trivial
  · have sb := step.later.settled sa
    rename_i ia
    exact ⟨{ ia.toInv.effect inv.toInv step with anchored := .inl sb }, sb⟩

theorem unlocked_lockForMutation {α : Type} {body : Action V α}
    {Q : Disk V → α → Disk V → Prop} (performs : I.Performs op kind)
    (h : ∀ s₀, Guards false (I.Effect kind s₀) (Q s₀) body s₀) :
    Unlocked I op (fun _ _ => True) (I.lockForMutation body) s := by
  rw [lockForMutation]
  refine unlocked_ensureRoot.bind fun _ a _ => unlocked_ensureRoot.bind fun _ b rooted => ?_
  refine Complies.bind_reads fun _ c _ moved _ => ?_
  refine (unlocked_createLockFile (moved.root rooted)).bind fun _ d settled => ?_
  exact unlocked_underLock performs settled h

theorem unlocked_recoverIfManaged :
    Unlocked I op (fun _ _ => True) I.recoverIfManaged s := by
  rw [recoverIfManaged]
  refine Complies.bind_ofExcept fun _ _ => Complies.bind_get fun a _ _ => ?_
  split
  · exact Complies.pure trivial
  refine Complies.bind_reads fun _ _ _ _ _ => Complies.bind_get fun _ _ _ => ?_
  refine Complies.bind_get fun _ _ _ => Complies.bind_reads fun _ _ _ _ _ => ?_
  refine Complies.bind_get fun _ _ _ => ?_
  dsimp only
  split
  · exact Complies.pure trivial
  refine unlocked_ensureRoot.bind fun _ b rooted => ?_
  refine Complies.bind (M := fun _ t => t.root = .directory true) ?_ fun unrelated c rootedC => ?_
  · rw [pointerIsUnrelated]
    split
    · refine (Complies.attempt (Q := fun _ t => t.root = .directory true) ?_).bind
        fun _ _ rootedD => Complies.pure rootedD
      exact Obeys.reads fun t _ moved => moved.root rooted
    · exact Complies.pure rooted
  · split
    · exact Complies.pure trivial
    · rw [lockExisting]
      refine Complies.bind_reads fun _ t _ moved checked => ?_
      refine unlocked_underLock (.inl rfl : I.Performs op .recovery) ⟨moved.root rootedC, ?_⟩
        fun _ => guards_recoverLocked
      unfold checkLockFile at checked
      cases hl : t.lock with
      | regular => rfl
      | absent => rw [hl] at checked; cases checked
      | foreign => rw [hl] at checked; cases checked

/-! ## The operations -/

theorem unlocked_activateDownload {inputs : Inputs V U} {metadata : ReleaseMetadata V U}
    {archive : DownloadedArchive} {v : V} (performs : I.Performs op (downloadKind inputs v)) :
    Unlocked I op (fun _ _ => True) (I.activateDownload inputs metadata archive v) s := by
  rw [activateDownload]
  refine unlocked_recoverIfManaged.bind fun _ _ _ => ?_
  refine unlocked_requireUnforeignCommand.bind fun _ _ _ => ?_
  exact unlocked_lockForMutation performs fun _ => guards_activateDownloadLocked rfl

theorem unlocked_activateExisting {inputs : Inputs V U} {target : V}
    (performs : I.Performs op (.existing target)) :
    Unlocked I op (fun _ _ => True) (I.activateExisting inputs target) s :=
  unlocked_lockForMutation performs fun _ => guards_activateExistingLocked rfl

/-- Every operation meets its obligation, from any state. -/
theorem unlocked_perform (op : Operation V U) (s : Disk V) :
    Unlocked I op (fun _ _ => True) (I.perform op) s := by
  have dropResult : ∀ {α : Type} {p : Action V α}, Unlocked I op (fun _ _ => True) p s →
      Unlocked I op (fun _ _ => True) (p >>= fun _ => Pure.pure ()) s := fun h =>
    h.bind fun _ _ _ => Complies.pure trivial
  cases op with
  | installVersion inputs v =>
    apply dropResult
    rw [installVersion]
    refine unlocked_recoverIfManaged.bind fun _ _ _ => ?_
    refine Complies.bind_ofExcept fun metadata _ => Complies.bind_ofExcept fun archive _ => ?_
    exact unlocked_activateDownload (.inr rfl)
  | update inputs =>
    apply dropResult
    rw [update]
    refine unlocked_recoverIfManaged.bind fun _ _ _ => ?_
    refine unlocked_requireManagedCurrent.bind fun current _ _ => ?_
    refine Complies.bind_ofExcept fun metadata fetched => ?_
    split
    · exact Complies.throw _
    · split
      · exact Complies.pure trivial
      · refine Complies.bind_ofExcept fun archive _ => ?_
        exact unlocked_activateDownload (.inr ⟨metadata, fetched, rfl⟩)
  | rollback inputs =>
    apply dropResult
    rw [rollback, rollbackRecovered]
    refine unlocked_recoverIfManaged.bind fun _ _ _ => ?_
    refine unlocked_requireManagedCurrent.bind fun current _ _ => ?_
    refine Complies.bind_reads fun install _ _ _ _ => Complies.bind_ofExcept fun i _ => ?_
    refine Complies.bind_ofExcept fun target _ => Complies.bind_require fun _ => ?_
    exact unlocked_activateExisting (.inr ⟨target, rfl⟩)
  | rollbackTo inputs target =>
    apply dropResult
    rw [rollbackTo, rollbackToRecovered]
    refine unlocked_recoverIfManaged.bind fun _ _ _ => ?_
    refine unlocked_requireManagedCurrent.bind fun current _ _ => Complies.bind_require fun _ => ?_
    exact unlocked_activateExisting (.inr rfl)
  | recoverIfManaged => exact dropResult unlocked_recoverIfManaged
  | checkLatest inputs =>
    apply dropResult
    rw [checkLatest]
    refine unlocked_recoverIfManaged.bind fun _ _ _ => Complies.bind_ofExcept fun metadata _ => ?_
    refine unlocked_observedPointer.bind fun _ _ _ => Complies.bind_get fun _ _ _ => ?_
    exact Complies.pure trivial

/-! ## Every interleaving -/

/-- The managers of one root, and the disk they share. -/
abbrev Managers (V U : Type) := World Nat (Operation V U) (Disk V) (InstallError V) Unit

/-- Managers that have come from a disk on which nothing was installed. -/
def Reached (w : Managers V U) : Prop :=
  ∃ s, I.Fresh s ∧ World.Reachable I.starts (World.initial s) w

/-- The obligation of whatever a manager may start. -/
theorem obliged (op : Operation V U) (p : Action V Unit) (started : I.starts op p) (s : Disk V)
    (_ : I.discipline.inv s) :
    p.Obeys I.discipline (I.Acts op) (fun _ _ => True) false s := by
  cases started
  exact Obeys.mono_post (unlocked_perform op s) fun _ _ _ => trivial

theorem Reached.sound {w : Managers V U} (h : I.Reached w) :
    World.Sound I.discipline I.Acts w := by
  obtain ⟨s, fresh, reach⟩ := h
  exact (World.Sound.initial fresh.shared).reachable obliged reach

/-- One step of any manager in a reachable world. -/
theorem Reached.step {w w' : Managers V U} {label : Option (Operation V U)} (h : I.Reached w)
    (next : World.Step I.starts w label w') :
    I.Reached w' ∧ (w'.state = w.state ∨ ∃ op, label = some op ∧ I.Acts op w.state w'.state) := by
  refine ⟨?_, ?_⟩
  · obtain ⟨s, fresh, reach⟩ := h
    exact ⟨s, fresh, reach.tail ⟨label, next⟩⟩
  · exact (h.sound.step obliged next).2.2

/-! ## Between operations -/

/-- A disk that managers may leave behind when none of them runs. -/
def Quiet (U : Type) [UrlCrate U] (s : Disk V) : Prop :=
  I.Reached (World.initial s : Managers V U)

theorem Fresh.quiet (h : I.Fresh s) : I.Quiet U s := ⟨s, h, .refl⟩

theorem Quiet.inv (h : I.Quiet U s) : I.Shared s := h.sound.inv

/-- Any operation may be cut off anywhere, or run to its end. -/
theorem Quiet.leaves (h : I.Quiet U s) (op : Operation V U) (left : (I.perform op).Leaves s t) :
    I.Quiet U t := by
  obtain ⟨s₀, fresh, reach⟩ := id h
  exact ⟨s₀, fresh, reach.trans (World.Reachable.leaves (D := I.discipline) 0 h.inv (rfl : I.starts op _)
    (obliged op _ rfl s h.inv) left)⟩

end Installation

end Relswap
