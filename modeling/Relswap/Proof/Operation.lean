import Relswap.Proof.Invariant

/-!
# What an operation does

The public operations as programs, the kinds of sections each of them performs,
and their contracts: whatever disk an operation meets, alone and under any
faults, its writes are effects of these kinds.
-/

namespace Relswap

open Durable Durable.Program Disk

/-- One call of the public interface. -/
inductive Operation (V U : Type) where
  | installVersion (inputs : Inputs V U) (version : V)
  | update (inputs : Inputs V U)
  | rollback (inputs : Inputs V U)
  | rollbackTo (inputs : Inputs V U) (target : V)
  | recoverIfManaged
  | checkLatest (inputs : Inputs V U)

namespace Installation

variable {V U : Type} [SemVer V] [Crates V] [UrlCrate U] (I : Installation)

/-- The program of an operation, without its result. -/
def perform : Operation V U → Action V Unit
  | .installVersion inputs version => do let _ ← I.installVersion inputs version
  | .update inputs => do let _ ← I.update inputs
  | .rollback inputs => do let _ ← I.rollback inputs
  | .rollbackTo inputs target => do let _ ← I.rollbackTo inputs target
  | .recoverIfManaged => do let _ ← I.recoverIfManaged
  | .checkLatest inputs => do let _ ← I.checkLatest inputs

/-- The section that activates a download with these inputs. -/
def downloadKind (inputs : Inputs V U) (version : V) : Kind V :=
  .download version inputs.nowChecked
    (randomId (V := V) "installation" (inputs.randomness .installation)).toOption

/-- The kinds of sections an operation performs. -/
def Performs (op : Operation V U) (kind : Kind V) : Prop :=
  kind = .recovery ∨
    match op with
    | .installVersion inputs version => kind = downloadKind inputs version
    | .update inputs => ∃ metadata : ReleaseMetadata V U,
        I.fetchLatest inputs = .ok metadata ∧ kind = downloadKind inputs metadata.version
    | .rollback _ => ∃ target, kind = .existing target
    | .rollbackTo _ target => kind = .existing target
    | .recoverIfManaged | .checkLatest _ => False

/-- An effect of some section of the kind. -/
def Effects (kind : Kind V) (s t : Disk V) : Prop := ∃ s₀, I.Effect kind s₀ s t

/-- An effect of the operation. -/
def Changes (op : Operation V U) (s t : Disk V) : Prop :=
  ∃ kind, I.Performs op kind ∧ I.Effects kind s t

/-- The outcomes of a recovery that completes. -/
inductive RecoveredFrom (s : Disk V) : Bool → Disk V → Prop where
  | unmanaged {t : Disk V} (scaffold : Scaffold s t) : RecoveredFrom s false t
  | managed {b : Bool} {u t : Disk V} (scaffold : Scaffold s u) (laid : I.Laid u)
      (configured : (I.validateConfiguration : Except (InstallError V) Unit) = .ok ())
      (locked : u.lock = .regular)
      (valid : ∀ i, u.install = .value i → validateInstallState I.platform i = .ok ())
      (outcome : I.Recovered u b t) : RecoveredFrom s b t

section Guards

variable {I} {s : Disk V} {kind : Kind V}

/-- A section that begins now, as a part of an operation running alone. -/
theorem guards_underLock {α : Type} {body : Action V α} {Q : α → Disk V → Prop}
    (h : ∀ s₀, Guards true (I.Effect kind s₀) Q body s) :
    Guards true (I.Effects kind) Q (underLock body) s :=
  Guards.locked (Guards.bind_mark ((h s).mono (fun _ _ step => ⟨s, step⟩) fun _ _ q => q))

theorem effects_scaffold {t : Disk V} (h : Scaffold s t) : I.Effects kind s t := ⟨s, .scaffold h⟩

omit [Crates V] in
theorem guards_pointerIsUnrelated {G : Disk V → Disk V → Prop}
    {hasPointer hasInstall hasPending : Bool} :
    Guards true G (fun _ t => t = s)
      (I.pointerIsUnrelated hasPointer hasInstall hasPending) s := by
  rw [pointerIsUnrelated]
  split
  · refine (Guards.attempt (Q := fun _ t => t = s) ?_).bind fun _ _ same => Guards.pure same
    rw [wp_reads]
  · exact Guards.pure rfl

theorem guards_recoverIfManaged :
    Guards true (I.Effects .recovery) (fun b t => I.RecoveredFrom s b t) I.recoverIfManaged s := by
  unfold recoverIfManaged
  refine Guards.bind_ofExcept fun _ configured => ?_
  refine Guards.bind_get ?_
  have unmanaged : ∀ t, Scaffold s t → Guards (ε := InstallError V) true (I.Effects .recovery)
      (fun b t => I.RecoveredFrom s b t) (Pure.pure false) t := fun t scaffold =>
    Guards.pure (.unmanaged scaffold)
  split
  · exact unmanaged s (.refl s)
  refine Guards.bind_reads fun _ _ => ?_
  refine Guards.bind_get (Guards.bind_get ?_)
  refine Guards.bind_reads fun hasPointer _ => ?_
  refine Guards.bind_get ?_
  dsimp only
  split
  · exact unmanaged s (.refl s)
  have rooted : Guards true (I.Effects .recovery) (fun _ t => Scaffold s t) I.ensureRoot s :=
    (guards_ensureRoot).mono (fun _ _ step => ⟨s, step⟩) fun _ _ h => h.1
  refine rooted.bind fun _ a scaffold => ?_
  refine (guards_pointerIsUnrelated (s := a)).bind fun unrelated b same => ?_
  subst same
  split
  · exact unmanaged b scaffold
  · simp only [lockExisting]
    refine Guards.bind_reads fun _ checked => ?_
    refine (guards_underLock fun s₀ => guards_recoverLocked).mono_post ?_
    rintro r t ⟨u, step, laid, valid, outcome⟩
    refine .managed (scaffold.trans step) laid configured ?_ valid outcome
    have regular : b.lock = .regular := by
      unfold checkLockFile at checked
      cases hl : b.lock with
      | regular => rfl
      | absent => rw [hl] at checked; cases checked
      | foreign => rw [hl] at checked; cases checked
    rcases step.lock with same | ⟨absent, _⟩
    · rw [same, regular]
    · rw [regular] at absent
      cases absent

/-- Whatever a recovery repairs, the selector stays. -/
theorem guards_recovery :
    Guards true (I.Effects .recovery) (fun _ t => I.SameSelector s t) I.recoverIfManaged s := by
  have kept := WP.with_invariant (I := fun t => I.SameSelector s t) guards_recoverIfManaged
    (SameSelector.refl I s) fun _ _ here ⟨_, step⟩ => here.trans I step.recovery_selector
  refine kept.mono (fun _ _ step => step.2.1) fun r t ⟨_, same⟩ => ?_
  cases r with
  | ok => exact same
  | error => trivial

theorem guards_requireUnforeignCommand :
    Guards true (I.Effects kind)
      (fun _ t => t = s ∧ (s.install = .absent → I.lexistsCommand s = .ok true →
        I.platform = .windows ∧ ∃ bytes launcher, I.RetainsLauncher s bytes launcher))
      I.requireUnforeignCommand s := by
  rw [requireUnforeignCommand]
  refine Guards.bind_reads fun present hp => ?_
  split
  · rename_i yes
    subst yes
    apply Guards.bind_get
    split
    · refine Guards.bind_unchanged ((guards_provenWithoutInstall).mono
        (fun _ _ step => ⟨s, step⟩) fun _ _ h => h) fun proven h => ?_
      refine Guards.require fun yes => ⟨rfl, fun _ _ => ?_⟩
      exact ⟨(h yes).1, (h yes).2.2⟩
    · rename_i recorded
      exact Guards.pure ⟨rfl, fun absent => absurd absent recorded⟩
  · rename_i no
    refine Guards.pure ⟨rfl, fun _ yes => ?_⟩
    rw [hp] at yes
    exact absurd (Except.ok.inj yes) no

/-- The body of a mutation begins with the root and the lock file in place. -/
theorem guards_lockForMutation {α : Type} {body : Action V α} {Q : α → Disk V → Prop}
    (h : ∀ t, Scaffold s t → Guards true (I.Effects kind) Q (underLock body) t) :
    Guards true (I.Effects kind) Q (I.lockForMutation body) s := by
  rw [lockForMutation]
  refine Guards.bind (M := fun _ t => Scaffold s t)
    ((guards_ensureRoot).mono (fun _ _ step => ⟨s, step⟩) fun _ _ h => h.1)
    fun _ a ha => ?_
  refine Guards.bind (M := fun _ t => Scaffold a t)
    ((guards_ensureRoot).mono (fun _ _ step => ⟨s, step⟩) fun _ _ h => h.1)
    fun _ b hb => ?_
  refine Guards.bind_reads fun _ _ => ?_
  refine Guards.bind_write fun c hc => ?_
  cases hc
  have made : Scaffold b { b with lock := if b.lock = .absent then .regular else b.lock } := by
    refine ⟨.inl rfl, ?_, .inl rfl, .inl rfl, .inl rfl, rfl, rfl, rfl, rfl⟩
    by_cases absent : b.lock = .absent
    · exact .inr ⟨absent, if_pos absent⟩
    · exact .inl (if_neg absent)
  exact ⟨effects_scaffold made, h _ (ha.trans (hb.trans made))⟩

/-- The outcomes of the section that activates a download. -/
def DownloadOutcome (I : Installation) (v : V) (s : Disk V) (result : ActivationResult V)
    (t : Disk V) : Prop :=
  (result = ⟨v, false⟩ ∧ t = s ∧ I.Confirmed s v) ∨
    (result = ⟨v, true⟩ ∧ ∃ fromVersion id, I.Downloaded s t v fromVersion id)

omit [UrlCrate U] in
theorem guards_activateDownload {inputs : Inputs V U} {metadata : ReleaseMetadata V U}
    {archive : DownloadedArchive} {v : V} :
    Guards true (fun a b => I.Effects .recovery a b ∨ I.Effects (downloadKind inputs v) a b)
      (fun result t => ∃ s', I.SameSelector s s' ∧ DownloadOutcome I v s' result t)
      (I.activateDownload inputs metadata archive v) s := by
  rw [activateDownload]
  refine Guards.bind (guards_recovery.mono (fun _ _ => .inl) fun _ _ h => h) fun _ a recovered => ?_
  refine Guards.bind_unchanged (guards_requireUnforeignCommand.mono (fun _ _ => .inl) fun _ _ h => h)
    fun _ _ => ?_
  refine Guards.mono (guards_lockForMutation fun c scaffold => ?_ : Guards true
      (I.Effects (downloadKind inputs v))
      (fun result t => ∃ s', I.SameSelector s s' ∧ DownloadOutcome I v s' result t) _ _)
    (fun _ _ => .inr) fun _ _ h => h
  have begun : I.SameSelector s c := recovered.trans I (Scaffold.frame I scaffold).selector
  exact Guards.locked (Guards.bind_mark ((guards_activateDownloadLocked rfl).mono
    (fun _ _ step => ⟨c, step⟩) fun _ _ outcome => ⟨c, begun, outcome⟩))

omit [UrlCrate U] in
theorem guards_activateExisting {inputs : Inputs V U} {target : V} :
    Guards true (I.Effects (.existing target))
      (fun result t => result = ⟨target, true⟩ ∧
        ∃ s' active id, I.SameSelector s s' ∧ I.RolledBack s' t target active id)
      (I.activateExisting inputs target) s := by
  refine guards_lockForMutation fun c scaffold => ?_
  exact Guards.locked (Guards.bind_mark ((guards_activateExistingLocked rfl).mono
    (fun _ _ step => ⟨c, step⟩) fun _ _ ⟨result, active, id, done⟩ =>
      ⟨result, c, active, id, (Scaffold.frame I scaffold).selector, done⟩))

theorem changes_recovery {op : Operation V U} {s t : Disk V} (h : I.Effects .recovery s t) :
    I.Changes op s t := ⟨.recovery, .inl rfl, h⟩

/-- What the operations return when they succeed, and what they have then done. -/
theorem guards_installVersion {inputs : Inputs V U} {v : V} :
    Guards true (I.Changes (.installVersion inputs v))
      (fun result t => ∃ s', I.SameSelector s s' ∧ DownloadOutcome I v s' result t)
      (I.installVersion inputs v) s := by
  rw [installVersion]
  refine Guards.bind (guards_recovery.mono (fun _ _ => changes_recovery) fun _ _ h => h)
    fun _ a recovered => ?_
  refine Guards.bind_ofExcept fun metadata _ => ?_
  refine Guards.bind_ofExcept fun archive _ => ?_
  refine guards_activateDownload.mono (fun _ _ step => ?_)
    fun _ _ ⟨s', begun, outcome⟩ => ⟨s', recovered.trans I begun, outcome⟩
  exact step.elim changes_recovery fun step => ⟨_, .inr rfl, step⟩

/-- What an unlocked caller has checked about the version it builds on. -/
structure ManagedCurrent (s : Disk V) (current : V) : Prop where
  read : I.readPointerUnlocked s = .ok (some current)
  recorded : ∃ i state, s.install = .value i ∧ validateInstallState I.platform i = .ok () ∧
    i.active = some current ∧ I.Retained s current state ∧
    i.installationId = state.installationId ∧ I.verifyInstalledLauncher i s = .ok ()

theorem guards_managedCurrent {op : Operation V U} :
    Guards true (I.Changes op) (fun current t => t = s ∧ I.ManagedCurrent s current)
      I.requireManagedCurrent s := by
  refine Guards.mono (guards_requireManagedCurrent : Guards true (I.Effect .recovery s) _ _ _)
    (fun _ _ step => changes_recovery ⟨s, step⟩) ?_
  exact fun current t ⟨same, pointer, recorded⟩ => ⟨same, pointer, recorded⟩

theorem guards_update {inputs : Inputs V U} :
    Guards true (I.Changes (.update inputs))
      (fun result t => (result.changed = false ∧ I.SameSelector s t ∧
          I.ManagedCurrent t result.version) ∨
        ∃ v s', I.SameSelector s s' ∧ DownloadOutcome I v s' result t) (I.update inputs) s := by
  rw [update]
  refine Guards.bind (guards_recovery.mono (fun _ _ => changes_recovery) fun _ _ h => h)
    fun _ a recovered => ?_
  refine Guards.bind_unchanged guards_managedCurrent fun current managed => ?_
  refine Guards.bind_ofExcept fun metadata fetched => ?_
  split
  · exact Guards.throw _
  · split
    · exact Guards.pure (.inl ⟨rfl, recovered, managed⟩)
    · refine Guards.bind_ofExcept fun archive _ => ?_
      refine guards_activateDownload.mono (fun _ _ step => ?_)
        fun _ _ ⟨s', begun, outcome⟩ => .inr ⟨_, s', recovered.trans I begun, outcome⟩
      exact step.elim changes_recovery fun step => ⟨_, .inr ⟨metadata, fetched, rfl⟩, step⟩

theorem guards_rollbackRecovered {inputs : Inputs V U} :
    Guards true (I.Changes (.rollback inputs))
      (fun result t => ∃ target s' active id, result = ⟨target, true⟩ ∧ I.SameSelector s s' ∧
        I.RolledBack s' t target active id) (I.rollbackRecovered inputs) s := by
  rw [rollbackRecovered]
  refine Guards.bind_unchanged guards_managedCurrent fun current managed => ?_
  refine Guards.bind_reads fun install _ => ?_
  refine Guards.bind_ofExcept fun i _ => ?_
  refine Guards.bind_ofExcept fun target _ => ?_
  refine Guards.bind_require fun _ => ?_
  refine guards_activateExisting.mono (fun _ _ step => ⟨_, .inr ⟨target, rfl⟩, step⟩) ?_
  exact fun _ _ ⟨result, s', active, id, begun, done⟩ =>
    ⟨target, s', active, id, result, begun, done⟩

theorem guards_rollback {inputs : Inputs V U} :
    Guards true (I.Changes (.rollback inputs))
      (fun result t => ∃ target s' active id, result = ⟨target, true⟩ ∧ I.SameSelector s s' ∧
        I.RolledBack s' t target active id) (I.rollback inputs) s := by
  rw [rollback]
  refine Guards.bind (guards_recovery.mono (fun _ _ => changes_recovery) fun _ _ h => h)
    fun _ a recovered => guards_rollbackRecovered.mono_post ?_
  exact fun _ _ ⟨target, s', active, id, result, begun, done⟩ =>
    ⟨target, s', active, id, result, recovered.trans I begun, done⟩

theorem guards_rollbackToRecovered {inputs : Inputs V U} {target : V} :
    Guards true (I.Changes (.rollbackTo inputs target))
      (fun result t => ∃ s' active id, result = ⟨target, true⟩ ∧ I.SameSelector s s' ∧
        I.RolledBack s' t target active id) (I.rollbackToRecovered inputs target) s := by
  rw [rollbackToRecovered]
  refine Guards.bind_unchanged guards_managedCurrent fun current managed => ?_
  refine Guards.bind_require fun _ => ?_
  refine guards_activateExisting.mono (fun _ _ step => ⟨_, .inr rfl, step⟩) ?_
  exact fun _ _ ⟨result, s', active, id, begun, done⟩ =>
    ⟨s', active, id, result, begun, done⟩

theorem guards_rollbackTo {inputs : Inputs V U} {target : V} :
    Guards true (I.Changes (.rollbackTo inputs target))
      (fun result t => ∃ s' active id, result = ⟨target, true⟩ ∧ I.SameSelector s s' ∧
        I.RolledBack s' t target active id) (I.rollbackTo inputs target) s := by
  rw [rollbackTo]
  refine Guards.bind (guards_recovery.mono (fun _ _ => changes_recovery) fun _ _ h => h)
    fun _ a recovered => guards_rollbackToRecovered.mono_post ?_
  exact fun _ _ ⟨s', active, id, result, begun, done⟩ =>
    ⟨s', active, id, result, recovered.trans I begun, done⟩

theorem guards_checkLatest {inputs : Inputs V U} :
    Guards true (I.Changes (.checkLatest inputs)) (fun _ _ => True) (I.checkLatest inputs) s := by
  rw [checkLatest]
  refine Guards.bind (guards_recoverIfManaged.mono (fun _ _ => changes_recovery) fun _ _ h => h)
    fun _ a _ => ?_
  refine Guards.bind_ofExcept fun metadata _ => ?_
  refine Guards.bind (M := fun _ _ => True) ?_ fun current b _ => Guards.bind_get (Guards.pure trivial)
  rw [observedPointer]
  apply Guards.bind_get
  split
  · exact Guards.pure trivial
  refine Guards.bind_reads fun _ _ => Guards.bind_reads fun install _ => ?_
  split
  · exact Guards.reads fun _ _ => trivial
  refine Guards.bind_reads fun present _ => ?_
  split
  · exact Guards.reads fun _ _ => trivial
  · exact Guards.pure trivial

/-- Every write of every operation, on any disk and under any faults, is an
effect of a section the operation performs. -/
theorem guards_perform (op : Operation V U) :
    Guards true (I.Changes op) (fun _ _ => True) (I.perform op) s := by
  cases op with
  | installVersion => exact guards_installVersion.bind fun _ _ _ => Guards.pure trivial
  | update => exact guards_update.bind fun _ _ _ => Guards.pure trivial
  | rollback => exact guards_rollback.bind fun _ _ _ => Guards.pure trivial
  | rollbackTo => exact guards_rollbackTo.bind fun _ _ _ => Guards.pure trivial
  | recoverIfManaged =>
    exact (guards_recoverIfManaged.mono (fun _ _ => changes_recovery) fun _ _ _ => trivial).bind
      fun _ _ _ => Guards.pure trivial
  | checkLatest => exact guards_checkLatest.bind fun _ _ _ => Guards.pure trivial

end Guards

end Installation

end Relswap
