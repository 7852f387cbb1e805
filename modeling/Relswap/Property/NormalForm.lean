import Relswap.Proof.Calm
import Relswap.Sample.World

/-!
# The normal form of recovery

On Unix, from any documents, recovery that succeeds with managed state settles
the disk: nothing pending, nothing staged, and `install.json` in agreement with
the selector. The one exception is a journal whose activation never switched the
selector: it is dropped without looking at `install.json`.
-/

namespace Relswap

open Durable Durable.Program Disk

namespace Installation

variable {V : Type} [SemVer V] [Crates V] (I : Installation)

/-- The record in the directory of a version, whether or not it verifies. -/
def RecordOf (s : Disk V) (v : V) (state : VersionState V) : Prop :=
  ∃ dir, s.versionEntry (SemVer.toText v) = some (.directory dir) ∧
    I.readVersionState (I.versionDir v) dir = .ok (some state)

/-- What recovery should leave of `s`: the selector as it was, nothing pending or
staged, documents that agree with the selector, and no more to recover. -/
structure NormalForm (s t : Disk V) : Prop where
  pending : t.pending = .absent
  staging : t.staging.entries = ∅
  selector : I.SameSelector s t
  active : ∃ pointer, I.readPointerUnlocked t = .ok pointer ∧ activeOf t = pointer
  owner : ∀ v, I.readPointerUnlocked t = .ok (some v) →
    ∃ i state, t.install = .value i ∧ I.RecordOf t v state ∧
      i.installationId = state.installationId
  again : I.recoverIfManaged.exec t = (.ok true, t)

/-- Nothing is pending, or the pending switch has been made, or it has not been
made, and the selected version verifies and is described by `install.json`. -/
def Reconciles (s : Disk V) : Prop :=
  s.pending = .absent ∨ ∃ p, s.pending = .value p ∧
    (I.readPointerUnlocked s = .ok (some p.toVersion) ∨
      ∃ v i state, p.fromVersion = some v ∧ I.readPointerUnlocked s = .ok (some v) ∧
        s.install = .value i ∧ i.active = some v ∧ I.Retained s v state ∧
        i.installationId = state.installationId)

variable {I} {s t u : Disk V}

theorem Retained.recordOf {v : V} {state : VersionState V} (h : I.Retained s v state) :
    I.RecordOf s v state := by
  obtain ⟨dir, c, entry, _, complete, _⟩ := h
  exact ⟨dir, entry, I.readVersionState_eq_some.mpr
    ⟨c.record, complete.record_at, complete.record_fits, complete.record⟩⟩

/-- A retained version has one record. -/
theorem RecordOf.unique {v : V} {state state' : VersionState V} (h : I.RecordOf s v state)
    (h' : I.RecordOf s v state') : state = state' := by
  obtain ⟨dir, entry, read⟩ := h
  obtain ⟨dir', entry', read'⟩ := h'
  rw [entry] at entry'
  cases entry'
  rw [read] at read'
  exact Option.some.inj (Except.ok.inj read')

theorem needsRepair_eq_false {v : V} {i : InstallState V} {state : VersionState V}
    (h : I.needsRepair v (some i) state s = false) :
    i.active = some v ∧ i.installationId = state.installationId := by
  simp only [needsRepair, Bool.or_eq_false_iff, decide_eq_false_iff_not, ne_eq, not_not] at h
  exact ⟨h.1.1.1.2, h.1.1.2⟩

theorem needsRepair_unix {v : V} {i : InstallState V} {state : VersionState V}
    (unix : I.platform = .unix) (valid : validateInstallState I.platform i = .ok ())
    (active : i.active = some v) (same : i.installationId = state.installationId)
    (retained : I.Retained s v state) : I.needsRepair v (some i) state t = false := by
  obtain ⟨⟨schema, _⟩, _, _, launcher⟩ := validateInstallState_eq_ok.mp valid
  unfold LauncherValid at launcher
  rw [unix] at launcher
  obtain ⟨dir, c, _, _, complete, _⟩ := retained
  have stateSchema : state.schemaVersion = stateSchemaVersion := by
    have valid := complete.valid
    simp only [validateVersionState, bind_eq_ok, check_eq_ok] at valid
    exact valid.choose_spec.1
  simp [needsRepair, schema, active, same, launcherStateDisagrees, unix, launcher, stateSchema]

/-- A calm disk is in normal form. -/
theorem Calm.normalForm {v : V} {i : InstallState V} {state : VersionState V}
    (h : I.Calm t v i state) (selector : I.SameSelector s t)
    (configured : (I.validateConfiguration : Except (InstallError V) Unit) = .ok ()) :
    I.NormalForm s t := by
  obtain ⟨active, same⟩ := needsRepair_eq_false h.fits
  refine ⟨h.pending, by rw [h.staging]; rfl, selector, ⟨some v, h.pointer, ?_⟩, fun w read => ?_,
    h.recoverIfManaged configured⟩
  · rw [activeOf_value h.install, active]
  · rw [h.pointer] at read
    cases read
    exact ⟨i, state, h.install, h.retained.recordOf, same⟩

/-! ## Outcomes on Unix -/

omit [SemVer V] [Crates V] in
/-- On Unix a sweep leaves everything but the staging directory. -/
theorem Cleaned.unix (h : I.Cleaned s t) (unix : I.platform = .unix) (laid : I.Laid s) :
    t = { s with staging := .directory true ∅ } := by
  have staging := (laid.cleaned h).2
  rw [h.shape, staging]
  rcases h.command with same | ⟨orphan, _⟩
  · rw [same]
  · exact nomatch unix.symm.trans orphan.1

/-- Sweeping a disk whose record describes the selected version makes it calm. -/
theorem Cleaned.calm {v : V} {i : InstallState V} {state : VersionState V} (h : I.Cleaned s t)
    (unix : I.platform = .unix) (laid : I.Laid s) (lock : s.lock = .regular)
    (pending : s.pending = .absent) (pointer : I.readPointerUnlocked s = .ok (some v))
    (install : s.install = .value i) (valid : validateInstallState I.platform i = .ok ())
    (active : i.active = some v) (same : i.installationId = state.installationId)
    (retained : I.Retained s v state) : I.Calm t v i state ∧ I.SameSelector s t := by
  have shape := h.unix unix laid
  have selector : I.SameSelector s t := h.toSwept.core.selector
  have read := (I.readPointerUnlocked_same selector).trans pointer
  subst shape
  exact ⟨⟨⟨laid.root, laid.versions, ⟨∅, rfl⟩, laid.bin⟩, lock, rfl, pending, read, install, valid,
    retained, needsRepair_unix unix valid active same retained⟩, selector⟩

theorem LauncherRecorded.valid {launcher : Option LauncherOwnership}
    (h : I.LauncherRecorded s launcher) (unix : I.platform = .unix) :
    LauncherValid (V := V) I launcher := by
  unfold LauncherRecorded at h
  rw [LauncherValid]
  rw [unix] at h ⊢
  exact h

/-- The outcome is calm if it records the selected version, unless a journal was
dropped. -/
theorem Recovered.calm (unix : I.platform = .unix) (laid : I.Laid u) (lock : u.lock = .regular)
    (valid : ∀ i, u.install = .value i → validateInstallState I.platform i = .ok ())
    (h : I.Recovered u true t)
    (reconciles : ∀ p, u.pending = .value p → I.readPointerUnlocked u ≠ .ok (some p.toVersion) →
      ∃ v i state, I.readPointerUnlocked u = .ok (some v) ∧ u.install = .value i ∧
        i.active = some v ∧ I.Retained u v state ∧ i.installationId = state.installationId) :
    ∃ v i state, I.Calm t v i state ∧ I.SameSelector u t := by
  generalize managed : true = b at h
  cases h with
  | completed p old state launcher journal validP pointer install target same owned cleaned =>
    obtain ⟨dir, c, _, _, complete, _⟩ := id target
    have validR := valid_recorded complete.validId (validatePending_eq_ok.mp validP).2
      (owned.valid unix)
    have selector : I.SameSelector u (settledAs (recorded p.toVersion p.fromVersion
        state.installationId launcher) u) := SameSelector.refl I u
    obtain ⟨calm, moved⟩ := cleaned.calm unix ⟨laid.root, laid.versions, laid.staging, laid.bin⟩
      lock rfl ((I.readPointerUnlocked_same selector).trans pointer) rfl validR rfl rfl target
    exact ⟨_, _, _, calm, selector.trans I moved⟩
  | dropped p old journal validP pointer install cleaned =>
    have apart : I.readPointerUnlocked u ≠ .ok (some p.toVersion) := by
      rw [pointer]
      intro same
      exact (validatePending_eq_ok.mp validP).2 (Except.ok.inj same)
    obtain ⟨v, i, state, read, installIs, active, retained, same⟩ := reconciles p journal apart
    have selector : I.SameSelector u { u with pending := .absent } := SameSelector.refl I u
    obtain ⟨calm, moved⟩ := cleaned.calm unix ⟨laid.root, laid.versions, laid.staging, laid.bin⟩
      lock rfl ((I.readPointerUnlocked_same selector).trans read) installIs (valid i installIs)
      active same retained
    exact ⟨v, i, state, calm, selector.trans I moved⟩
  | agreed v old state journal pointer install target fits cleaned =>
    cases old with
    | none => cases fits
    | some i =>
      obtain ⟨active, same⟩ := needsRepair_eq_false fits
      exact ⟨v, i, state, cleaned.calm unix laid lock journal pointer install (valid i install)
        active same target⟩
  | repaired v old state previous launcher journal pointer install target disagrees kept tried owned
      cleaned =>
    rename_i m
    have moved : I.Laid m ∧ m.lock = u.lock ∧ m.pending = u.pending ∧ I.SameSelector u m ∧
        I.Retained m v state := by
      rcases tried with rfl | ⟨w, _, added⟩
      · exact ⟨laid, rfl, rfl, SameSelector.refl I _, target⟩
      · refine ⟨laid.adds added, ?_, (AddsEmpty.core added).2.1, AddsEmpty.selector added,
          target.adds added⟩
        rw [added.shape]
    obtain ⟨laidM, lockM, pendingM, selectorM, retainedM⟩ := moved
    obtain ⟨dir, c, _, _, complete, _⟩ := id target
    have apart : previous ≠ some v := fun same => (kept v same).1 rfl
    have validR := valid_recorded complete.validId apart (owned.valid unix)
    have selector : I.SameSelector u { m with
        install := .value (recorded v previous state.installationId launcher) } :=
      selectorM.trans I (SameSelector.refl I m)
    obtain ⟨calm, swept⟩ := cleaned.calm unix
      ⟨laidM.root, laidM.versions, laidM.staging, laidM.bin⟩ (lockM.trans lock)
      (pendingM.trans journal) ((I.readPointerUnlocked_same selector).trans pointer) rfl validR rfl
      rfl retainedM
    exact ⟨v, _, state, calm, selector.trans I swept⟩
  | unselected => cases managed

/-! ## When the normal form is reached -/

theorem Reconciles.scaffold (step : Scaffold s u) : I.Reconciles u ↔ I.Reconciles s := by
  have frame := Scaffold.frame I step
  have retained : ∀ v state, I.Retained u v state ↔ I.Retained s v state := fun v state =>
    ⟨fun r => r.of_entry I (frame.versions _).symm, frame.toCore.retained⟩
  simp only [Reconciles, step.pending, step.install, I.readPointerUnlocked_same frame.selector,
    retained]

/-- Recovery reports managed state without a journal only for a selected version. -/
theorem RecoveredFrom.retained (h : I.RecoveredFrom s true t) (absent : s.pending = .absent) :
    ∃ v state, I.readPointerUnlocked s = .ok (some v) ∧ I.Retained s v state := by
  generalize managed : true = b at h
  cases h with
  | unmanaged => cases managed
  | managed scaffold laid configured locked valid outcome =>
    have frame := Scaffold.frame I scaffold
    have read := I.readPointerUnlocked_same frame.selector
    have pending := scaffold.pending.trans absent
    cases outcome with
    | completed p _ _ _ journal => exact nomatch pending.symm.trans journal
    | dropped p _ journal => exact nomatch pending.symm.trans journal
    | agreed v _ state _ pointer _ target =>
      exact ⟨v, state, read.symm.trans pointer, target.of_entry I (frame.versions _).symm⟩
    | repaired v _ state _ _ _ pointer _ target =>
      exact ⟨v, state, read.symm.trans pointer, target.of_entry I (frame.versions _).symm⟩
    | unselected => cases managed

/-- Recovery reaches its normal form from any documents, except exactly when it
drops a journal although the selected version does not verify or `install.json` does
not describe it. -/
theorem recovery_reaches_normal_form_iff (unix : I.platform = .unix)
    (run : I.recoverIfManaged.exec s = (.ok true, t)) : I.NormalForm s t ↔ I.Reconciles s := by
  have outcome : I.RecoveredFrom s true t :=
    Succeeds.guarded run (guards_recoverIfManaged (I := I))
  generalize managed : true = b at outcome
  cases outcome with
  | unmanaged => cases managed
  | managed scaffold laid configured locked valid outcome =>
    rename_i u
    subst managed
    have frame := Scaffold.frame I scaffold
    constructor
    · intro normal
      generalize managed : true = b at outcome
      cases outcome with
      | completed p _ _ _ journal _ pointer =>
        refine (Reconciles.scaffold scaffold).mp (.inr ⟨p, journal, .inl pointer⟩)
      | dropped p old journal _ pointer _ cleaned =>
        refine (Reconciles.scaffold scaffold).mp (.inr ⟨p, journal, .inr ?_⟩)
        have again : I.RecoveredFrom t true t :=
          Succeeds.guarded normal.again (guards_recoverIfManaged (I := I))
        obtain ⟨v, state, read, retained⟩ := again.retained normal.pending
        have core := cleaned.toSwept.core
        have fromIs : p.fromVersion = some v := by
          have same := (I.readPointerUnlocked_same core.selector).symm.trans read
          exact Except.ok.inj (pointer.symm.trans same)
        obtain ⟨i, state', install, record, same⟩ := normal.owner v read
        cases record.unique retained.recordOf
        obtain ⟨w, readW, active⟩ := normal.active
        rw [read] at readW
        cases readW
        rw [activeOf_value install] at active
        exact ⟨v, i, state, fromIs, by rw [pointer, fromIs], core.install.symm.trans install, active,
          retained.of_entry I (core.versions _).symm, same⟩
      | agreed _ _ _ journal =>
        exact .inl (scaffold.pending.symm.trans journal)
      | repaired _ _ _ _ _ journal =>
        exact .inl (scaffold.pending.symm.trans journal)
      | unselected => cases managed
    · intro reconciles
      obtain ⟨v, i, state, calm, selector⟩ := outcome.calm unix laid locked valid fun p hp apart => by
        rcases (Reconciles.scaffold scaffold).mpr reconciles with absent | ⟨q, hq, rest⟩
        · exact nomatch absent.symm.trans hp
        · have same : q = p := Document.value.inj (hq.symm.trans hp)
          subst same
          rcases rest with to_ | ⟨v, i, state, _, rest⟩
          · exact absurd to_ apart
          · exact ⟨v, i, state, rest⟩
      exact calm.normalForm (frame.selector.trans I selector) configured

theorem not_normalForm {v w : V} (pointer : (I.readPointerUnlocked t).toOption = some (some v))
    (active : activeOf t = some w) (apart : v ≠ w) : ¬ I.NormalForm s t := by
  intro normal
  obtain ⟨found, read, same⟩ := normal.active
  rw [read] at pointer
  rw [active] at same
  exact apart (Option.some.inj (same.trans (Option.some.inj pointer))).symm

section Sample

open Sample

/-- A journal that never switched, over an `install.json` that was edited. -/
def stale : Disk Edition :=
  { unixDisk with
    command := .symlink (unixHost.payloadPath firstRelease)
    pending := .value ⟨stateSchemaVersion, some firstRelease, secondRelease, digestOf []⟩ }

theorem recovery_reaches_normal_form_updated :
    unixHost.NormalForm unixDisk (unixHost.recoverIfManaged.exec unixDisk).2 ↔
      unixHost.Reconciles unixDisk :=
  recovery_reaches_normal_form_iff rfl (exec_of_toOption (by decide +kernel))

/-- Recovery drops the journal and leaves `install.json` at another version. -/
theorem recovery_drops_journal_unreconciled :
    ∃ t, unixHost.recoverIfManaged.exec stale = (.ok true, t) ∧
      ¬ unixHost.NormalForm stale t := by
  exact ⟨_, exec_of_toOption (by decide +kernel),
    not_normalForm (v := (0 : Edition)) (w := (1 : Edition)) (by decide +kernel)
      (by decide +kernel) (by decide)⟩

end Sample

end Installation

end Relswap
