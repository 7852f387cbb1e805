import Relswap.Proof.Interleaving
import Relswap.Proof.Selected
import Relswap.Sample.World

/-!
# Rebuilding `install.json`

`install.json` only describes what the selector decides, so deleting it loses
nothing that recovery could not write again. On Windows the record names the
launcher at the command path, and recovery takes it from the selected version,
which need not be the version that the launcher was installed with.
-/

namespace Relswap

open Durable Durable.Program Disk

/-- The disk after `install.json` has been deleted. -/
def Disk.withoutInstall {V : Type} (s : Disk V) : Disk V := { s with install := .absent }

namespace Installation

variable {V U : Type} [SemVer V] [Crates V] [UrlCrate U] (I : Installation)

/-- Selector, launcher and versions are kept, and `install.json` describes the
version with the id of its directory and the installed launcher. -/
structure Rebuilt (s t : Disk V) (v : V) : Prop where
  selector : I.SameSelector s t
  command : t.command = s.command
  versions : t.versions = s.versions
  install : ∃ i state, t.install = .value i ∧ i.active = some v ∧ I.Retained t v state ∧
    i.installationId = state.installationId ∧ I.LauncherRecorded t i.launcher

/-- Recovery without `install.json` succeeds and rebuilds it. -/
def Rebuilds (s : Disk V) (v : V) : Prop :=
  ∃ t, I.recoverIfManaged.exec s.withoutInstall = (.ok true, t) ∧ I.Rebuilt s t v

variable {I} {s t u : Disk V} {v : V} {state : VersionState V}

omit [Crates V] in
theorem Cleaned.selectedFrame (h : I.Cleaned s t) (selects : I.Selects s (some v)) :
    I.Frame s t ∧ t.versions = s.versions := by
  refine ⟨h.toSwept.frame (not_orphanMode I selects), ?_⟩
  rw [h.shape]

/-- What recovery without `install.json` and without a journal has done. -/
theorem Recovered.rebuilt (h : I.Recovered u true t) (scaffold : Scaffold s.withoutInstall u)
    (settled : s.pending = .absent) (retained : I.Retained s v state)
    (selects : I.Selects s (some v)) :
    I.readPointerUnlocked u = .ok (some v) ∧ I.Rebuilt s t v := by
  have pending : u.pending = .absent := scaffold.pending.trans settled
  have install : u.install = .absent := scaffold.install
  have same : I.SameSelector s u := (Scaffold.frame I scaffold).selector
  have selectsU : I.Selects u (some v) := selects.same I same
  have versions : u.versions = s.versions := by
    rcases scaffold.versions with kept | made
    · exact kept
    · obtain ⟨dir, _, entry, _⟩ := retained
      obtain ⟨p, entries, present, _⟩ := versions_of_entry entry
      exact absurd made.1 (by rw [show s.withoutInstall.versions = s.versions from rfl, present]; simp)
  generalize managed : true = b at h
  cases h with
  | completed p old state' launcher journal => rw [pending] at journal; cases journal
  | dropped p old journal => rw [pending] at journal; cases journal
  | agreed w old state' journal pointer recorded target fits =>
    rw [install] at recorded
    cases old with
    | none => simp [needsRepair] at fits
    | some i => cases recorded
  | repaired w old state' previous launcher journal pointer recorded target disagrees kept tried
      owned cleaned =>
    rename_i a
    cases Selects.unique I selectsU (I.selects_of_read pointer)
    have untouched : a = u := by
      rcases tried with same | ⟨x, found, _⟩
      · exact same
      · rw [install] at recorded
        cases old with
        | none => cases found
        | some i => cases recorded
    subst untouched
    obtain ⟨frame, kept⟩ := cleaned.selectedFrame (selectsU.same I (SameSelector.refl I _))
    have command : t.command = a.command := frame.command
    refine ⟨pointer, same.trans I frame.selector, command.trans scaffold.command,
      kept.trans versions, _, state', frame.install, rfl, ?_, rfl, owned.same command⟩
    exact target.of_entry I (frame.versions _)
  | unselected => cases managed

/-- Recovery can write the record when the launcher of the selected version fits. -/
theorem returns_recoverLocked_withoutInstall (h : I.Inv s) (selects : I.Selects s (some v))
    (readable : I.Readable v) (settled : s.pending = .absent) (known : LauncherKnown I s v none) :
    Returns I.recoverLocked s.withoutInstall := by
  obtain ⟨state, retained⟩ := h.selected selects
  have layable : Layable I s.withoutInstall := ⟨h.root, h.versions, h.staging, h.bin⟩
  rw [recoverLocked]
  refine (returns_ensurePrivateLayout layable).bind
    (guards_ensurePrivateLayout : Guards true (I.Effect .recovery s) _ _ _) fun _ a found => ?_
  obtain ⟨scaffold, laid⟩ := found
  have same : I.SameSelector s a := (Scaffold.frame I scaffold).selector
  have read : I.readPointerUnlocked a = .ok (some v) :=
    I.readPointerUnlocked_eq_some.mpr ⟨selects.same I same, readable⟩
  have pending : a.pending = .absent := scaffold.pending.trans settled
  have install : a.install = .absent := scaffold.install
  have retainedA : I.Retained a v state := retained.of_entry I (scaffold.versionEntry _)
  have knownA : LauncherKnown I a v none := by
    intro windows
    obtain ⟨state', carried, retained', carries, valid, verified⟩ := known windows
    refine ⟨state', carried, retained'.of_entry I (scaffold.versionEntry _), carries, valid, ?_⟩
    have command : a.command = s.command := scaffold.command
    rw [verifyInstalledLauncherRecord, sameRegularFileObject, commandFile] at *
    rw [command]
    exact verified
  apply Returns.bind_reads (a := none) (by rw [readPending, pending]; rfl)
  apply Returns.bind_reads (a := none) (by rw [readInstallState, install]; rfl)
  refine Returns.bind_ofExcept (a := ()) rfl (Returns.bind_reads read ?_)
  obtain ⟨launcher, owned, valid⟩ := succeeds_launcherOwnershipFor knownA
  obtain ⟨dir, c, _, _, complete, _⟩ := id retained
  have recordValid : validateInstallState I.platform
      (recorded v none state.installationId launcher) = .ok () :=
    valid_recorded complete.validId (Option.some_ne_none v).symm valid
  have written := succeeds_writeInstallState (s := a) recordValid (by rw [install]; simp)
  have repaired : Succeeds (I.repairInstall v none state) a ()
      { a with install := .value (recorded v none state.installationId launcher) } :=
    Succeeds.pure.bind (owned.bind written)
  have sweepable : I.Sweepable
      { a with install := .value (recorded v none state.installationId launcher) } := by
    refine ⟨h.staging.chain scaffold.staging, ?_, fun _ => ⟨_, read⟩, ⟨some _, rfl⟩, ?_⟩
    · intro id entry found
      apply h.transactions id entry
      rw [← show s.withoutInstall.staging = s.staging from rfl, ← scaffold.stagingEntries]
      exact found
    · intro orphan
      exact absurd orphan (not_orphanMode I (selects.same I same))
  apply Returns.bind_succeeds (retainedA.succeeds I (.inl rfl))
  apply Returns.bind_get
  apply Returns.bind_succeeds
  · exact Succeeds.onlyIf (fun _ => repaired) fun no => absurd rfl no
  · exact (returns_cleanupStaging sweepable).bind_any fun _ _ => Returns.pure true

/-- On Windows, recovery without `install.json` succeeds only past the check of
the selected version's launcher against the command. -/
theorem guards_recoverLocked_carries (windows : I.platform = .windows)
    (install : s.install = .absent) (settled : s.pending = .absent)
    (selects : I.Selects s (some v)) :
    Guards true (fun _ _ => True) (fun _ _ => CarriesInstalled I s v) I.recoverLocked s := by
  rw [recoverLocked]
  refine ((guards_ensurePrivateLayout : Guards true (I.Effect .recovery s) _ _ _).mono
    (fun _ _ _ => trivial) fun _ _ found => found.1).bind fun _ a scaffold => ?_
  have frame := Scaffold.frame I scaffold
  refine Guards.bind_reads fun pending hp => Guards.bind_reads fun old hi => ?_
  have noPending : pending = none := by
    rw [readPending, scaffold.pending, settled] at hp
    exact (Except.ok.inj hp).symm
  have noInstall : old = none := by
    rw [readInstallState, scaffold.install, install] at hi
    exact (Except.ok.inj hi).symm
  subst noPending noInstall
  refine Guards.bind_ofExcept fun _ _ => Guards.bind_reads fun pointer read => ?_
  cases Selects.unique I (I.selects_of_read read) (selects.same I frame.selector)
  refine (I.guards_verifyFinalVersion trivial fun _ _ => trivial).bind fun state b found => ?_
  obtain ⟨rfl, retained, _⟩ := found
  refine Guards.bind_get (Guards.bind (M := fun _ _ => CarriesInstalled I s v) ?_
    fun _ _ carries => Guards.ignore carries)
  refine Guards.onlyIf (fun _ => ?_) fun no => absurd rfl no
  simp only [repairInstall, launcherOwnershipFor]
  simp only [windows]
  refine Guards.bind (M := fun _ t => t = b) (Guards.pure rfl) fun _ c same => ?_
  subst same
  refine Guards.bind (M := fun _ _ => CarriesInstalled I s v) ?_ fun _ _ carries =>
    Guards.ignore carries
  refine (I.guards_verifyFinalVersion trivial fun _ _ => trivial).bind fun state' b found => ?_
  obtain ⟨rfl, retained', _⟩ := found
  refine Guards.bind_ofExcept fun carried carries => Guards.bind_reads fun _ verified => ?_
  obtain ⟨bytes, command, size, digest⟩ := I.verifyInstalledLauncherRecord_eq_ok verified
  refine Guards.pure ⟨state', carried, bytes, ?_, orError_eq_ok.mp carries, ?_, size, digest⟩
  · exact retained'.of_entry I (scaffold.versionEntry _).symm
  · exact scaffold.command.symm.trans command

/-- Deleting `install.json` on a settled disk loses nothing, on Unix always, and
on Windows exactly when the selector can be read back and the installed launcher
is the one that the selected version carries. -/
theorem install_json_rebuilt_iff (h : I.Quiet U s)
    (configured : (I.validateConfiguration : Except (InstallError V) Unit) = .ok ())
    (settled : s.pending = .absent) (selects : I.Selects s (some v)) :
    I.Rebuilds s v ↔ I.platform = .unix ∨ I.Readable v ∧ CarriesInstalled I s v := by
  have inv := h.inv.toInv
  obtain ⟨state, retained⟩ := inv.selected selects
  have anchored : Settled s.withoutInstall := by
    rcases h.inv.anchored with anchored | bare
    · exact ⟨anchored.root, anchored.lock⟩
    · cases Selects.unique I selects bare.selected
  have same : I.SameSelector s s.withoutInstall := by
    rw [SameSelector]
    cases I.platform <;> rfl
  have located : I.Readable v → I.recoverIfManaged.exec s.withoutInstall =
      I.recoverLocked.exec s.withoutInstall := fun readable =>
    exec_recoverIfManaged configured anchored
      (I.readPointerUnlocked_eq_some.mpr ⟨selects.same I same, readable⟩)
  constructor
  · rintro ⟨t, run, rebuilt⟩
    cases hI : I.platform with
    | unix => exact .inl rfl
    | windows =>
      have outcome := Succeeds.guarded run guards_recoverIfManaged
      generalize managed : true = b at outcome
      cases outcome with
      | unmanaged => cases managed
      | managed scaffold laid _ locked valid outcome =>
        subst managed
        have read := (Recovered.rebuilt outcome scaffold settled retained selects).1
        have readable := (I.readPointerUnlocked_eq_some.mp read).2
        have run' := (located readable).symm.trans run
        refine .inr ⟨readable, ?_⟩
        have carries := Succeeds.guarded run'
          (guards_recoverLocked_carries hI rfl settled (selects.same I same))
        exact carries
  · intro condition
    have readable : I.Readable v := by
      rcases condition with unix | found
      · exact (inv.replaceable unix v selects).1
      · exact found.1
    have known : LauncherKnown I s v none := by
      rcases condition with unix | found
      · intro windows
        rw [unix] at windows
        cases windows
      · exact found.2.known configured
    obtain ⟨b, t, run⟩ :=
      returns_recoverLocked_withoutInstall inv selects readable settled known
    obtain ⟨u, scaffold, laid, valid, outcome⟩ := Succeeds.guarded run
      (guards_recoverLocked : Guards true (I.Effect .recovery s) _ _ _)
    have managed : b = true := by
      cases outcome with
      | completed => rfl
      | dropped p old journal =>
        rw [scaffold.pending] at journal
        cases settled.symm.trans journal
      | agreed => rfl
      | repaired => rfl
      | unselected old journal pointer =>
        have none_ := I.selects_of_read pointer
        cases Selects.unique I (selects.same I (Scaffold.frame I scaffold).selector) none_
    subst managed
    exact ⟨t, (located readable).trans run,
      (Recovered.rebuilt outcome scaffold settled retained selects).2⟩

section Sample

open Sample

theorem install_json_rebuilt_updated :
    unixHost.Rebuilds unixDisk 1 ↔
      unixHost.platform = .unix ∨ unixHost.Readable (1 : Edition) ∧
        CarriesInstalled unixHost unixDisk (1 : Edition) :=
  install_json_rebuilt_iff unixDisk_quiet (by decide +kernel) rfl rfl

/-- After an update the launcher is still that of the first release, and
`install.json` cannot be rebuilt. -/
theorem older_launcher_not_rebuilt :
    windowsHost.Quiet Url windowsDisk ∧ windowsDisk.pending = .absent ∧
      windowsHost.Selects windowsDisk (some 1) ∧ ¬ windowsHost.Rebuilds windowsDisk 1 := by
  refine ⟨windowsDisk_quiet, rfl, rfl, ?_⟩
  rintro ⟨t, run, _⟩
  have refused : (windowsHost.recoverIfManaged.exec windowsDisk.withoutInstall).1.toOption =
      none := by decide +kernel
  rw [run] at refused
  cases refused

end Sample

end Installation

end Relswap
