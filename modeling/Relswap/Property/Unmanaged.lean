import Relswap.Proof.Selector
import Relswap.Sample.World

/-!
# Unmanaged states

On Unix a disk without documents whose command is absent, a file or an unrelated
symlink holds no installation. Recovery and checks report that, unless the command
is a symlink and there is something at the root: recovery then demands a private
root, and a check tries to read the symlink as a selector.
-/

namespace Relswap

open Durable Durable.Program Disk

namespace Installation

variable {V U : Type} [SemVer V] [Crates V] [UrlCrate U] (I : Installation)

/-- Nothing on the disk belongs to an installation. -/
structure Unmanaged (s : Disk V) : Prop where
  install : s.install = .absent
  pending : s.pending = .absent
  root : s.root = .absent ∨ ∃ p, s.root = .directory p
  command : s.command = .absent ∨ (∃ bytes, s.command = .file bytes) ∨
    ∃ target, s.command = .symlink target ∧ ∀ v : V, target ≠ I.payloadPath v

/-- Recovery and a check find the state unmanaged, and change nothing. -/
def ReportsUnmanaged (inputs : Inputs V U) (s : Disk V) : Prop :=
  I.recoverIfManaged.exec s = (.ok false, s) ∧
    ∃ latest, (I.checkLatest inputs).exec s = (.ok ⟨none, latest, false⟩, s)

variable {I} {s : Disk V} {inputs : Inputs V U} {metadata : ReleaseMetadata V U}

omit [Crates V] in
/-- An unrelated symlink does not read as a selector. -/
theorem Unmanaged.unreadable (h : I.Unmanaged s) (unix : I.platform = .unix) {target : FsPath}
    (symlink : s.command = .symlink target) : ∃ e, I.readPointerUnlocked s = .error e := by
  cases read : I.readPointerUnlocked s with
  | error e => exact ⟨e, rfl⟩
  | ok p =>
    exfalso
    cases p with
    | none =>
      have absent := I.readPointerUnlocked_eq_none.mp read
      simp only [Selects, unix, symlink, reduceCtorEq] at absent
    | some v =>
      have selects := (I.readPointerUnlocked_eq_some.mp read).1
      simp only [Selects, unix] at selects
      rcases h.command with absent | ⟨bytes, file⟩ | ⟨target', link, unrelated⟩
      · cases absent.symm.trans selects
      · cases file.symm.trans selects
      · cases link.symm.trans selects
        exact unrelated v rfl

/-- Without a root nothing is looked at. -/
theorem reports_absent_root (configured : (I.validateConfiguration : Except (InstallError V) Unit) =
    .ok ()) (fetched : I.fetchLatest inputs = .ok metadata) (root : s.root = .absent) :
    I.ReportsUnmanaged inputs s := by
  have recovers : I.recoverIfManaged.exec s = (.ok false, s) := by
    simp [recoverIfManaged, configured, root]
  refine ⟨recovers, metadata.version, ?_⟩
  simp [checkLatest, observedPointer, recovers, fetched, root]
  rfl

/-- A command that is no symlink is no evidence of an installation. -/
theorem reports_no_symlink (unix : I.platform = .unix) (h : I.Unmanaged s)
    (configured : (I.validateConfiguration : Except (InstallError V) Unit) = .ok ())
    (fetched : I.fetchLatest inputs = .ok metadata) {p : Bool} (root : s.root = .directory p)
    (plain : ∀ target, s.command ≠ .symlink target) : I.ReportsUnmanaged inputs s := by
  have reach : I.reachRoot s = .ok () := by simp [reachRoot, root, check_pass]
  have noPointer : I.pointerPathExists s = .ok false := by
    rcases h.command with absent | ⟨bytes, file⟩ | ⟨target, link, _⟩
    · simp [pointerPathExists, unix, absent]
    · simp [pointerPathExists, unix, file]
    · exact absurd link (plain target)
  have recovers : I.recoverIfManaged.exec s = (.ok false, s) := by
    simp [recoverIfManaged, configured, root, reach, noPointer, h.install, h.pending, unix]
    rfl
  have unrecorded : I.readInstallState s = .ok none := by simp [readInstallState, h.install]
  refine ⟨recovers, metadata.version, ?_⟩
  simp [checkLatest, observedPointer, recovers, fetched, root, reach, noPointer, unrecorded]
  rfl

/-- A check that finds a root and an unrelated symlink fails. -/
theorem not_reports_symlink (unix : I.platform = .unix) (h : I.Unmanaged s)
    (fetched : I.fetchLatest inputs = .ok metadata) {p : Bool} (root : s.root = .directory p)
    {target : FsPath} (link : s.command = .symlink target) : ¬ I.ReportsUnmanaged inputs s := by
  rintro ⟨recovers, latest, checks⟩
  obtain ⟨e, unreadable⟩ := h.unreadable unix link
  have reach : I.reachRoot s = .ok () := by simp [reachRoot, root, check_pass]
  have pointer : I.pointerPathExists s = .ok true := by simp [pointerPathExists, unix, link]
  have unrecorded : I.readInstallState s = .ok none := by simp [readInstallState, h.install]
  simp [checkLatest, observedPointer, recovers, fetched, root, reach, pointer, unrecorded,
    unreadable] at checks

/-- On Unix an unmanaged state is reported as such exactly when there is nothing at
the root or the command is no symlink. -/
theorem unmanaged_reported_iff (unix : I.platform = .unix)
    (configured : (I.validateConfiguration : Except (InstallError V) Unit) = .ok ())
    (h : I.Unmanaged s) (fetched : I.fetchLatest inputs = .ok metadata) :
    I.ReportsUnmanaged inputs s ↔
      s.root = .absent ∨ ∀ target, s.command ≠ .symlink target := by
  constructor
  · intro reports
    by_contra refuted
    obtain ⟨present, linked⟩ := not_or.mp refuted
    obtain ⟨target, link⟩ := not_forall_not.mp linked
    obtain ⟨p, root⟩ := h.root.resolve_left present
    exact not_reports_symlink unix h fetched root link reports
  · intro quiet
    rcases h.root with absent | ⟨p, root⟩
    · exact reports_absent_root configured fetched absent
    · refine reports_no_symlink unix h configured fetched root (quiet.resolve_left ?_)
      rw [root]
      exact nofun

section Sample

open Sample

/-- A disk with a private, empty root and a user's own symlink as the command. -/
def linkedDisk : Disk Edition :=
  { freshDisk with
    root := .directory true
    command := .symlink [.rootDir, .normal "usr", .normal "bin", .normal "tool"] }

theorem linkedDisk_unmanaged : unixHost.Unmanaged linkedDisk :=
  ⟨rfl, rfl, .inr ⟨true, rfl⟩, .inr (.inr ⟨_, rfl, by decide +kernel⟩)⟩

/-- A root that others may read, with what a cut installation has left in it, beside a
command that is a program of the user. -/
def leftoverDisk : Disk Edition :=
  { freshDisk with
    root := .directory false
    lock := .regular
    versions := .directory true ∅
    staging := .directory true (AList.singleton "left" (.transaction ⟨true, ∅, none⟩))
    commandParent := .directory false
    command := .file (encodeUtf8 "tool") }

theorem unmanaged_reported_leftover :
    unixHost.ReportsUnmanaged (Sample.inputs unixTarget firstRelease signatureBytes)
      leftoverDisk := by
  have fetched : (unixHost.fetchLatest
      (Sample.inputs unixTarget firstRelease signatureBytes)).toOption.isSome = true := by
    decide +kernel
  obtain ⟨metadata, fetched⟩ := ok_of_isSome fetched
  exact (unmanaged_reported_iff rfl (by decide +kernel)
    ⟨rfl, rfl, .inr ⟨false, rfl⟩, .inr (.inl ⟨_, rfl⟩)⟩ fetched).mpr (.inr fun _ => nofun)

/-- A check of that disk fails although the latest metadata is fetched. -/
theorem unrelated_symlink_fails_check :
    unixHost.Unmanaged linkedDisk ∧
    (unixHost.fetchLatest (Sample.inputs unixTarget 0 signatureBytes)).toOption.isSome = true ∧
    ((unixHost.checkLatest (Sample.inputs unixTarget 0 signatureBytes)).exec
      linkedDisk).1.toOption = none :=
  ⟨linkedDisk_unmanaged, by decide +kernel, by decide +kernel⟩

end Sample

end Installation

end Relswap
