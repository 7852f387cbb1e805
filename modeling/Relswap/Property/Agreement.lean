import Relswap.Install.Activation
import Relswap.Install.Launcher
import Relswap.Proof.Selector
import Relswap.Sample.World

/-!
# The Windows selector and its two readers

The manager writes the selector and reads it back, and the launcher reads it on
its own. Both readers stop at 128 bytes, while the writer does not look at the
length, so they agree exactly on the versions whose text is short enough.
-/

namespace Relswap

open Durable Durable.Program Disk

namespace FsPath

variable {fold : String → String} {platform : Platform} {p q : FsPath}

theorem sameComponent_refl (a : Component) : sameComponent fold platform a a = true := by
  cases platform <;> cases a <;> simp [sameComponent]

theorem samePath_append (h : samePath fold platform p q = true) (rest : FsPath) :
    samePath fold platform (p ++ rest) (q ++ rest) = true := by
  induction p generalizing q with
  | nil =>
    cases q with
    | nil =>
      induction rest with
      | nil => rfl
      | cons a rest ih => simpa [samePath, sameComponent_refl] using ih
    | cons b q => cases h
  | cons a p ih =>
    cases q with
    | nil => cases h
    | cons b q =>
      simp only [samePath, Bool.and_eq_true] at h
      simp only [List.cons_append, samePath, Bool.and_eq_true]
      exact ⟨h.1, ih h.2⟩

/-- A path that is the same as one with a last component has one itself. -/
theorem samePath_concat {c : Component} (h : samePath fold platform p (q ++ [c]) = true) :
    ∃ p' a, p = p' ++ [a] ∧ samePath fold platform p' q = true ∧
      sameComponent fold platform a c = true := by
  induction q generalizing p with
  | nil =>
    match p, h with
    | [a], h =>
      simp only [List.nil_append, samePath, Bool.and_true] at h
      exact ⟨[], a, rfl, rfl, h⟩
    | [], h => cases h
    | a :: b :: p, h => simp [samePath] at h
  | cons b q ih =>
    cases p with
    | nil => cases h
    | cons a p =>
      simp only [List.cons_append, samePath, Bool.and_eq_true] at h
      obtain ⟨p', x, rfl, same, last⟩ := ih h.2
      exact ⟨a :: p', x, rfl, by simp [samePath, h.1, same], last⟩

end FsPath

namespace Installation

open Layout

variable {V : Type} [SemVer V] [Crates V] (I : Installation)

/-- Both readers of the selector find the version that was written. -/
def Agree (t : Disk V) (v : V) : Prop :=
  I.readPointerUnlocked t = .ok (some v) ∧ ∃ bytes, t.active = .file bytes ∧
    resolveLauncherV1Payload V I.commandPath bytes I.hostPayloadName = .ok (I.payloadPath v)

/-- The text of a version is as short as the readers demand. -/
def FitsSelector (v : V) : Prop := (encodeUtf8 (SemVer.toText v)).length ≤ 128

/-- The command path is spelled with the letters of the root. -/
def SpelledAlike : Prop := (I.commandPath.parent.bind FsPath.parent) = some I.root

variable {I} {s t : Disk V} {v : V}

omit [Crates V] in
theorem active_of_switch (windows : I.platform = .windows)
    (switched : (I.switchPointer v).exec s = (.ok (), t)) :
    t.active = .file (encodeUtf8 (SemVer.toText v)) := by
  unfold switchPointer at switched
  simp only [exec_bind, exec_reads, exec_write] at switched
  split at switched
  · rename_i found
    split at switched
    · rename_i written
      cases switched
      simp only [bind_eq_ok, pure_eq_ok] at written
      obtain ⟨_, _, rfl⟩ := written
      simp [select, windows]
    · cases switched
  · cases switched

omit [SemVer V] [Crates V] in
/-- What the configuration check of Windows says about the command path. -/
theorem command_inside_bin (windows : I.platform = .windows)
    (configured : (I.validateConfiguration : Except (InstallError V) Unit) = .ok ()) :
    ∃ root name, I.commandPath.parent = some (root ++ [.normal name]) ∧
      FsPath.samePath I.foldCase .windows root I.root = true ∧
      I.foldCase name = I.foldCase "bin" := by
  simp only [validateConfiguration, windows, validateCommandPath, validateWindowsCommand,
    bind_eq_ok, check_eq_ok, orError_eq_ok] at configured
  obtain ⟨_, _, _, _, launcherName, _, _, _, _, _, _, _, parent, above, _, same, _⟩ := configured
  obtain ⟨root, a, rfl, sameRoot, last⟩ := FsPath.samePath_concat same
  cases a with
  | normal name => exact ⟨root, name, above, sameRoot, beq_iff_eq.mp last⟩
  | volume => simp [FsPath.sameComponent] at last
  | rootDir => simp [FsPath.sameComponent] at last
  | curDir => simp [FsPath.sameComponent] at last
  | parentDir => simp [FsPath.sameComponent] at last

theorem parent_concat (root : FsPath) (name : String) :
    FsPath.parent (root ++ [.normal name]) = some root := by simp [FsPath.parent]

theorem fileName_concat (root : FsPath) (name : String) :
    FsPath.fileName (root ++ [.normal name]) = some name := by simp [FsPath.fileName]

omit [Crates V] in
/-- The payload the launcher finds is the payload of the version, up to the
spelling of the root. -/
theorem resolve_eq_ok {root path : FsPath} {name payload : String}
    (above : I.commandPath.parent = some (root ++ [.normal name]))
    (bin : name.toLower = "bin") (safe : isSafeBasename payload true = true) :
    resolveLauncherV1Payload V I.commandPath (encodeUtf8 (SemVer.toText v)) payload = .ok path ↔
      FitsSelector v ∧
        path = root ++ [.normal "versions", .normal (SemVer.toText v), .normal payload] := by
  rw [resolveLauncherV1Payload_eq_ok]
  constructor
  · rintro ⟨parent, root', hparent, _, hroot, w, same, short, _, rfl⟩
    rw [above] at hparent
    cases hparent
    rw [parent_concat] at hroot
    cases hroot
    rw [SemVer.toText_inj.mp (encodeUtf8_injective same)] at short ⊢
    exact ⟨short, by simp [FsPath.join]⟩
  · rintro ⟨short, rfl⟩
    exact ⟨_, root, above, by simp [fileName_concat, bin], parent_concat _ _, v, rfl, short, safe,
      by simp [FsPath.join]⟩

omit [Crates V] in
theorem payloadPath_append (v : V) : I.payloadPath v =
    I.root ++ [.normal "versions", .normal (SemVer.toText v), .normal I.hostPayloadName] := by
  simp [payloadPath, versionDir, versionsDir, FsPath.join]

omit [Crates V] in
/-- The selector of Windows. After a switch both readers find the version exactly
when its text has at most 128 bytes; the launcher then resolves the payload of the
version, in the spelling of its own path. And whatever the launcher resolves lies
in a version directory under its root, with no further components. -/
theorem windows_selector_agreement (windows : I.platform = .windows)
    (configured : (I.validateConfiguration : Except (InstallError V) Unit) = .ok ())
    (folds : ∀ name, I.foldCase name = I.foldCase "bin" → name.toLower = "bin")
    (safe : isSafeBasename I.hostPayloadName true = true)
    (switched : (I.switchPointer v).exec s = (.ok (), t)) :
    (I.Agree t v ↔ FitsSelector v ∧ I.SpelledAlike) ∧
    (FitsSelector v → I.readPointerUnlocked t = .ok (some v) ∧
      ∃ bytes path, t.active = .file bytes ∧
        resolveLauncherV1Payload V I.commandPath bytes I.hostPayloadName = .ok path ∧
        FsPath.samePath I.foldCase .windows path (I.payloadPath v) = true) ∧
    ∀ launcher active payload path, resolveLauncherV1Payload V launcher active payload = .ok path →
      ∃ root, ∃ w : V, launcher.parent.bind FsPath.parent = some root ∧
        active = encodeUtf8 (SemVer.toText w) ∧ PlainName (SemVer.toText w) ∧ PlainName payload ∧
        path = root ++ [.normal "versions", .normal (SemVer.toText w), .normal payload] := by
  have written := active_of_switch windows switched
  obtain ⟨root, name, above, sameRoot, folded⟩ := command_inside_bin windows configured
  have resolves : ∀ path, resolveLauncherV1Payload V I.commandPath
      (encodeUtf8 (SemVer.toText v)) I.hostPayloadName = .ok path ↔ FitsSelector v ∧
        path = root ++ [.normal "versions", .normal (SemVer.toText v), .normal I.hostPayloadName] :=
    fun _ => resolve_eq_ok above (folds name folded) safe
  have reads : I.readPointerUnlocked t = .ok (some v) ↔ FitsSelector v := by
    rw [I.readPointerUnlocked_eq_some]
    simp only [Selects, Readable, windows, written, true_and, FitsSelector]
  have spelled : I.SpelledAlike ↔ root = I.root := by
    simp only [SpelledAlike, above, Option.bind_some, parent_concat, Option.some.injEq]
  refine ⟨⟨?_, ?_⟩, fun fits => ⟨reads.mpr fits, _, _, written, (resolves _).mpr ⟨fits, rfl⟩, ?_⟩, ?_⟩
  · rintro ⟨read, bytes, active, resolved⟩
    cases written.symm.trans active
    obtain ⟨fits, same⟩ := (resolves _).mp resolved
    rw [payloadPath_append] at same
    exact ⟨fits, spelled.mpr (List.append_cancel_right same).symm⟩
  · rintro ⟨fits, alike⟩
    refine ⟨reads.mpr fits, _, written, (resolves _).mpr ⟨fits, ?_⟩⟩
    rw [payloadPath_append, spelled.mp alike]
  · rw [payloadPath_append]
    exact FsPath.samePath_append sameRoot _
  · intro launcher active payload path resolved
    obtain ⟨bin, root', parent, _, above', w, same, _, safe', rfl⟩ :=
      resolveLauncherV1Payload_eq_ok.mp resolved
    exact ⟨root', w, by rw [parent, Option.bind_some, above'], same, plainName_toText w,
      plainName_of_safe safe', by simp [FsPath.join]⟩

omit [Crates V] in
theorem not_agree (windows : I.platform = .windows) (long : ¬ FitsSelector v) : ¬ I.Agree t v := by
  rintro ⟨read, _⟩
  have readable := (I.readPointerUnlocked_eq_some.mp read).2
  simp only [Readable, windows] at readable
  exact long readable

section Sample

open Sample

theorem windows_selector_agreement_updated :
    windowsHost.Agree (windowsHost.switchPointer (1 : Edition) |>.exec windowsDisk).2 1 ↔
      FitsSelector (1 : Edition) ∧ windowsHost.SpelledAlike := by
  have configured : (windowsHost.validateConfiguration : Except (InstallError Edition) Unit) =
      .ok () := by decide +kernel
  have folds : ∀ name, windowsHost.foldCase name = windowsHost.foldCase "bin" →
      name.toLower = "bin" := by
    rintro name rfl
    decide +kernel
  exact (windows_selector_agreement rfl configured folds (by decide +kernel)
    (exec_of_toOption (by decide +kernel))).1

/-- A disk that retains a release whose version has a text of 137 bytes. -/
def longDisk : Disk Edition :=
  { windowsDisk with
    versions := .directory true (folder [(editionText longRelease, versionDirOf windowsTarget longRelease)]) }

/-- Manifest validation accepts that version, and no reader accepts its selector. -/
theorem long_version_disagrees :
    ((manifest windowsTarget 3).validate (Crates.readTime Edition)
        (Sample.app windowsTarget)).toOption =
        some () ∧
      ∃ t, (windowsHost.switchPointer (3 : Edition)).exec longDisk = (.ok (), t) ∧
        ¬ windowsHost.Agree t 3 :=
  ⟨by decide +kernel, _, exec_of_toOption (by decide +kernel), not_agree rfl (by unfold FitsSelector; decide +kernel)⟩

end Sample

end Installation

end Relswap
