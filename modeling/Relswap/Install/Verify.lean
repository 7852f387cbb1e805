import Relswap.Install.Installation

/-!
# Verification of retained versions and of the launcher

A version directory is accepted when its record, its signed metadata and its
payload agree. On Windows the launcher at the command path is tied to a version
or to `install.json` by its digest.
-/

namespace Relswap

open Durable
open Durable.Program (get reads write mark locked ofExcept require onlyIf attempt forEach)

namespace Installation

variable {V : Type} [SemVer V] [Crates V] (I : Installation)

/-! ## Version directories -/

def readVersionState (path : FsPath) (dir : VersionDir) :
    Except (InstallError V) (Option (VersionState V)) :=
  let shown := I.text (path.join versionFile)
  match dir.members.lookup versionFile with
  | none => .ok none
  | some (.file bytes) => do
    check (bytes.length ≤ maxMetadataSize) (.invalid s!"state file is too large: {shown}")
    let state ← (Crates.decodeVersionState bytes).mapError .json
    return some state
  | some _ => .error (.invalid s!"state path is not a regular file: {shown}")

def allowedMembers (target : Target) : List String :=
  [target.payloadName I.app, manifestFile, signatureFile, versionFile]

def checkMembersAllowed (target : Target) : List String → Except (InstallError V) Unit
  | [] => .ok ()
  | name :: rest => do
    check (name ∈ I.allowedMembers target)
      (.invalid s!"unexpected immutable version member: {name}")
    checkMembersAllowed target rest

def checkMembersPresent (dir : VersionDir) : List String → Except (InstallError V) Unit
  | [] => .ok ()
  | name :: rest => do
    check (dir.members.lookup name ≠ none)
      (.invalid s!"missing immutable version member: {name}")
    checkMembersPresent dir rest

/-- A version directory contains exactly the payload, its signed metadata and
the local version state. -/
def validateExactVersionMembers (dir : VersionDir) (target : Target) :
    Except (InstallError V) Unit := do
  I.checkMembersAllowed target dir.members.keys
  checkMembersPresent dir (I.allowedMembers target)

/-- The launcher part of a version's verification. -/
def verifyVersionLauncher (target : Target) (state : VersionState V)
    (selected : SelectedAsset) : Except (InstallError V) Unit :=
  if target.isWindows then do
    let launcher ← orError selected.launcher
      (.invalid "Windows release is missing launcher metadata")
    validateSignedLauncher I.app launcher
    check (state.launcher = some (launcherMetadata launcher))
      (.invalid "version state launcher metadata does not match signed manifest")
  else
    check (state.launcher = none ∧ selected.launcher = none)
      (.invalid "Unix version contains Windows launcher metadata")

/-- The signed metadata of a version directory, checked against its record. -/
def verifySignedMetadata (path : FsPath) (dir : VersionDir) (state : VersionState V)
    (target : Target) : Except (InstallError V) SelectedAsset := do
  let manifestBytes ← readRegularLimited (dir.members.lookup manifestFile) maxMetadataSize
    (I.text (path.join manifestFile))
  let signatureBytes ← readRegularLimited (dir.members.lookup signatureFile) maxMetadataSize
    (I.text (path.join signatureFile))
  let verified ←
    (verifyTrusted V I.app I.trustedKeys manifestBytes signatureBytes).mapError .release
  let manifest : ReleaseManifest V ←
    (ReleaseManifest.fromBytes I.app manifestBytes).mapError .release
  check (manifest.version = state.version)
    (.invalid "version state does not match signed release version")
  let selected ← (manifest.assetFor (Crates.readTime V) I.app target).mapError .release
  check (selected.asset.payload.path = target.payloadPath I.app state.version)
    (.invalid "signed payload path is not canonical")
  check (verified.keyId ≠ "") (.invalid "release signature key id is empty")
  check (state.binarySha256 = selected.asset.payload.sha256 ∧
      state.size = selected.asset.payload.size)
    (.invalid "version state payload digest does not match signed manifest")
  return selected

/-- Everything that is verified inside a private version directory. -/
def verifyVersionFiles (path : FsPath) (dir : VersionDir) (installationId : Option String) :
    Except (InstallError V) (VersionState V) := do
  let state ← orError (← I.readVersionState path dir) (.invalid "version.json is missing")
  validateVersionState I.app state
  check (installationId = none ∨ installationId = some state.installationId)
    (.invalid "version installation id differs from managed installation")
  let target ← I.currentTargetOr
  check (state.target = target)
    (.invalid "version target differs from current host target")
  let selected ← I.verifySignedMetadata path dir state target
  let payloadName := target.payloadName I.app
  let payload ← Member.regular (dir.members.lookup payloadName)
    (I.text (path.join payloadName))
  verifyFileDigest payload state.size state.binarySha256 "payload"
  I.verifyVersionLauncher target state selected
  I.validateExactVersionMembers dir target
  return state

/-- Create the directory of a version when it is missing, or check that it is
private. This is the first step of every verification. -/
def ensureVersionDir (version : V) : Action V Unit :=
  let shown := I.text (I.versionDir version)
  let name := SemVer.toText version
  let empty : VersionEntry := .directory ⟨true, ∅⟩
  write fun s =>
    match s.versions with
    | .absent => .ok { s with versions := .directory true (AList.singleton name empty) }
    | .foreign => .error (.io (.permissionDenied s!"{shown} is not a directory"))
    | .directory isPrivate entries =>
      match entries.lookup name with
      | none => .ok { s with versions := .directory isPrivate (entries.insert name empty) }
      | some (.directory dir) => do
        check (dir.isPrivate = true)
          (.io (.permissionDenied s!"{shown} permissions must not allow group/other access"))
        return s
      | some .foreign => .error (.io (.permissionDenied s!"{shown} is not a directory"))

/-- The verification of a version directory that is already present. -/
def finalVersionState (version : V) (installationId : Option String) (s : Disk V) :
    Except (InstallError V) (VersionState V) :=
  match s.versionEntry (SemVer.toText version) with
  | some (.directory dir) => do
    let state ← I.verifyVersionFiles (I.versionDir version) dir installationId
    check (state.version = version)
      (.invalid "version.json does not match its immutable directory name")
    return state
  | _ => .error (.io .notFound)

def verifyFinalVersion (version : V) (installationId : Option String) :
    Action V (VersionState V) := do
  I.ensureVersionDir version
  reads (I.finalVersionState version installationId)

/-- A file of a retained version, as plain `fs::read` returns it. -/
def readVersionMember (version : V) (name : String) (s : Disk V) :
    Except (InstallError V) Bytes :=
  match s.versionEntry (SemVer.toText version) with
  | some (.directory dir) =>
    Member.regular (dir.members.lookup name) (I.text ((I.versionDir version).join name))
  | _ => .error (.io .notFound)

/-! ## The installed launcher -/

/-- The bytes of the launcher, when it is a regular file. -/
def commandFile (s : Disk V) : Except (InstallError V) Bytes :=
  let shown := I.text I.commandPath
  match s.command with
  | .file bytes => .ok bytes
  | .absent | .unreachable => .error (.io .notFound)
  | .symlink _ | .other => .error (.io (.permissionDenied s!"{shown} is not a regular file"))

/-- Whether a recorded path identifies the file at the command path. -/
def sameRegularFileObject (path : String) (s : Disk V) : Except (InstallError V) Bool := do
  let _ ← I.commandFile s
  return path == I.text I.commandPath || I.aliases path

def verifyInstalledLauncherRecord (launcher : LauncherOwnership) (s : Disk V) :
    Except (InstallError V) Unit := do
  check (launcher.owned = true ∧ launcher.protocol = 1)
    (.invalid "Windows launcher ownership/protocol metadata is invalid")
  let same ← I.sameRegularFileObject launcher.path s
  check (same = true)
    (.invalid "Windows launcher ownership path identifies a different file")
  let bytes ← I.commandFile s
  verifyFileDigest bytes launcher.size launcher.sha256 "installed launcher"

def verifyInstalledLauncher (install : InstallState V) (s : Disk V) :
    Except (InstallError V) Unit :=
  match I.platform with
  | .unix => .ok ()
  | .windows => do
    let launcher ← orError install.launcher
      (.invalid "managed Windows installation lacks launcher ownership")
    I.verifyInstalledLauncherRecord launcher s

/-- The ownership record of a launcher that a version carries. -/
def ownershipOf (launcher : LauncherMetadata) : LauncherOwnership :=
  ⟨true, I.text I.commandPath, launcher.sha256, launcher.size, launcher.protocol⟩

def launcherOwnershipFor (version : V) (prior : Option (InstallState V)) :
    Action V (Option LauncherOwnership) :=
  match I.platform, prior with
  | .unix, _ => pure none
  | .windows, some prior => do
    reads (I.verifyInstalledLauncher prior)
    return prior.launcher
  | .windows, none => do
    let state ← I.verifyFinalVersion version none
    let launcher ← ofExcept (orError state.launcher
      (.invalid "Windows version has no signed launcher metadata"))
    reads (I.verifyInstalledLauncherRecord (I.ownershipOf launcher))
    return some (I.ownershipOf launcher)

/-- Whether the command is the launcher a version records. -/
def launcherMatches (launcher : LauncherMetadata) (s : Disk V) :
    Except (InstallError V) Bool := do
  if ← I.lexistsCommand s then
    let bytes ← I.commandFile s
    return bytes.length == launcher.size && Crates.sha256 V bytes == launcher.sha256
  else return false

/-- Search retained versions for one that carries the installed launcher. -/
def retainedLauncherAmong : List (Sigma fun _ : String => VersionEntry) →
    Action V (Option LauncherOwnership)
  | [] => pure none
  | ⟨_, .foreign⟩ :: rest => retainedLauncherAmong rest
  | ⟨name, .directory _⟩ :: rest => do
    let version ← ofExcept (parseCanonicalVersion name)
    let state ← I.verifyFinalVersion version none
    match state.launcher with
    | none => retainedLauncherAmong rest
    | some launcher => do
      if ← reads (I.launcherMatches launcher) then return some (I.ownershipOf launcher)
      else retainedLauncherAmong rest

def retainedLauncherOwnership : Action V (Option LauncherOwnership) := do
  let s ← get
  I.retainedLauncherAmong s.versions.entries.entries

def proveRetainedLauncherOwnership : Action V Bool := do
  return (← I.retainedLauncherOwnership).isSome

/-! ## Ownership of the command -/

/-- A command with a readable selector: `install.json` must describe exactly
this selector, and the command must be ours. -/
def ensureActiveOwned (active : V) (install : Option (InstallState V)) : Action V Unit :=
  match install with
  | none => .throw (.invalid "existing command has no installation ownership record")
  | some install => do
    require (install.active = some active)
      (.invalid "existing command ownership does not match the active pointer")
    let _ ← I.verifyFinalVersion active (some install.installationId)
    match I.platform with
    | .unix => do
      let s ← get
      match s.command with
      | .symlink pointer =>
        require (pointer.isAbsolute I.platform = true ∧
            FsPath.samePath I.foldCase I.platform pointer (I.payloadPath active) = true)
          (.invalid "existing command symlink is not owned by this installation")
      | _ => .throw (.invalid "managed Unix command is missing its symlink")
    | .windows => reads (I.verifyInstalledLauncher install)

/-- On Windows a retained version may prove the ownership of a command without
`install.json`. -/
def provenWithoutInstall (install : Option (InstallState V)) : Action V Bool :=
  if I.platform = .windows ∧ install = none then I.proveRetainedLauncherOwnership
  else pure false

def ensureCommandOwned (active : Option V) (install : Option (InstallState V)) :
    Action V Unit := do
  let command := I.text I.commandPath
  if ← reads I.lexistsCommand then
    match active with
    | some active => I.ensureActiveOwned active install
    | none => do
      let proven ← I.provenWithoutInstall install
      require (proven = true)
        (.invalid s!"refusing to replace existing unmanaged command {command}")
  else
    require (¬ (I.platform = .windows ∧ active ≠ none ∧ install ≠ none))
      (.invalid "managed Windows launcher is missing and cannot be recreated by an update")

/-- The version an unlocked caller may build on: selector, `install.json` and
the retained directory agree. -/
def requireManagedCurrent : Action V V := do
  let current ← ofExcept (orError (← reads I.readPointerUnlocked) .unmanaged)
  let install ← ofExcept (orError (← reads I.readInstallState) .unmanaged)
  ofExcept (validateInstallState I.platform install)
  require (install.active = some current)
    (.invalid "managed install metadata does not describe the authoritative pointer")
  let _ ← I.verifyFinalVersion current (some install.installationId)
  I.ensureCommandOwned (some current) (some install)
  return current

end Installation

end Relswap
