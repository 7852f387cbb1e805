import Relswap.Install.Staging

/-!
# Install, update, rollback and the durable activation sequence

Every activation journals its intent, switches the selector, records the new
state and drops the journal, in this order.
-/

namespace Relswap

open Durable
open Durable.Program (get reads write mark locked ofExcept require onlyIf attempt forEach)

/-- Result of an activation. -/
structure ActivationResult (V : Type) where
  version : V
  changed : Bool
  deriving DecidableEq

/-- Result of checking the signed latest metadata. -/
structure CheckResult (V : Type) where
  current : Option V
  latest : V
  managed : Bool
  deriving DecidableEq

namespace Installation

variable {V U : Type} [SemVer V] [Crates V] [UrlCrate U] (I : Installation)

/-! ## The activation sequence -/

/-- The disk with the selector naming a version, however it read before. -/
def select (version : V) (s : Disk V) : Disk V :=
  match I.platform with
  | .unix => { s with command := .symlink (I.payloadPath version) }
  | .windows => { s with active := .file (encodeUtf8 (SemVer.toText version)) }

/-- What replacing the selector atomically demands. -/
def selectorReplaceable (version : V) (s : Disk V) : Except (InstallError V) Unit :=
  match I.platform with
  | .unix => do
    let command := I.text I.commandPath
    check ((I.payloadPath version).isAbsolute .unix = true)
      (.io (.invalidInput "managed selector targets must be absolute"))
    check (∃ p ∈ [true, false], s.commandParent = .directory p)
      (.io (.permissionDenied s!"{command} has no real parent directory"))
    match s.command with
    | .absent | .symlink _ => .ok ()
    | _ => .error (.io (.invalidInput s!"{command} is not an existing selector symlink"))
  | .windows => do
    let active := I.text I.activePath
    check (s.active ≠ .foreign)
      (.io (.permissionDenied s!"refusing to replace indirection {active}"))

def switchPointer (version : V) : Action V Unit := do
  let _ ← reads (I.readVersionMember version I.hostPayloadName)
  write fun s => do
    I.selectorReplaceable version s
    return I.select version s

def removeTransactionAfterRename (id : String) : Action V Unit := do
  let present ← reads fun s => .ok (s.staging.entries.lookup id).isSome
  onlyIf (present = true) (removeTransaction id)

def removeFinished : Option String → Action V Unit
  | some id => removeTransactionAfterRename id
  | none => pure ()

def activatePointerAndState (inputs : Inputs V U) (fromVersion : Option V) (toVersion : V)
    (installationId : String) (priorInstall : Option (InstallState V))
    (transaction : Option String) : Action V (ActivationResult V) := do
  onlyIf (I.app.selfTest.isSome = true) (ofExcept inputs.probe)
  fault .selfTested
  let random ← ofExcept (randomId "transaction" (inputs.randomness .journal))
  I.writePending ⟨stateSchemaVersion, fromVersion, toVersion, transaction.getD random⟩
  fault .pendingWritten
  I.switchPointer toVersion
  fault .pointerSwitched
  let launcher ← I.launcherOwnershipFor toVersion priorInstall
  I.writeInstallState
    ⟨stateSchemaVersion, some toVersion, fromVersion, installationId, launcher⟩
  fault .installWritten
  removePending
  fault .pendingRemoved
  removeFinished transaction
  fault .parentsSynced
  return ⟨toVersion, true⟩

/-! ## Activating a download -/

/-- The id all retained versions share. -/
def commonInstallationId (existing : Option String) :
    List (Sigma fun _ : String => VersionEntry) → Action V (Option String)
  | [] => pure existing
  | ⟨_, .foreign⟩ :: _ => .throw (.invalid "versions contains a non-directory entry")
  | ⟨name, .directory _⟩ :: rest => do
    let retained ← ofExcept (parseCanonicalVersion name)
    let state ← I.verifyFinalVersion (V := V) retained none
    require (existing = none ∨ existing = some state.installationId)
      (.invalid "retained versions belong to different installations")
    commonInstallationId (some state.installationId) rest

def chooseInstallationId (inputs : Inputs V U) (version : V)
    (install : Option (InstallState V)) : Action V String :=
  match install with
  | some install => do
    ofExcept (validateInstallState I.platform install)
    return install.installationId
  | none => do
    let s ← get
    if (s.versionEntry (SemVer.toText version)).isSome then
      let state ← I.verifyFinalVersion version none
      return state.installationId
    else
      match ← I.commonInstallationId none s.versions.entries.entries with
      | some existing => return existing
      | none => ofExcept (randomId "installation" (inputs.randomness .installation))

/-- A retained version may only be reused with byte-identical signed metadata. -/
def requireSameMetadata (version : V) (metadata : ReleaseMetadata V U) : Action V Unit := do
  let manifestBytes ← reads (I.readVersionMember version manifestFile)
  require (manifestBytes = metadata.manifestBytes)
    (.invalid "existing final version has different signed metadata")
  let signatureBytes ← reads (I.readVersionMember version signatureFile)
  require (signatureBytes = metadata.signatureBytes)
    (.invalid "existing final version has different signed metadata")

/-- The launcher a reused version is checked against: the retained one that was
recognized, or else its own. -/
def reusedLauncher (state : VersionState V) (retained : Option LauncherOwnership) :
    Except (InstallError V) (Nat × String) :=
  match retained with
  | some launcher => .ok (launcher.size, launcher.sha256)
  | none => do
    let launcher ← orError state.launcher
      (.invalid "Windows version state lacks launcher metadata")
    return (launcher.size, launcher.sha256)

/-- The launcher check of a reused version without `install.json` on Windows. -/
def requireReusedLauncher (state : VersionState V) (retained : Option LauncherOwnership) :
    Action V Unit := do
  let (size, sha256) ← ofExcept (reusedLauncher state retained)
  let bytes ← reads I.commandFile
  ofExcept (verifyFileDigest bytes size sha256 "installed launcher")

/-- Check a retained version before it is activated by a download. -/
def reuseVersion (version : V) (metadata : ReleaseMetadata V U) (installationId : String)
    (install : Option (InstallState V)) (retained : Option LauncherOwnership) :
    Action V Unit := do
  let state ← I.verifyFinalVersion version (some installationId)
  I.requireSameMetadata version metadata
  match I.platform, install with
  | _, some install => reads (I.verifyInstalledLauncher install)
  | .unix, none => pure ()
  | .windows, none => I.requireReusedLauncher state retained

/-- The state a first activation starts from when a retained version proves the
ownership of the launcher. -/
def priorInstall (installationId : String) (install : Option (InstallState V))
    (retained : Option LauncherOwnership) : Option (InstallState V) :=
  match install, retained with
  | some install, _ => some install
  | none, some launcher =>
    some ⟨stateSchemaVersion, none, none, installationId, some launcher⟩
  | none, none => none

/-- Reuse a retained version, or stage it in a transaction. -/
def obtainVersion (inputs : Inputs V U) (metadata : ReleaseMetadata V U)
    (archive : DownloadedArchive) (installationId : String) (target : Target) (version : V)
    (install : Option (InstallState V)) (retained : Option LauncherOwnership) :
    Action V (Option String) := do
  let existing ← reads fun s => .ok (s.versionEntry (SemVer.toText version)).isSome
  if existing then do
    I.reuseVersion version metadata installationId install retained
    return none
  else do
    let id ← I.stageVersion inputs metadata archive installationId target version
      (install.isSome || retained.isSome)
    return some id

/-- Activate a version that is not the active one. -/
def activateVersion (inputs : Inputs V U) (metadata : ReleaseMetadata V U)
    (archive : DownloadedArchive) (target : Target) (version : V)
    (install : Option (InstallState V)) (fromVersion : Option V)
    (retained : Option LauncherOwnership) : Action V (ActivationResult V) := do
  I.ensurePrivateLayout
  let installationId ← I.chooseInstallationId inputs version install
  let commandExists ← reads I.lexistsCommand
  onlyIf (fromVersion ≠ none ∨ commandExists = false) I.cleanupStaging
  onlyIf (I.platform = .windows ∧ fromVersion = none ∧ install = none) I.cleanupStaging
  I.ensureCommandOwned fromVersion install
  let transaction ← I.obtainVersion inputs metadata archive installationId target version
    install retained
  I.ensureCommandParent
  I.activatePointerAndState inputs fromVersion version installationId
    (priorInstall installationId install retained) transaction

/-- The requested version is already active: confirm it without any change. -/
def confirmActive (active : V) (install : InstallState V) (metadata : ReleaseMetadata V U) :
    Action V (ActivationResult V) := do
  let _ ← I.verifyFinalVersion active (some install.installationId)
  I.requireSameMetadata active metadata
  I.ensureCommandOwned (some active) (some install)
  return ⟨active, false⟩

/-- On Windows, without `install.json`, the retained launcher is looked up. -/
def retainedWithoutInstall (install : Option (InstallState V)) :
    Action V (Option LauncherOwnership) :=
  if I.platform = .windows ∧ install = none then I.retainedLauncherOwnership else pure none

def activateDownloadLocked (inputs : Inputs V U) (metadata : ReleaseMetadata V U)
    (archive : DownloadedArchive) (version : V) : Action V (ActivationResult V) := do
  let target ← ofExcept I.currentTargetOr
  let got := archive.target.asStr
  let want := target.asStr
  require (archive.target = target)
    (.invalid s!"downloaded archive target {got} differs from current target {want}")
  require (metadata.version = version)
    (.invalid "downloaded metadata version differs from requested version")
  let _ ← ofExcept (I.verifyMetadata metadata target inputs.nowChecked)
  let install ← reads I.readInstallState
  ofExcept (I.validateRecorded install)
  let fromVersion ← reads I.readPointerUnlocked
  let retained ← I.retainedWithoutInstall install
  match install, fromVersion with
  | some install, some active =>
    if version ≤ active then
      if version = active then I.confirmActive active install metadata
      else .throw (.downgrade active version)
    else
      I.activateVersion inputs metadata archive target version (some install) (some active)
        retained
  | install, fromVersion =>
    I.activateVersion inputs metadata archive target version install fromVersion retained

/-- A command without `install.json` must be proven ours before anything runs. -/
def requireUnforeignCommand : Action V Unit := do
  let command := I.text I.commandPath
  if ← reads I.lexistsCommand then
    if (← get).install = .absent then
      let proven ← I.provenWithoutInstall none
      require (proven = true)
        (.invalid s!"refusing to replace existing unmanaged command {command}")
    else pure ()
  else pure ()

def activateDownload (inputs : Inputs V U) (metadata : ReleaseMetadata V U)
    (archive : DownloadedArchive) (version : V) : Action V (ActivationResult V) := do
  let _ ← I.recoverIfManaged
  I.requireUnforeignCommand
  I.lockForMutation (I.activateDownloadLocked inputs metadata archive version)

/-! ## Activating a retained version -/

def activateExistingLocked (inputs : Inputs V U) (target : V) :
    Action V (ActivationResult V) := do
  let install ← ofExcept (orError (← reads I.readInstallState) .unmanaged)
  let active ← ofExcept (orError (← reads I.readPointerUnlocked) .unmanaged)
  require (target < active)
    (.invalid "retained activation target must be older than active pointer")
  I.ensureCommandOwned (some active) (some install)
  let _ ← I.verifyFinalVersion target (some install.installationId)
  reads (I.verifyInstalledLauncher install)
  fault .verified
  I.ensureCommandParent
  I.activatePointerAndState inputs (some active) target install.installationId (some install)
    none

def activateExisting (inputs : Inputs V U) (target : V) : Action V (ActivationResult V) :=
  I.lockForMutation (I.activateExistingLocked inputs target)

/-! ## Operations -/

def repositoryUrl : Except (InstallError V) U :=
  (UrlCrate.parse I.app.repositoryUrl).mapError fun error =>
    .invalid s!"invalid release repository URL: {error}"

def fetchExact (inputs : Inputs V U) (version : V) :
    Except (InstallError V) (ReleaseMetadata V U) := do
  let repository : U ← I.repositoryUrl
  (fetchExactMetadata I.app inputs.downloader inputs.nowFetched repository version
    I.trustedKeys).mapError .release

def fetchLatest (inputs : Inputs V U) : Except (InstallError V) (ReleaseMetadata V U) := do
  let repository : U ← I.repositoryUrl
  (fetchLatestMetadata I.app inputs.downloader inputs.nowFetched repository
    I.trustedKeys).mapError .release

def fetchArchive (inputs : Inputs V U) (metadata : ReleaseMetadata V U) :
    Except (InstallError V) DownloadedArchive := do
  let target ← I.currentTargetOr
  (downloadArchive I.app inputs.downloader metadata target).mapError .release

/-- Fetch and install one exact signed release version. -/
def installVersion (inputs : Inputs V U) (version : V) : Action V (ActivationResult V) := do
  let _ ← I.recoverIfManaged
  let metadata ← ofExcept (I.fetchExact inputs version)
  let archive ← ofExcept (I.fetchArchive inputs metadata)
  I.activateDownload inputs metadata archive version

/-- Update a managed installation to the signed latest release. -/
def update (inputs : Inputs V U) : Action V (ActivationResult V) := do
  let _ ← I.recoverIfManaged
  let current ← I.requireManagedCurrent
  let metadata ← ofExcept (I.fetchLatest inputs)
  if metadata.version < current then .throw (.downgrade current metadata.version)
  else if metadata.version = current then return ⟨current, false⟩
  else do
    let archive ← ofExcept (I.fetchArchive inputs metadata)
    I.activateDownload inputs metadata archive metadata.version

/-- What `rollback` does after the leading recovery. -/
def rollbackRecovered (inputs : Inputs V U) : Action V (ActivationResult V) := do
  let current ← I.requireManagedCurrent
  let install ← ofExcept (orError (← reads I.readInstallState) .unmanaged)
  let target ← ofExcept (orError install.previous
    (.invalid "managed installation has no previous version"))
  require (target < current)
    (.invalid "managed installation previous version is not older than active")
  I.activateExisting inputs target

/-- Roll back to `install.json.previous`. -/
def rollback (inputs : Inputs V U) : Action V (ActivationResult V) := do
  let _ ← I.recoverIfManaged
  I.rollbackRecovered inputs

/-- What `rollback_to` does after the leading recovery. -/
def rollbackToRecovered (inputs : Inputs V U) (target : V) : Action V (ActivationResult V) := do
  let current ← I.requireManagedCurrent
  require (target < current)
    (.invalid "rollback target must be older than active version")
  I.activateExisting inputs target

/-- Roll back to a specific retained version. -/
def rollbackTo (inputs : Inputs V U) (target : V) : Action V (ActivationResult V) := do
  let _ ← I.recoverIfManaged
  I.rollbackToRecovered inputs target

/-- The selector, when there is any evidence of an installation. -/
def observedPointer : Action V (Option V) := do
  if (← get).root = .absent then return none
  else do
    reads I.reachRoot
    if (← reads I.readInstallState).isSome then reads I.readPointerUnlocked
    else if ← reads I.pointerPathExists then reads I.readPointerUnlocked
    else return none

/-- Report the signed latest version and the current selector. -/
def checkLatest (inputs : Inputs V U) : Action V (CheckResult V) := do
  let _ ← I.recoverIfManaged
  let metadata ← ofExcept (I.fetchLatest inputs)
  let current ← I.observedPointer
  let recorded := decide ((← get).install ≠ .absent)
  return ⟨current, metadata.version, current.isSome && recorded⟩

end Installation

end Relswap
