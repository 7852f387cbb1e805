import Relswap.Install.Recovery

/-!
# Staging a downloaded version

A fresh version is written into a private transaction, verified there, and
renamed into the versions directory in one step.
-/

namespace Relswap

open Durable
open Durable.Program (get reads write mark locked ofExcept require onlyIf attempt forEach)

namespace Installation

variable {V U : Type} [SemVer V] [Crates V] (I : Installation)

/-! ## Transactions -/

def transactionDir (id : String) : FsPath := I.stagingDir.join id

/-- The directory of the version a transaction prepares. -/
def stagedDir (id : String) : FsPath := (I.transactionDir id).join "version"

def notPrivate (path : FsPath) : InstallError V :=
  let shown := I.text path
  .io (.permissionDenied s!"{shown} permissions must not allow group/other access")

def notDirectory (path : FsPath) : InstallError V :=
  let shown := I.text path
  .io (.permissionDenied s!"{shown} is not a directory")

def ensureTransactionDir (id : String) : Action V Unit :=
  let fresh : StagingEntry := .transaction ⟨true, ∅, none⟩
  write fun s =>
    match s.staging with
    | .absent => .ok { s with staging := .directory true (AList.singleton id fresh) }
    | .foreign => .error (I.notDirectory I.stagingDir)
    | .directory isPrivate entries =>
      match entries.lookup id with
      | none => .ok { s with staging := .directory isPrivate (entries.insert id fresh) }
      | some (.transaction transaction) => do
        check (transaction.isPrivate = true) (I.notPrivate (I.transactionDir id))
        return s
      | some .foreign => .error (I.notDirectory (I.transactionDir id))

def ensureStagedDir (id : String) : Action V Unit :=
  write fun s => s.updateTransaction id fun transaction =>
    match transaction.version with
    | none => .ok { transaction with version := some ⟨true, ∅⟩ }
    | some dir => do
      check (dir.isPrivate = true) (I.notPrivate (I.stagedDir id))
      return transaction

def createTransaction (inputs : Inputs V U) : Action V String := do
  I.ensurePrivateLayout
  let id ← ofExcept (randomId "transaction" (inputs.randomness .staging))
  I.ensureTransactionDir id
  I.ensureStagedDir id
  fault .stagingCreated
  return id

/-- Write a file of the transaction beside its version directory. -/
def createTransactionFile (id name : String) (bytes : Bytes) : Action V Unit :=
  write fun s => s.updateTransaction id fun transaction =>
    return { transaction with files := ← transaction.files.createNew name bytes }

def replaceTransactionFile (id name : String) (bytes : Bytes) : Action V Unit :=
  write fun s => s.updateTransaction id fun transaction =>
    return { transaction with files := ← transaction.files.replace name bytes }

def replaceStagedFile (id name : String) (bytes : Bytes) : Action V Unit :=
  write fun s => s.updateStaged id fun dir =>
    return { dir with members := ← dir.members.replace name bytes }

def removeStagedFile (id name : String) : Action V Unit :=
  write fun s => s.updateStaged id fun dir =>
    return { dir with members := dir.members.erase name }

def transactionFile (id name : String) (s : Disk V) : Except (InstallError V) Bytes := do
  let transaction ← orError (s.transaction id) (.io .notFound)
  Member.regular (transaction.files.lookup name) (I.text ((I.transactionDir id).join name))

def stagedVersion (id : String) (s : Disk V) : Except (InstallError V) VersionDir := do
  let transaction ← orError (s.transaction id) (.io .notFound)
  orError transaction.version (.io .notFound)

def stagedFile (id name : String) (s : Disk V) : Except (InstallError V) Bytes := do
  let dir ← stagedVersion id s
  Member.regular (dir.members.lookup name) (I.text ((I.stagedDir id).join name))

/-! ## Extraction -/

def writeMember (id name : String) (data : Bytes) : Action V Unit :=
  write fun s =>
    (s.updateStaged id fun dir =>
      return { dir with members := ← dir.members.createNew name data }).mapError fun _ =>
        (.release (.archive s!"could not create extracted member {name}") : InstallError V)

/-- Write the expected members under their fixed names. When the launcher cannot
be written, the payload is removed again. -/
def extractArchiveFile (id archive : String) (asset : ReleaseAsset) : Action V Unit := do
  let bytes ← reads (I.transactionFile id archive)
  require (bytes.length ≤ maxArchiveSize)
    (.release (.archive s!"invalid or oversized release archive: {archive}"))
  let release ← ofExcept ((inspectArchive V I.app bytes asset).mapError .release)
  let target ← ofExcept ((targetFromAsset V I.app asset).mapError .release)
  onlyIf (I.platform = .windows) (I.ensureStagedDir id)
  let payloadName := target.payloadName I.app
  match release.launcher with
  | none => writeMember id payloadName release.payload.data
  | some launcher => do
    let launcherName ← ofExcept (orError (target.launcherName I.app)
      (.release (.archive "app does not configure a launcher")))
    writeMember id payloadName release.payload.data
    match ← attempt (writeMember id launcherName launcher.data) with
    | .ok _ => pure ()
    | .error error => do
      removeStagedFile id payloadName
      .throw error

/-! ## Metadata -/

/-- Check the downloaded metadata again, against the keys and the clock. -/
def verifyMetadata (metadata : ReleaseMetadata V U) (target : Target) (now : Int) :
    Except (InstallError V) SelectedAsset := do
  check (metadata.version = metadata.manifest.version)
    (.invalid "release metadata version does not match its manifest")
  check (SemVer.toText metadata.manifest.version = SemVer.toText metadata.version)
    (.invalid "release metadata version is not canonical")
  let verified ← (verifyTrusted V I.app I.trustedKeys metadata.manifestBytes
    metadata.signatureBytes).mapError .release
  check (verified.keyId = metadata.verifiedSignature.keyId)
    (.invalid "release signature result differs from downloaded metadata")
  let parsed : ReleaseManifest V ←
    (ReleaseManifest.fromBytes I.app metadata.manifestBytes).mapError .release
  (parsed.ensureNotExpired (Crates.readTime V) now).mapError .release
  check (parsed = metadata.manifest)
    (.invalid "downloaded release metadata changed after verification")
  (metadata.manifest.assetFor (Crates.readTime V) I.app target).mapError .release

/-! ## Writing the version -/

def writeVersionState (id : String) (state : VersionState V) : Action V Unit := do
  ofExcept (validateVersionState I.app state)
  replaceStagedFile id versionFile (Crates.encodeVersionState state)

/-- An existing launcher must be provably ours, and is never touched. -/
def requireLauncherOwned (alreadyManaged : Bool) : Action V Unit := do
  require (alreadyManaged = true)
    (.invalid "existing Windows launcher requires a proven managed owner")
  match ← reads I.readInstallState with
  | some install => reads (I.verifyInstalledLauncher install)
  | none => do
    let proven ← I.proveRetainedLauncherOwnership
    require (proven = true)
      (.invalid "existing Windows launcher ownership could not be re-established")

/-- Put the staged launcher at the command path, once. A marker in the
transaction records its digest first. -/
def createLauncher (id launcherName sha256 : String) (alreadyManaged : Bool) :
    Action V Unit := do
  require (alreadyManaged = false)
    (.invalid "managed Windows launcher is missing and cannot be recreated by an update")
  I.ensureCommandParent
  replaceTransactionFile id launcherCreatedMarker (encodeUtf8 sha256)
  let bytes ← reads (I.stagedFile id launcherName)
  write fun s => do
    check (s.command = .absent) (.io .alreadyExists)
    return { s with command := .file bytes }

def installLauncher (id : String) (asset : SelectedAsset) (alreadyManaged : Bool) :
    Action V Unit := do
  let launcher ← ofExcept (orError asset.launcher
    (.invalid "Windows release is missing signed launcher metadata"))
  require (launcher.protocol = 1)
    (.invalid "managed Windows installations require launcher protocol 1")
  let launcherName ← ofExcept (orError I.app.launcherName
    (.invalid "managed Windows installations require a configured launcher name"))
  let bytes ← reads (I.stagedFile id launcherName)
  ofExcept (verifyFileDigest bytes launcher.size launcher.sha256 "launcher")
  let commandExists ← reads I.lexistsCommand
  (if commandExists then I.requireLauncherOwned alreadyManaged
    else I.createLauncher id launcherName launcher.sha256 alreadyManaged)
  removeStagedFile id launcherName

def writeDownloadedVersion (inputs : Inputs V U) (id : String) (metadata : ReleaseMetadata V U)
    (archive : DownloadedArchive) (installationId : String) (target : Target)
    (alreadyManaged : Bool) : Action V Unit := do
  let selected ← ofExcept (I.verifyMetadata metadata target inputs.nowStaged)
  createTransactionFile id selected.asset.archive archive.bytes
  I.extractArchiveFile id selected.asset.archive selected.asset
  replaceStagedFile id manifestFile metadata.manifestBytes
  replaceStagedFile id signatureFile metadata.signatureBytes
  -- the execute bits of the payload are not part of the model
  let _ ← reads (I.stagedFile id (target.payloadName I.app))
  I.writeVersionState id
    ⟨stateSchemaVersion, metadata.version, target, selected.asset.payload.sha256,
      selected.asset.payload.size, installationId, selected.launcher.map launcherMetadata⟩
  onlyIf (I.platform = .windows) (I.installLauncher id selected alreadyManaged)

def verifyStagedVersion (id : String) (version : V) (installationId : String) :
    Action V (VersionState V) := do
  I.ensureStagedDir id
  let dir ← reads (stagedVersion id)
  let state ← ofExcept (I.verifyVersionFiles (I.stagedDir id) dir (some installationId))
  require (state.version = version)
    (.invalid "staged version state differs from transaction version")
  return state

/-- Syncing walks the transaction and refuses links. -/
def syncStagingTransaction (id : String) (s : Disk V) : Except (InstallError V) Unit := do
  let shown := I.text (I.transactionDir id)
  let transaction ← orError (s.transaction id) (.io .notFound)
  let dir ← orError transaction.version (.io .notFound)
  check (∀ entry ∈ dir.members.entries ++ transaction.files.entries, entry.2 ≠ .link)
    (.invalid s!"staging contains a symlink: {shown}")

/-- Move the staged directory to its final name, which must be free. -/
def renameVersion (id : String) (version : V) : Action V Unit :=
  write fun s => do
    let transaction ← orError (s.transaction id) (.io .notFound)
    let dir ← orError transaction.version (.io .notFound)
    check (s.versionEntry (SemVer.toText version) = none) (.io .alreadyExists)
    match s.versions with
    | .directory isPrivate entries =>
      return { s with
        versions := .directory isPrivate
          (entries.insert (SemVer.toText version) (.directory dir))
        staging := s.staging.insert id (.transaction transaction.dropStaged) }
    | _ => .error (.io .notFound)

/-- Stage, verify and publish a version that is not retained yet. -/
def stageVersion (inputs : Inputs V U) (metadata : ReleaseMetadata V U)
    (archive : DownloadedArchive) (installationId : String) (target : Target) (version : V)
    (alreadyManaged : Bool) : Action V String := do
  let id ← I.createTransaction inputs
  I.writeDownloadedVersion inputs id metadata archive installationId target alreadyManaged
  fault .payloadWritten
  let _ ← I.verifyStagedVersion id version installationId
  fault .verified
  reads (I.syncStagingTransaction id)
  fault .stagingSynced
  let shown := I.text (I.versionDir version)
  let appeared ← reads fun s => .ok (s.versionEntry (SemVer.toText version)).isSome
  require (appeared = false)
    (.invalid s!"retained version directory appeared during installation: {shown}")
  renameVersion id version
  fault .versionRenamed
  return id

end Installation

end Relswap
