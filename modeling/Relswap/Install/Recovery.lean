import Relswap.Install.Verify

/-!
# Crash recovery, journal reconciliation and staging cleanup

Recovery runs under the lock. It first reads all documents, then finishes or
drops a pending activation, repairs `install.json` from the selector when they
disagree, and finally empties the staging directory.
-/

namespace Relswap

open Durable
open Durable.Program (get reads write mark locked ofExcept require onlyIf attempt forEach)

namespace Installation

variable {V : Type} [SemVer V] [Crates V] (I : Installation)

/-! ## Documents -/

def fault (point : FaultPoint) : Action V Unit := mark (.fault point)

/-- Replace a document atomically; an indirection in its place is refused. -/
def replaceDocument {α : Type} (old : Document α) (content : α) (path : String) :
    Except (InstallError V) (Document α) :=
  match old with
  | .foreign => .error (.io (.permissionDenied s!"refusing to replace indirection {path}"))
  | _ => .ok (.value content)

def writePending (pending : PendingActivation V) : Action V Unit := do
  ofExcept (validatePending pending)
  write fun s => return { s with
    pending := ← replaceDocument s.pending pending (I.text I.pendingPath) }

def removePending : Action V Unit :=
  write fun s =>
    match s.pending with
    | .foreign => .error (.invalid "pending activation is not a regular file")
    | _ => .ok { s with pending := .absent }

def writeInstallState (state : InstallState V) : Action V Unit := do
  ofExcept (validateInstallState I.platform state)
  write fun s => return { s with
    install := ← replaceDocument s.install state (I.text I.installStatePath) }

/-! ## Staging cleanup -/

/-- Remove a transaction: its files, the version directory it holds, and then
the transaction itself, one entry at a time. -/
def removeTransaction (id : String) : Action V Unit := do
  let s ← get
  match s.transaction id with
  | none => .throw (.io .notFound)
  | some transaction => do
    forEach transaction.files.keys fun name =>
      write fun s => .ok (s.mapTransaction id (Transaction.eraseFile name))
    forEach ((transaction.version.map fun dir => dir.members.keys).getD []) fun name =>
      write fun s => .ok (s.mapTransaction id (Transaction.eraseStaged name))
    write fun s => .ok (s.mapTransaction id Transaction.dropStaged)
    write fun s => .ok { s with staging := s.staging.erase id }

/-- Whether the record of some retained version carries this launcher digest. -/
def retainedLauncherMatchesAmong (expected : String) :
    List (Sigma fun _ : String => VersionEntry) → Except (InstallError V) Bool
  | [] => .ok false
  | ⟨_, .foreign⟩ :: rest => retainedLauncherMatchesAmong expected rest
  | ⟨name, .directory dir⟩ :: rest => do
    match ← I.readVersionState (I.versionsDir.join name) dir with
    | none => retainedLauncherMatchesAmong expected rest
    | some (state : VersionState V) =>
      if (state.launcher.map LauncherMetadata.sha256) = some expected then return true
      else retainedLauncherMatchesAmong expected rest

def retainedLauncherMatches (expected : String) (s : Disk V) : Except (InstallError V) Bool :=
  I.retainedLauncherMatchesAmong expected s.versions.entries.entries

/-- The digest a launcher marker records. -/
def markerDigest (id : String) (marker : Member) : Except (InstallError V) String := do
  let shown := I.text ((I.stagingDir.join id).join launcherCreatedMarker)
  let bytes ← readRegularLimited (some marker) 128 shown
  let expected ← orError (decodeUtf8 bytes) (.invalid "staging launcher marker is not UTF-8")
  check (lowerSha256 expected = true)
    (.invalid "staging launcher marker has an invalid digest")
  return expected

/-- Remove the launcher a transaction created, unless a retained version has the
same launcher. -/
def removeOrphanLauncher (id : String) (marker : Member) : Action V Unit := do
  let expected ← ofExcept (I.markerDigest id marker)
  if ← reads I.lexistsCommand then
    let bytes ← reads I.commandFile
    require (Crates.sha256 V bytes = expected)
      (.invalid "orphaned launcher differs from its transaction marker")
    if ← reads (I.retainedLauncherMatches expected) then pure ()
    else write fun s => .ok { s with command := .absent }
  else pure ()

def cleanupMarker (removeOrphans : Bool) (id : String) (transaction : Transaction) :
    Action V Unit :=
  match removeOrphans, transaction.files.lookup launcherCreatedMarker with
  | true, some marker => I.removeOrphanLauncher id marker
  | _, _ => pure ()

def cleanupEntries (removeOrphans : Bool) : List (Sigma fun _ : String => StagingEntry) →
    Action V Unit
  | [] => pure ()
  | ⟨_, .foreign⟩ :: _ => .throw (.invalid "staging contains a non-directory entry")
  | ⟨id, .transaction transaction⟩ :: rest => do
    I.cleanupMarker removeOrphans id transaction
    removeTransaction id
    cleanupEntries removeOrphans rest

/-- On Windows an orphaned launcher is removed only while both the selector and
`install.json` are absent. -/
def removesOrphans : Action V Bool :=
  if I.platform = .windows then do
    match ← reads I.readPointerUnlocked with
    | some _ => return false
    | none => return (← reads I.readInstallState).isNone
  else pure false

def cleanupStaging : Action V Unit := do
  let s ← get
  match s.staging with
  | .absent => pure ()
  | _ => do
    I.ensureStagingDir
    let removeOrphans ← I.removesOrphans
    let s ← get
    I.cleanupEntries removeOrphans s.staging.entries.entries

/-- Whether some transaction left a launcher marker. -/
def stagingHasLauncherMarker (s : Disk V) : Bool :=
  s.staging.entries.entries.any fun entry =>
    match entry.2 with
    | .transaction transaction => (transaction.files.lookup launcherCreatedMarker).isSome
    | .foreign => false

/-! ## Reconciliation -/

/-- The tail shared by every branch that drops the journal. -/
def finishPending : Action V Unit := do
  removePending
  fault .pendingRemoved
  fault .parentsSynced
  I.cleanupStaging

/-- A recorded installation must be the one the journal's target belongs to. -/
def requirePendingId (install : Option (InstallState V)) (state : VersionState V) :
    Action V Unit :=
  match install with
  | none => pure ()
  | some install => do
    require (install.installationId = state.installationId)
      (.invalid "pending target installation id differs from install.json")
    reads (I.verifyInstalledLauncher install)

/-- The selector already names the journal's target: record it. -/
def completePending (pending : PendingActivation V) (install : Option (InstallState V)) :
    Action V Bool := do
  let state ← I.verifyFinalVersion pending.toVersion (install.map InstallState.installationId)
  I.requirePendingId install state
  let launcher ← I.launcherOwnershipFor pending.toVersion install
  I.writeInstallState
    ⟨stateSchemaVersion, some pending.toVersion, pending.fromVersion, state.installationId,
      launcher⟩
  fault .installWritten
  I.finishPending
  return true

def recoverPending (pending : PendingActivation V) (install : Option (InstallState V))
    (pointer : Option V) : Action V Bool := do
  ofExcept (validatePending pending)
  match pointer with
  | some pointer => do
    if pointer = pending.toVersion then I.completePending pending install
    else if some pointer = pending.fromVersion then do
      I.finishPending
      return install.isSome
    else
      let shown := SemVer.toText pointer
      .throw (.invalid s!"pending activation pointer is neither from nor to: {shown}")
  | none => do
    if pending.fromVersion = none then do
      I.finishPending
      return install.isSome
    else .throw (.invalid "pending activation lost its prior pointer")

/-- Whether a Windows launcher record no longer fits the installed launcher. -/
def launcherStateDisagrees (install : InstallState V) (signed : Option LauncherMetadata)
    (s : Disk V) : Bool :=
  match I.platform, install.launcher with
  | .unix, launcher => launcher.isSome
  | .windows, none => true
  | .windows, some launcher =>
    signed.isNone || !launcher.owned || launcher.protocol ≠ 1 ||
      (I.verifyInstalledLauncherRecord launcher s).toOption.isNone

/-- Whether `install.json` must be rewritten for the selected version. -/
def needsRepair (pointer : V) (install : Option (InstallState V)) (state : VersionState V)
    (s : Disk V) : Bool :=
  match install with
  | none => true
  | some install =>
    install.schemaVersion ≠ stateSchemaVersion || install.active ≠ some pointer ||
      install.installationId ≠ state.installationId ||
      I.launcherStateDisagrees install state.launcher s ||
      state.schemaVersion ≠ stateSchemaVersion

/-- The previous version a repair keeps: another version that still verifies. -/
def retainedPrevious (pointer : V) (install : Option (InstallState V)) (installationId : String) :
    Action V (Option V) :=
  match install.bind InstallState.previous with
  | none => pure none
  | some previous =>
    if previous = pointer then pure none
    else do
      let outcome ← attempt (I.verifyFinalVersion previous (some installationId))
      return if outcome.toOption.isSome then some previous else none

/-- Rewrite `install.json` from the selected version. -/
def repairInstall (pointer : V) (install : Option (InstallState V)) (state : VersionState V) :
    Action V Unit := do
  let previous ← I.retainedPrevious pointer install state.installationId
  let launcher ← I.launcherOwnershipFor pointer install
  I.writeInstallState
    ⟨stateSchemaVersion, some pointer, previous, state.installationId, launcher⟩

/-- Without a journal the selector is authoritative. -/
def reconcileSelected (pointer : V) (install : Option (InstallState V)) : Action V Bool := do
  let state ← I.verifyFinalVersion pointer none
  let s ← get
  onlyIf (I.needsRepair pointer install state s = true) (I.repairInstall pointer install state)
  I.cleanupStaging
  return true

def reconcileUnselected (install : Option (InstallState V)) : Action V Bool := do
  require (install.bind InstallState.active = none)
    (.invalid "install.json claims an active version but the authoritative pointer is missing")
  let s ← get
  onlyIf (I.platform = .windows ∧ stagingHasLauncherMarker s = true) I.cleanupStaging
  return false

/-- Validate `install.json` when it is there. -/
def validateRecorded : Option (InstallState V) → Except (InstallError V) Unit
  | some install => validateInstallState I.platform install
  | none => .ok ()

def recoverLocked : Action V Bool := do
  I.ensurePrivateLayout
  let pending ← reads I.readPending
  let install ← reads I.readInstallState
  ofExcept (I.validateRecorded install)
  let pointer ← reads I.readPointerUnlocked
  match pending, pointer with
  | some pending, pointer => I.recoverPending pending install pointer
  | none, some pointer => I.reconcileSelected pointer install
  | none, none => I.reconcileUnselected install

/-- A command symlink is no evidence of an installation unless it is a canonical
pointer into the root. -/
def pointerIsUnrelated (hasPointer hasInstall hasPending : Bool) : Action V Bool :=
  if I.platform = .unix ∧ hasPointer = true ∧ hasInstall = false ∧ hasPending = false then do
    return (← attempt (reads I.readPointerUnlocked)).toOption.isNone
  else pure false

/-- Recover an interrupted activation if the root already holds managed state. -/
def recoverIfManaged : Action V Bool := do
  ofExcept I.validateConfiguration
  if (← get).root = .absent then return false
  else do
    reads I.reachRoot
    let hasInstall := decide ((← get).install ≠ .absent)
    let hasPending := decide ((← get).pending ≠ .absent)
    let hasPointer ← reads I.pointerPathExists
    let hasMarker := decide (I.platform = .windows) && stagingHasLauncherMarker (← get)
    if !hasInstall && !hasPending && !hasPointer && !hasMarker then return false
    else do
      I.ensureRoot
      if ← I.pointerIsUnrelated hasPointer hasInstall hasPending then return false
      else lockExisting I.recoverLocked

end Installation

end Relswap
