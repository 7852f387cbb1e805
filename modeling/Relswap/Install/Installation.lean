import Relswap.Durable.Program
import Relswap.Install.Disk

/-!
# The installation manager

Configuration, paths, the selector, the lock, and the private directory layout.
An `Installation` is what all managers of one root share, and the `Layout` is
the part of it that decides the paths; what differs from call to call (network, clocks,
randomness, the probe's verdict) is `Inputs`.
-/

namespace Relswap

open Durable
open Durable.Program (get reads write mark locked ofExcept require onlyIf attempt forEach)

/-- The application and the paths that a manager is given. -/
structure Layout where
  platform : Platform
  app : App
  root : FsPath
  commandPath : FsPath
  /-- Case folding of Windows name comparison. -/
  foldCase : String → String

namespace Layout

variable {V : Type} [SemVer V] (L : Layout)

def windows : Bool := L.platform = .windows

def hostPayloadName : String := L.app.payloadName L.windows

def text (path : FsPath) : String := path.display L.platform

def versionsDir : FsPath := L.root.join "versions"
def stagingDir : FsPath := L.root.join ".staging"
def binDir : FsPath := L.root.join "bin"
def installStatePath : FsPath := L.root.join "install.json"
def pendingPath : FsPath := L.root.join "pending-activation.json"
def activePath : FsPath := L.root.join "active"
def lockPath : FsPath := L.root.join ".lock"

def versionDir (version : V) : FsPath := L.versionsDir.join (SemVer.toText version)

def payloadPath (version : V) : FsPath := (L.versionDir version).join L.hostPayloadName

/-- The name checks of the Windows command path. -/
def validateWindowsCommand (launcherName : String) : Except (InstallError V) Unit := do
  check (isSafeBasename launcherName true = true)
    (.invalid "Windows launcher name must be a plain basename")
  let command := L.text L.commandPath
  let bin := L.text L.binDir
  let parent ← orError L.commandPath.parent
    (.invalid s!"managed command has no parent directory: {command}")
  check (FsPath.samePath L.foldCase L.platform parent L.binDir = true)
    (.invalid s!"Windows command path must be directly inside {bin}")
  let commandName ← orError L.commandPath.fileName
    (.invalid "Windows command path has no filename")
  check (isSafeBasename commandName true = true)
    (.invalid "Windows command name must be a plain basename")

def validateReserved : List FsPath → Except (InstallError V) Unit
  | [] => .ok ()
  | reserved :: rest => do
    let shown := L.text reserved
    check (FsPath.pathStartsWith L.foldCase L.platform L.commandPath reserved = false)
      (.invalid s!"managed command path collides with internal path {shown}")
    validateReserved rest

def validateCommandPath (launcherName : Option String) : Except (InstallError V) Unit := do
  check (FsPath.samePath L.foldCase L.platform L.root L.commandPath = false ∧
      FsPath.pathStartsWith L.foldCase L.platform L.root L.commandPath = false)
    (.invalid "managed command path collides with the installation root")
  L.validateReserved
    [L.activePath, L.lockPath, L.stagingDir, L.versionsDir, L.installStatePath, L.pendingPath]
  match launcherName with
  | some launcherName => L.validateWindowsCommand launcherName
  | none => .ok ()

def validateConfiguration : Except (InstallError V) Unit := do
  check (isSafeBasename L.app.name L.windows = true)
    (.invalid "application name must be a plain platform-safe basename")
  match L.platform with
  | .unix => L.validateCommandPath none
  | .windows => do
    check (L.app.launcherProtocol = some 1)
      (.invalid "Windows installations require launcher protocol 1")
    let launcherName ← orError L.app.launcherName
      (.invalid "Windows installations require launcher activation")
    L.validateCommandPath (some launcherName)

end Layout

/-- The shared configuration of one installation on one host. -/
structure Installation extends Layout where
  /-- The release target of the host, if it has one. -/
  currentTarget : Option Target
  trustedKeys : Option (List TrustedKey)
  /-- Other path texts that identify the file at the command path. -/
  aliases : String → Bool
  target_platform : ∀ target, currentTarget = some target →
    (target.isWindows = true ↔ platform = .windows)
  /-- A path with an embedded NUL cannot be opened at all. -/
  command_openable : (commandPath.display platform).toList.contains '\x00' = false

/-- The three places that draw a random identifier. -/
inductive RandomCall where
  | installation
  | staging
  | journal
  deriving DecidableEq, Repr

/-- What one call of an operation observes of the outside world. -/
structure Inputs (V U : Type) where
  downloader : Downloader U
  /-- The clock when metadata is fetched, when activation checks it under the
  lock, and when the staged files are written. -/
  nowFetched : Int
  nowChecked : Int
  nowStaged : Int
  randomness : RandomCall → Except String RandomBytes
  /-- The verdict of the self-test probe, when one is configured. -/
  probe : Except (InstallError V) Unit

/-- Programs of the installation. -/
abbrev Action (V : Type) := Program (Disk V) (InstallError V)

namespace Installation

variable {V : Type} [SemVer V] [Crates V] (I : Installation)

def currentTargetOr : Except (InstallError V) Target :=
  orError I.currentTarget (.invalid "this host has no supported signed release target")

/-! ## Queries -/

/-- Whether anything is at the command path. On Unix a path through a regular
file is an error; on Windows it is simply absent. -/
def lexistsCommand (s : Disk V) : Except (InstallError V) Bool :=
  match s.command with
  | .absent => .ok false
  | .unreachable => if I.platform = .unix then .error (.io .notADirectory) else .ok false
  | _ => .ok true

/-- Lookups below a root that is a regular file fail on Unix. -/
def reachRoot (s : Disk V) : Except (InstallError V) Unit :=
  check (¬ (I.platform = .unix ∧ s.root = .file)) (.io .notADirectory)

def readInstallState (s : Disk V) : Except (InstallError V) (Option (InstallState V)) :=
  s.install.readJson (I.text I.installStatePath)

def readPending (s : Disk V) : Except (InstallError V) (Option (PendingActivation V)) :=
  s.pending.readJson (I.text I.pendingPath)

def parsePointerVersion (pointer : FsPath) : Except (InstallError V) V := do
  let relative ← orError (pointer.stripPrefix I.versionsDir)
    (.invalid "managed command pointer is outside versions directory")
  match relative with
  | .normal version :: .normal payload :: rest => do
    check (rest = [] ∧ payload = I.hostPayloadName)
      (.invalid "managed command pointer has a noncanonical payload")
    parseCanonicalVersion version
  | .normal _ :: _ => .error (.invalid "managed command pointer has no payload")
  | _ => .error (.invalid "managed command pointer has no version")

/-- The Unix selector is the command symlink itself. -/
def readUnixPointer (s : Disk V) : Except (InstallError V) (Option V) :=
  match s.command with
  | .absent => .ok none
  | .unreachable => .error (.io .notADirectory)
  | .file _ | .other =>
    let command := I.text I.commandPath
    .error (.io (.invalidData s!"{command} is not a symbolic link"))
  | .symlink target => do
    check (target.isAbsolute I.platform = true)
      (.invalid "managed command symlink must contain an absolute payload path")
    let version ← I.parsePointerVersion target
    check (FsPath.samePath I.foldCase I.platform target (I.payloadPath version) = true)
      (.invalid "managed command symlink points outside the current installation")
    return some version

/-- The Windows selector is a small text file. -/
def readWindowsPointer (s : Disk V) : Except (InstallError V) (Option V) :=
  let active := I.text I.activePath
  match s.active with
  | .absent => .ok none
  | .foreign => .error (.invalid "active selector is not a regular file")
  | .file bytes => do
    check (bytes.length ≤ 128) (.invalid s!"file is larger than its limit: {active}")
    let raw ← orError (decodeUtf8 bytes) (.invalid "active selector is not UTF-8")
    let version ← parseCanonicalVersion raw
    return some version

def readPointerUnlocked (s : Disk V) : Except (InstallError V) (Option V) :=
  match I.platform with
  | .unix => I.readUnixPointer s
  | .windows => I.readWindowsPointer s

def pointerPathExists (s : Disk V) : Except (InstallError V) Bool :=
  match I.platform, s.command with
  | .unix, .symlink _ => .ok true
  | .unix, .unreachable => .error (.io .notADirectory)
  | .unix, _ => .ok false
  | .windows, _ => .ok (decide (s.active ≠ .absent))

/-! ## Layout and lock -/

def ensureRoot : Action V Unit :=
  write fun s => return { s with root := ← s.root.ensurePrivate (I.text I.root) }

def ensureVersionsDir : Action V Unit :=
  write fun s => return { s with versions := ← s.versions.ensurePrivate (I.text I.versionsDir) }

def ensureStagingDir : Action V Unit :=
  write fun s => return { s with staging := ← s.staging.ensurePrivate (I.text I.stagingDir) }

/-- On Windows the command parent is the private `bin` directory itself. -/
def ensureBinDir : Action V Unit :=
  write fun s => return { s with commandParent := ← s.commandParent.ensurePrivate (I.text I.binDir) }

def ensurePrivateLayout : Action V Unit := do
  I.ensureRoot
  I.ensureVersionsDir
  I.ensureStagingDir
  onlyIf (I.platform = .windows) I.ensureBinDir

def ensureCommandParent : Action V Unit :=
  match I.platform, I.commandPath.parent with
  | _, none =>
    let command := I.text I.commandPath
    .throw (.invalid s!"managed command has no parent directory: {command}")
  | .windows, some _ => I.ensureBinDir
  | .unix, some parent =>
    write fun s => return { s with commandParent := ← s.commandParent.ensureReal (I.text parent) }

/-- The preflight check of the lock file. -/
def checkLockFile (create : Bool) (s : Disk V) : Except (InstallError V) Unit :=
  match s.lock with
  | .foreign => .error (.invalid "managed lock path is not a regular file")
  | .regular => .ok ()
  | .absent => check (create = true) (.io .notFound)

/-- Create the lock file when it is missing. -/
def createLockFile : Action V Unit :=
  write fun s => return { s with lock := if s.lock = .absent then .regular else s.lock }

/-- The body runs while the lock is held, after its first boundary. -/
def underLock {α : Type} (body : Action V α) : Action V α :=
  locked do
    mark (.fault .lockAcquired)
    body

/-- Lock an existing installation for the body. -/
def lockExisting {α : Type} (body : Action V α) : Action V α := do
  reads (checkLockFile false)
  underLock body

/-- Create the root and the lock file when missing, then lock for the body. -/
def lockForMutation {α : Type} (body : Action V α) : Action V α := do
  I.ensureRoot
  I.ensureRoot
  reads (checkLockFile true)
  createLockFile
  underLock body

end Installation

end Relswap
