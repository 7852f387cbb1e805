import Relswap.Durable.Outcome
import Relswap.Fs.Path
import Relswap.Release.Archive

/-!
# Extraction, one file operation at a time

`extract_archive` writes the verified members into an open directory and takes
them out again when a later operation fails. Every file operation may fail; the
directory is what the open handle sees.
-/

namespace Relswap

open Durable
open Durable.Program (get write ofExcept require onlyIf attempt)

/-- The two members an extraction writes. -/
inductive MemberRole where
  | payload
  | launcher
  deriving DecidableEq, Repr

/-- The file operations of one extraction that the system may refuse. -/
inductive FileStep where
  | openDestination
  | create (role : MemberRole)
  | inspect (role : MemberRole)
  | setMode (role : MemberRole)
  | write (role : MemberRole) (chunk : Nat)
  | flush (role : MemberRole)
  | syncFile (role : MemberRole)
  | measure (role : MemberRole)
  | rewind (role : MemberRole)
  | readBack (role : MemberRole) (chunk : Nat)
  | syncDirectory (role : MemberRole)
  | discard (role : MemberRole)
  | remove (role : MemberRole)
  | syncRemoval (role : MemberRole)
  | reopen
  deriving DecidableEq, Repr

/-- An error of the file system with its text. -/
structure FileFailure where
  kind : IoError
  text : String

inductive ExtractError where
  | file (failure : FileFailure)
  | release (error : ReleaseError)

/-- What the file system does during one extraction: which operations fail, how
names are compared, and into which pieces a file is written and read. -/
structure ExtractionHost where
  platform : Platform
  destination : FsPath
  fails : FileStep → Option FileFailure
  /-- Whether the destination path still names the opened directory. -/
  sameDirectory : Bool
  foldCase : String → String
  chunks : Bytes → List Bytes
  ioText : IoError → String
  chunks_flatten : ∀ bytes, (chunks bytes).flatten = bytes

inductive FolderEntry where
  | file (bytes : Bytes)
  | other
  deriving DecidableEq, Repr

/-- The opened directory, and the removals that have failed in it. -/
structure Destination where
  entries : List (String × FolderEntry)
  failedRemovals : List String
  deriving DecidableEq

abbrev Extraction := Program Destination ExtractError

/-- Paths written by an extraction. -/
structure ExtractedPaths where
  payload : FsPath
  launcher : Option FsPath
  deriving DecidableEq

namespace ExtractionHost

variable (H : ExtractionHost)

def releaseText : ReleaseError → String
  | .invalid message => message
  | .trustAnchorNotConfigured => "trust anchor not configured: no trusted release signing key"
  | .io error => s!"release I/O error: {H.ioText error}"
  | .json message => s!"release JSON error: {message}"
  | .download message => s!"release download error: {message}"
  | .archive message => s!"release archive error: {message}"

def errorText : ExtractError → String
  | .file failure => failure.text
  | .release error => H.releaseText error

def ioError (kind : IoError) : ExtractError := .file ⟨kind, H.ioText kind⟩

/-- A file operation without an effect on the directory. -/
def perform (step : FileStep) : Extraction Unit :=
  match H.fails step with
  | some failure => .throw (.file failure)
  | none => .pure ()

/-! ## The open directory -/

def sameName (a b : String) : Bool := H.foldCase a == H.foldCase b

def find (name : String) (entries : List (String × FolderEntry)) : Option (String × FolderEntry) :=
  entries.find? fun entry => H.sameName entry.1 name

/-- Create an empty file under a free name. -/
def createEntry (name : String) (s : Destination) : Except ExtractError Destination :=
  match H.find name s.entries with
  | some _ => .error (H.ioError .alreadyExists)
  | none => .ok { s with entries := s.entries ++ [(name, .file [])] }

def contents (name : String) (s : Destination) : Bytes :=
  match H.find name s.entries with
  | some (_, .file bytes) => bytes
  | _ => []

def appendEntry (name : String) (chunk : Bytes) (s : Destination) :
    Except ExtractError Destination :=
  .ok { s with entries := s.entries.map fun entry =>
    if H.sameName entry.1 name then (entry.1, .file (H.contents name s ++ chunk)) else entry }

def eraseEntry (name : String) (s : Destination) : Except ExtractError Destination :=
  match H.find name s.entries with
  | none => .error (H.ioError .notFound)
  | some (_, .other) => .error (H.ioError (.permissionDenied "not a regular file"))
  | some (_, .file _) =>
    .ok { s with entries := s.entries.filter fun entry => !(H.sameName entry.1 name) }

/-- Note a removal that fails. -/
def removal (name : String) (p : Extraction Unit) : Extraction Unit := do
  match ← attempt p with
  | .ok _ => pure ()
  | .error error => do
    write fun s => .ok { s with failedRemovals := name :: s.failedRemovals }
    .throw error

/-! ## Creating and removing files -/

def writeChunks (role : MemberRole) (name : String) : Nat → List Bytes → Extraction Unit
  | _, [] => pure ()
  | i, chunk :: rest => do
    H.perform (.write role i)
    write (H.appendEntry name chunk)
    writeChunks role name (i + 1) rest

def contentMismatch : ExtractError := .file ⟨.injected, "written file content mismatch"⟩

/-- Compare what is read back, piece by piece, with the expected bytes. -/
def compareChunks (role : MemberRole) (bytes : Bytes) : Nat → Nat → List Bytes → Extraction Unit
  | i, offset, [] => do
    H.perform (.readBack role i)
    require (offset = bytes.length) contentMismatch
  | i, offset, chunk :: rest => do
    H.perform (.readBack role i)
    require ((bytes.drop offset).take chunk.length = chunk) contentMismatch
    compareChunks role bytes (i + 1) (offset + chunk.length) rest

def verifyNewFileContents (role : MemberRole) (name : String) (bytes : Bytes) :
    Extraction Unit := do
  H.writeChunks role name 0 (H.chunks bytes)
  H.perform (.flush role)
  H.perform (.syncFile role)
  H.perform (.measure role)
  let s ← get
  require ((H.contents name s).length = bytes.length)
    (.file ⟨.injected, "written file size mismatch"⟩)
  H.perform (.rewind role)
  H.compareChunks role bytes 0 0 (H.chunks (H.contents name s))

/-- The cleanup of a file that was created but not completed. -/
def discard (role : MemberRole) (name : String) : Extraction Unit :=
  removal name do
    H.perform (.discard role)
    write (H.eraseEntry name)

/-- A new file is created for this call alone, so it is regular with one link. -/
def createNewFileAtUnix (role : MemberRole) (name : String) (bytes : Bytes) :
    Extraction Unit := do
  H.perform (.create role)
  write (H.createEntry name)
  let result ← attempt do
    H.perform (.inspect role)
    H.perform (.setMode role)
    H.verifyNewFileContents role name bytes
    H.perform (.syncDirectory role)
  match result with
  | .ok _ => pure ()
  | .error error => do
    -- the outcome of the removal is ignored
    let _ ← attempt (H.discard role name)
    .throw error

/-- `create_file` inspects the new file before the caller can remove it. -/
def createNewFileAtWindows (role : MemberRole) (name : String) (bytes : Bytes) :
    Extraction Unit := do
  H.perform (.create role)
  write (H.createEntry name)
  H.perform (.inspect role)
  match ← attempt (H.verifyNewFileContents role name bytes) with
  | .ok _ => pure ()
  | .error error => do
    match ← attempt (H.discard role name) with
    | .ok _ => .throw error
    | .error cleanup =>
      let texts := H.errorText error ++ "; cleanup failed: " ++ H.errorText cleanup
      .throw (.file ⟨.injected, texts⟩)

def createNewFile (role : MemberRole) (name : String) (bytes : Bytes) : Extraction Unit := do
  require (isSafeBasename name (H.platform = .windows) = true)
    (.file ⟨.invalidInput "output filename must be a plain basename",
      "output filename must be a plain basename"⟩)
  match H.platform with
  | .unix => H.createNewFileAtUnix role name bytes
  | .windows => H.createNewFileAtWindows role name bytes

def removeFile (role : MemberRole) (name : String) : Extraction Unit :=
  removal name do
    require (isSafeBasename name (H.platform = .windows) = true)
      (.file ⟨.invalidInput "output filename must be a plain basename",
        "output filename must be a plain basename"⟩)
    H.perform (.remove role)
    write (H.eraseEntry name)
    onlyIf (H.platform = .unix) (H.perform (.syncRemoval role))

/-! ## Extraction -/

def writeMember (role : MemberRole) (member : VerifiedMember) (name : String) :
    Extraction FsPath := do
  match ← attempt (H.createNewFile role name member.data) with
  | .ok _ => return H.destination.join name
  | .error error =>
    let text := H.errorText error
    .throw (.release (.archive s!"could not create extracted member {name}: {text}"))

/-- Remove one written member, collecting the text of a failure. -/
def cleanup (role : MemberRole) (name : String) : Extraction (List String) := do
  match ← attempt (H.removeFile role name) with
  | .ok _ => return []
  | .error error =>
    let label := if role = .launcher then "launcher" else "payload"
    return [label ++ " cleanup failed: " ++ H.errorText error]

/-- The launcher is written last; when that fails the payload is removed. -/
def writeLauncher (payloadName : String) (launcher : Option (VerifiedMember × String)) :
    Extraction (Option FsPath) := do
  match launcher with
  | none => return none
  | some (member, name) =>
    match ← attempt (H.writeMember .launcher member name) with
    | .ok path => return some path
    | .error error => do
      match ← attempt (H.removeFile .payload payloadName) with
      | .ok _ => .throw error
      | .error failure =>
        .throw (.release (.archive
          (H.errorText error ++ "; payload rollback failed: " ++ H.errorText failure)))

/-- Remove both members and fail with the reason and the texts of failed removals. -/
def takeBack (payloadName : String) (launcherName : Option String) (reason : String) :
    Extraction Unit := do
  let launcherErrors ← match launcherName with
    | some name => H.cleanup .launcher name
    | none => pure []
  let payloadErrors ← H.cleanup .payload payloadName
  let errors := launcherErrors ++ payloadErrors
  .throw (.release (.archive
    (if errors = [] then reason else reason ++ "; " ++ "; ".intercalate errors)))

/-- Check that the destination path still names the opened directory. -/
def revalidate (payloadName : String) (launcherName : Option String) : Extraction Unit :=
  match H.fails .reopen with
  | some failure => H.takeBack payloadName launcherName
      ("could not revalidate extraction destination: " ++ failure.text)
  | none =>
    if H.sameDirectory then pure ()
    else H.takeBack payloadName launcherName
      "extraction destination pathname changed during extraction"

/-- Everything after the names are known. -/
def writeMembers (payload : VerifiedMember) (payloadName : String)
    (launcher : Option (VerifiedMember × String)) : Extraction ExtractedPaths := do
  let payloadPath ← H.writeMember .payload payload payloadName
  let launcherPath ← H.writeLauncher payloadName launcher
  H.revalidate payloadName (launcher.map (·.2))
  return ⟨payloadPath, launcherPath⟩

def openDestination : Extraction Unit := do
  match ← attempt (H.perform .openDestination) with
  | .ok _ => pure ()
  | .error error =>
    let text := H.errorText error
    .throw (.release (.archive s!"could not open extraction destination: {text}"))

/-- The launcher member with the name the application configures for it. -/
def namedLauncher (app : App) (target : Target) :
    Option VerifiedMember → Except ReleaseError (Option (VerifiedMember × String))
  | none => .ok none
  | some member => do
    let name ← orError (target.launcherName app) (.archive "app does not configure a launcher")
    return some (member, name)

variable {V : Type} [SemVer V] [Crates V]

variable (V) in
def extractArchive (app : App) (bytes : Bytes) (asset : ReleaseAsset) :
    Extraction ExtractedPaths := do
  let release ← ofExcept ((inspectArchive V app bytes asset).mapError .release)
  let target ← ofExcept ((targetFromAsset V app asset).mapError .release)
  H.openDestination
  let launcher ← ofExcept ((namedLauncher app target release.launcher).mapError .release)
  H.writeMembers release.payload (target.payloadName app) launcher

end ExtractionHost

end Relswap
