import Relswap.Durable.Outcome
import Relswap.Release.Target

/-!
# File primitives

The primitives put a file, a directory or a selector symlink in place. Each is a
sequence of file-system operations; every operation may fail without an effect,
and a crash may come between any two. A file that was written but not synced is
marked as such. Renames are atomic.

A path is a directory and a name in it. Names are the bytes of the platform.
-/

namespace Relswap

open Durable
open Durable.Program (get write require attempt mark onlyIf forEach)

abbrev OsName := Bytes

structure EntryPath where
  parent : Nat
  name : OsName
  deriving DecidableEq, Repr

/-- What an entry is. A directory stands for its own contents. -/
inductive FsNode where
  | file (bytes : Bytes) (synced : Bool)
  | symlink (target : Bytes)
  | directory (id : Nat)
  deriving DecidableEq, Repr

/-- What the path of a directory shows without following a link. -/
inductive ParentStatus where
  | real
  | indirect
  | missing
  deriving DecidableEq, Repr

/-- The directories, and the temporary-name counter of the process. -/
structure Folders where
  entries : EntryPath → Option FsNode
  parents : Nat → ParentStatus
  counter : UInt64

/-- What is fixed during one call: the process, the pieces a file is written in,
and whether the removal of a temporary file is refused. -/
structure FileHost where
  platform : Platform
  pid : Nat
  chunks : Bytes → List Bytes
  chunks_flatten : ∀ bytes, (chunks bytes).flatten = bytes
  removes : Bool
  display : EntryPath → String
  displayParent : Nat → String

abbrev FileProgram := Program Folders IoError

namespace Folders

def set (s : Folders) (path : EntryPath) (node : Option FsNode) : Folders :=
  { s with entries := Function.update s.entries path node }

def setCounter (s : Folders) (counter : UInt64) : Folders := { s with counter := counter }

@[simp] theorem set_entries (s : Folders) (path : EntryPath) (node : Option FsNode) :
    (s.set path node).entries = Function.update s.entries path node := rfl

@[simp] theorem set_parents (s : Folders) (path : EntryPath) (node : Option FsNode) :
    (s.set path node).parents = s.parents := rfl

@[simp] theorem set_counter (s : Folders) (path : EntryPath) (node : Option FsNode) :
    (s.set path node).counter = s.counter := rfl

@[simp] theorem setCounter_entries (s : Folders) (counter : UInt64) :
    (s.setCounter counter).entries = s.entries := rfl

@[simp] theorem setCounter_parents (s : Folders) (counter : UInt64) :
    (s.setCounter counter).parents = s.parents := rfl

@[simp] theorem setCounter_counter (s : Folders) (counter : UInt64) :
    (s.setCounter counter).counter = counter := rfl

/-! ## Effects of single operations -/

/-- Create an empty file where nothing is. -/
def createNew (path : EntryPath) (s : Folders) : Except IoError Folders :=
  match s.entries path with
  | some _ => .error .alreadyExists
  | none => .ok (s.set path (some (.file [] false)))

def createSymlink (path : EntryPath) (target : Bytes) (s : Folders) : Except IoError Folders :=
  match s.entries path with
  | some _ => .error .alreadyExists
  | none => .ok (s.set path (some (.symlink target)))

def append (path : EntryPath) (chunk : Bytes) (s : Folders) : Except IoError Folders :=
  match s.entries path with
  | some (.file bytes _) => .ok (s.set path (some (.file (bytes ++ chunk) false)))
  | _ => .error .notFound

def sync (path : EntryPath) (s : Folders) : Except IoError Folders :=
  match s.entries path with
  | some (.file bytes _) => .ok (s.set path (some (.file bytes true)))
  | _ => .error .notFound

def move (source destination : EntryPath) (node : FsNode) (s : Folders) : Folders :=
  (s.set source none).set destination (some node)

/-- An atomic rename that replaces a file or a link. -/
def rename (source destination : EntryPath) (s : Folders) : Except IoError Folders :=
  match s.entries source, s.entries destination with
  | none, _ => .error .notFound
  | some _, some (.directory _) => .error (.permissionDenied "is a directory")
  | some (.directory _), some _ => .error .notADirectory
  | some node, _ => .ok (s.move source destination node)

/-- An atomic rename that replaces nothing. -/
def renameNoReplace (source destination : EntryPath) (s : Folders) : Except IoError Folders :=
  match s.entries source, s.entries destination with
  | none, _ => .error .notFound
  | some _, some _ => .error .alreadyExists
  | some node, none => .ok (s.move source destination node)

def remove (path : EntryPath) (s : Folders) : Except IoError Folders :=
  match s.entries path with
  | none => .error .notFound
  | some (.directory _) => .error (.permissionDenied "is a directory")
  | some _ => .ok (s.set path none)

end Folders

namespace FileHost

variable (H : FileHost)

/-- An operation that may fail, and otherwise has the given effect. -/
def operate (effect : Folders → Except IoError Folders) : FileProgram Unit := do
  mark .injected
  write effect

/-- Read what an entry is, without following a link. -/
def symlinkMetadata (path : EntryPath) : FileProgram (Option FsNode) := do
  mark .injected
  let s ← get
  return s.entries path

def ensureDirectory (parent : Nat) : FileProgram Unit := do
  mark .injected
  let s ← get
  match s.parents parent with
  | .real => pure ()
  | .indirect => .throw (.permissionDenied s!"{H.displayParent parent} is not a real directory")
  | .missing => .throw .notFound

/-- Reparse points of Windows count as symlinks here. -/
def rejectReparse (path : EntryPath) : FileProgram Unit := do
  match ← symlinkMetadata path with
  | some (.symlink _) =>
    .throw (.permissionDenied s!"refusing to replace indirection {H.display path}")
  | _ => pure ()

/-- Directories are synced on Unix only. -/
def syncDir : FileProgram Unit := onlyIf (H.platform = .unix) (mark .injected)

/-! ## Temporary files -/

def temporaryText (name : OsName) (kind : String) (pid counter : Nat) : String :=
  let stem := (decodeUtf8 name).getD "file"
  s!".{stem}.{kind}.{pid}.{counter}.tmp"

def temporaryName (name : OsName) (kind : String) (pid counter : Nat) : OsName :=
  encodeUtf8 (temporaryText name kind pid counter)

/-- The temporary path that a counter gives beside a path. -/
def temporaryBeside (path : EntryPath) (kind : String) (counter : UInt64) : EntryPath :=
  ⟨path.parent, temporaryName path.name kind H.pid counter.toNat⟩

def temporaryPath (path : EntryPath) (kind : String) : FileProgram EntryPath := do
  let s ← get
  write fun t => .ok (t.setCounter (s.counter + 1))
  return H.temporaryBeside path kind s.counter

/-- The remaining attempts at a free temporary name. -/
def createTemporaryLoop (path : EntryPath) : Nat → FileProgram EntryPath
  | 0 => .throw .alreadyExists
  | tries + 1 => do
    let temporary ← H.temporaryPath path "file"
    match ← attempt (operate (Folders.createNew temporary)) with
    | .ok () => return temporary
    | .error .alreadyExists => createTemporaryLoop path tries
    | .error error => .throw error

def createTemporaryFile (path : EntryPath) : FileProgram EntryPath :=
  H.createTemporaryLoop path 32

def writeAll (temporary : EntryPath) (bytes : Bytes) : FileProgram Unit :=
  forEach (H.chunks bytes) fun chunk => operate (Folders.append temporary chunk)

def removeFile (path : EntryPath) : FileProgram Unit := do
  require (H.removes = true) .injected
  write (Folders.remove path)

/-- The end of a call: after an error the temporary entry is removed, and the
outcome of the removal is ignored. -/
def settle (temporary : EntryPath) (result : Except IoError Unit) : FileProgram Unit :=
  match result with
  | .ok () => pure ()
  | .error error => do
    let _ ← attempt (H.removeFile temporary)
    .throw error

/-! ## The primitives -/

def replaceExisting (source destination : EntryPath) : FileProgram Unit :=
  operate (Folders.rename source destination)

/-- Replace a regular file by a synced temporary file beside it. -/
def atomicReplaceFile (path : EntryPath) (bytes : Bytes) : FileProgram Unit := do
  H.ensureDirectory path.parent
  H.rejectReparse path
  let temporary ← H.createTemporaryFile path
  let result ← attempt do
    H.writeAll temporary bytes
    mark .injected
    operate (Folders.sync temporary)
    replaceExisting temporary path
    H.syncDir
  H.settle temporary result

/-- Move a new entry into place without replacing anything. -/
def renameNew (source destination : EntryPath) : FileProgram Unit := do
  H.ensureDirectory destination.parent
  H.rejectReparse source
  H.rejectReparse destination
  operate (Folders.renameNoReplace source destination)
  H.syncDir
  onlyIf (source.parent ≠ destination.parent) H.syncDir

/-- Create a regular file where nothing is. The mode is set on Unix only. -/
def createNewFile (path : EntryPath) (bytes : Bytes) (mode : Option Nat) :
    FileProgram Unit := do
  H.ensureDirectory path.parent
  match ← symlinkMetadata path with
  | some _ => .throw .alreadyExists
  | none => pure ()
  let temporary ← H.createTemporaryFile path
  let result ← attempt do
    H.writeAll temporary bytes
    mark .injected
    onlyIf (H.platform = .unix ∧ mode.isSome) (mark .injected)
    operate (Folders.sync temporary)
    H.renameNew temporary path
  H.settle temporary result

/-- A path text that starts at the root. -/
def absoluteText (target : Bytes) : Bool := target.head? == some 47

/-- Switch a Unix selector symlink to an absolute target. -/
def atomicSwitchSymlink (path : EntryPath) (target : Bytes) : FileProgram Unit := do
  require (absoluteText target = true)
    (.invalidInput "managed selector targets must be absolute")
  H.ensureDirectory path.parent
  match ← symlinkMetadata path with
  | some (.symlink _) | none => pure ()
  | some _ =>
    .throw (.invalidInput s!"{H.display path} is not an existing selector symlink")
  let temporary ← H.temporaryPath path "symlink"
  operate (Folders.createSymlink temporary target)
  let result ← attempt do
    replaceExisting temporary path
    H.syncDir
  H.settle temporary result

end FileHost

end Relswap
