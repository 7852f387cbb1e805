import Mathlib
import Relswap.Checked.Script
import Relswap.Release.Manifest

/-!
# The files of the release tool

The commands are scripts over the files they name. Paths are normalized texts: names
between single slashes, without dots. Different paths lead to different files.
-/

namespace Relswap.Tool

open Durable Checked Checked.Script

/-- What a path leads to. -/
inductive Node where
  | file (bytes : Bytes)
  | directory
  /-- A symlink to a free path, where a write makes the file. -/
  | dangling
  /-- A FIFO, a socket, a device or a symlink that cannot be followed. -/
  | special
  deriving DecidableEq

/-- The entries of the directories, each with what it leads to. -/
abbrev Files := AList fun _ : String => Node

abbrev Command (α : Type) := Script Files String α

namespace Files

def read (files : Files) (path : String) : Option Bytes :=
  match files.lookup path with
  | some (.file bytes) => some bytes
  | _ => none

/-- Whether something is where a path leads. -/
def pathExists (files : Files) (path : String) : Bool :=
  match files.lookup path with
  | none | some .dangling => false
  | some _ => true

/-- Whether a write at a path makes or replaces a file. -/
def writable (files : Files) (path : String) : Bool :=
  match files.lookup path with
  | some .directory | some .special => false
  | _ => true

def write (files : Files) (path : String) (bytes : Bytes) : Files :=
  files.insert path (.file bytes)

@[simp] theorem lookup_write_same (files : Files) (path : String) (bytes : Bytes) :
    (files.write path bytes).lookup path = some (.file bytes) := AList.lookup_insert _

theorem lookup_write_other {files : Files} {path other : String} {bytes : Bytes}
    (different : other ≠ path) : (files.write path bytes).lookup other = files.lookup other :=
  AList.lookup_insert_ne different

@[simp] theorem read_write_same (files : Files) (path : String) (bytes : Bytes) :
    (files.write path bytes).read path = some bytes := by
  rw [read, lookup_write_same]

theorem read_write_other {files : Files} {path other : String} {bytes : Bytes}
    (different : other ≠ path) : (files.write path bytes).read other = files.read other := by
  rw [read, lookup_write_other different, read]

@[simp] theorem write_write (files : Files) (path : String) (first second : Bytes) :
    (files.write path first).write path second = files.write path second :=
  AList.insert_insert _

theorem read_of_absent {files : Files} {path : String} (absent : files.lookup path = none) :
    files.read path = none := by
  rw [read, absent]

@[simp] theorem writable_write_same (files : Files) (path : String) (bytes : Bytes) :
    (files.write path bytes).writable path = true := by
  rw [writable, lookup_write_same]

theorem writable_write_other {files : Files} {path other : String} {bytes : Bytes}
    (different : other ≠ path) :
    (files.write path bytes).writable other = files.writable other := by
  rw [writable, lookup_write_other different, writable]

theorem writable_of_absent {files : Files} {path : String} (absent : files.lookup path = none) :
    files.writable path = true := by
  rw [writable, absent]

theorem not_writable_directory {files : Files} {path : String}
    (opened : files.lookup path = some .directory) : files.writable path = false := by
  rw [writable, opened]

theorem pathExists_of_absent {files : Files} {path : String} (absent : files.lookup path = none) :
    files.pathExists path = false := by
  rw [pathExists, absent]

theorem read_eq_some {files : Files} {path : String} {bytes : Bytes} :
    files.read path = some bytes ↔ files.lookup path = some (.file bytes) := by
  rw [read]
  cases found : files.lookup path with
  | none => simp
  | some node => cases node <;> simp

theorem pathExists_of_read {files : Files} {path : String} {bytes : Bytes}
    (content : files.read path = some bytes) : files.pathExists path = true := by
  rw [pathExists, read_eq_some.mp content]

/-- Nothing is read where nothing is. -/
theorem read_of_not_exists {files : Files} {path : String}
    (absent : ¬ files.pathExists path = true) : files.read path = none := by
  rw [Option.eq_none_iff_forall_ne_some]
  intro bytes content
  exact absent (pathExists_of_read content)

end Files

def readFile (what path : String) : Command Bytes := do
  let files ← get
  orError (files.read path) s!"read {what}{path}: not a readable file"

def writeFile (path : String) (bytes : Bytes) : Command Unit := do
  let files ← get
  check (files.writable path = true) s!"write {path}: not a writable file"
  modify fun files => files.write path bytes

theorem readFile_eq_ok (what : String) {path : String} {files files' : Files} {bytes : Bytes} :
    (readFile what path).outcome files = (.ok bytes, files') ↔
      files.read path = some bytes ∧ files' = files := by
  rw [readFile, Script.bind_ok (outcome_get files), outcome_lift, Prod.mk.injEq, orError_eq_ok,
    eq_comm (a := files)]

theorem writeFile_ok {path : String} {files : Files} {bytes : Bytes}
    (writable : files.writable path = true) :
    (writeFile path bytes).outcome files = (.ok (), files.write path bytes) := by
  rw [writeFile, Script.bind_ok (outcome_get files), lift_bind_ok (check_pass writable)]
  rfl

theorem writeFile_eq_ok {path : String} {files files' : Files} {bytes : Bytes} {u : Unit} :
    (writeFile path bytes).outcome files = (.ok u, files') ↔
      files.writable path = true ∧ files' = files.write path bytes := by
  constructor
  · intro wrote
    rw [writeFile, Script.bind_ok (outcome_get files)] at wrote
    obtain ⟨_, _, allowed, wrote⟩ := Script.bind_eq_ok.mp wrote
    rw [outcome_lift, Prod.mk.injEq, check_eq_ok] at allowed
    rw [outcome_modify, Prod.mk.injEq] at wrote
    obtain ⟨allowed, rfl⟩ := allowed
    exact ⟨allowed, wrote.2.symm⟩
  · intro both
    rw [writeFile_ok both.1, both.2]

/-! ## Paths -/

/-- The text up to the last slash. -/
def parentPrefix (path : String) : String :=
  String.ofList (path.toList.reverse.dropWhile fun c => c != '/').reverse

/-- The text after the last slash. -/
def fileName (path : String) : String :=
  String.ofList (path.toList.reverse.takeWhile fun c => c != '/').reverse

def joinPath (directory name : String) : String := directory ++ "/" ++ name

def withFileName (path name : String) : String := parentPrefix path ++ name

/-- The paths of the entries of a directory. -/
def readDir (directory : String) : Command (List String) := do
  let files ← get
  check (files.lookup directory = some .directory)
    s!"read artifacts directory {directory}: not a directory"
  return files.keys.filter fun path => parentPrefix path == directory ++ "/"

/-- The bytes of a text, for comparisons. -/
def textKey (text : String) : List Nat := (encodeUtf8 text).map UInt8.toNat

theorem textKey_injective : Function.Injective textKey := fun _ _ same =>
  encodeUtf8_injective (List.map_injective_iff.mpr (fun _ _ => UInt8.toNat_inj.mp) same)

end Relswap.Tool
