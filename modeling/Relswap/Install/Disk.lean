import Relswap.Fs.Path
import Relswap.Install.Documents

/-!
# The files of one installation

`Disk` records everything an installation reads or writes: the private root with
its documents, the retained versions, the staging transactions, the selector and
the command. Every slot also has values that the program itself never writes, a
link or an unreadable document for instance, since it must cope with any disk.

Directory contents are association lists: enumeration follows the list, whose
order is arbitrary. A file operation either succeeds as documented or fails for
the reason the slot shows; exhausted resources are not modelled.
-/

namespace Relswap

open Durable

/-- Comparing the listings, so that the comparison can be evaluated. -/
instance decidableEqListing {α : Type} [DecidableEq α] : DecidableEq (AList fun _ : String => α) :=
  fun a b => decidable_of_iff (a.entries = b.entries) AList.ext_iff.symm

/-- What a path that should be a directory of the program can be. -/
inductive Place where
  | absent
  | directory (isPrivate : Bool)
  | link
  | file
  deriving DecidableEq, Repr

/-- A directory with named entries, or what stands in its place. -/
inductive Folder (α : Type) where
  | absent
  | directory (isPrivate : Bool) (entries : AList fun _ : String => α)
  | foreign
  deriving DecidableEq

/-- One entry of a version directory or of a staging transaction. -/
inductive Member where
  | file (bytes : Bytes)
  | directory
  | link
  deriving DecidableEq, Repr

abbrev Members := AList fun _ : String => Member

/-- A version directory, retained or staged. -/
structure VersionDir where
  isPrivate : Bool
  members : Members
  deriving DecidableEq

inductive VersionEntry where
  | directory (dir : VersionDir)
  | foreign
  deriving DecidableEq

/-- A staging transaction: plain files beside the version directory it prepares. -/
structure Transaction where
  isPrivate : Bool
  files : Members
  version : Option VersionDir
  deriving DecidableEq

namespace Transaction

def eraseFile (name : String) (transaction : Transaction) : Transaction :=
  { transaction with files := transaction.files.erase name }

def eraseStaged (name : String) (transaction : Transaction) : Transaction :=
  { transaction with version := transaction.version.map fun dir =>
      { dir with members := dir.members.erase name } }

def dropStaged (transaction : Transaction) : Transaction :=
  { transaction with version := none }

end Transaction

inductive StagingEntry where
  | transaction (transaction : Transaction)
  | foreign
  deriving DecidableEq

/-- A JSON document, by what reading it gives. -/
inductive Document (α : Type) where
  | absent
  | foreign
  | oversized
  | malformed (message : String)
  | value (content : α)
  deriving DecidableEq

inductive LockEntry where
  | absent
  | regular
  | foreign
  deriving DecidableEq, Repr

/-- The Windows selector file. -/
inductive Selector where
  | absent
  | foreign
  | file (bytes : Bytes)
  deriving DecidableEq, Repr

/-- What the command path holds. `unreachable` stands for a path that leads
through a regular file. -/
inductive CommandEntry where
  | absent
  | symlink (target : FsPath)
  | file (bytes : Bytes)
  | other
  | unreachable
  deriving DecidableEq, Repr

structure Disk (V : Type) where
  root : Place
  lock : LockEntry
  install : Document (InstallState V)
  pending : Document (PendingActivation V)
  active : Selector
  versions : Folder VersionEntry
  staging : Folder StagingEntry
  commandParent : Place
  command : CommandEntry
  deriving DecidableEq

variable {V : Type}

namespace Place

/-- Create a missing directory as private and refuse anything not private. -/
def ensurePrivate (place : Place) (path : String) : Except (InstallError V) Place :=
  match place with
  | .absent => .ok (.directory true)
  | .directory true => .ok place
  | .directory false =>
    .error (.io (.permissionDenied s!"{path} permissions must not allow group/other access"))
  | .link | .file => .error (.io (.permissionDenied s!"{path} is not a directory"))

/-- Create a missing directory and refuse a link or a file. -/
def ensureReal (place : Place) (path : String) : Except (InstallError V) Place :=
  match place with
  | .absent => .ok (.directory true)
  | .directory isPrivate => .ok (.directory isPrivate)
  | .link => .error (.invalid s!"managed command parent is not a real directory: {path}")
  | .file => .error (.io .alreadyExists)

end Place

namespace Folder

variable {α : Type}

/-- The entries of a folder; nothing when there is no directory. -/
def entries : Folder α → AList fun _ : String => α
  | .directory _ entries => entries
  | _ => ∅

def ensurePrivate (folder : Folder α) (path : String) : Except (InstallError V) (Folder α) :=
  match folder with
  | .absent => .ok (.directory true ∅)
  | .directory true _ => .ok folder
  | .directory false _ =>
    .error (.io (.permissionDenied s!"{path} permissions must not allow group/other access"))
  | .foreign => .error (.io (.permissionDenied s!"{path} is not a directory"))

def insert (folder : Folder α) (name : String) (entry : α) : Folder α :=
  match folder with
  | .directory isPrivate entries => .directory isPrivate (entries.insert name entry)
  | other => other

def erase (folder : Folder α) (name : String) : Folder α :=
  match folder with
  | .directory isPrivate entries => .directory isPrivate (entries.erase name)
  | other => other

/-- Replacing an entry first makes no difference to removing it. -/
@[simp] theorem erase_insert (folder : Folder α) (name : String) (entry : α) :
    (folder.insert name entry).erase name = folder.erase name := by
  cases folder with
  | directory p entries =>
    simp only [insert, erase]
    congr 1
    exact AList.ext (by simp [AList.erase, AList.insert, List.kinsert])
  | absent => rfl
  | foreign => rfl

@[simp] theorem insert_insert (folder : Folder α) (name : String) (entry entry' : α) :
    (folder.insert name entry).insert name entry' = folder.insert name entry' := by
  cases folder with
  | directory p entries => simp [insert, AList.insert_insert]
  | absent => rfl
  | foreign => rfl

@[simp] theorem entries_absent : (absent : Folder α).entries = ∅ := rfl

@[simp] theorem entries_directory (p : Bool) (es : AList fun _ : String => α) :
    (directory p es).entries = es := rfl

end Folder

namespace Member

/-- The bytes of a regular file. -/
def regular (member : Option Member) (path : String) : Except (InstallError V) Bytes :=
  match member with
  | none => .error (.io .notFound)
  | some (.file bytes) => .ok bytes
  | some _ => .error (.io (.permissionDenied s!"{path} is not a regular file"))

@[simp] theorem regular_eq_ok {member : Option Member} {path : String} {bytes : Bytes} :
    (regular member path : Except (InstallError V) Bytes) = .ok bytes ↔
      member = some (.file bytes) := by
  simp only [regular]
  split <;> simp_all

end Member

/-- Read at most `limit` bytes of a regular file. -/
def readRegularLimited (member : Option Member) (limit : Nat) (path : String) :
    Except (InstallError V) Bytes := do
  let bytes ← Member.regular member path
  check (bytes.length ≤ limit) (.invalid s!"file is larger than its limit: {path}")
  return bytes

@[simp] theorem readRegularLimited_eq_ok {member : Option Member} {limit : Nat} {path : String}
    {bytes : Bytes} :
    (readRegularLimited member limit path : Except (InstallError V) Bytes) = .ok bytes ↔
      member = some (.file bytes) ∧ bytes.length ≤ limit := by
  simp only [readRegularLimited, bind_eq_ok, Member.regular_eq_ok, check_eq_ok, pure_eq_ok]
  constructor
  · rintro ⟨b, present, _, short, rfl⟩
    exact ⟨present, short⟩
  · rintro ⟨present, short⟩
    exact ⟨bytes, present, (), short, rfl⟩

/-- Compare a regular file with its recorded size and digest. -/
def verifyFileDigest [SemVer V] [Crates V] (bytes : Bytes) (expectedSize : Nat)
    (expectedHash label : String) : Except (InstallError V) Unit := do
  let got := bytes.length
  check (bytes.length = expectedSize)
    (.invalid s!"{label} size mismatch: expected {expectedSize}, got {got}")
  let actual := Crates.sha256 V bytes
  check (actual = expectedHash)
    (.invalid s!"{label} SHA-256 mismatch: expected {expectedHash}, got {actual}")

@[simp] theorem verifyFileDigest_eq_ok [SemVer V] [Crates V] {bytes : Bytes} {size : Nat}
    {hash label : String} {u : Unit} :
    (verifyFileDigest bytes size hash label : Except (InstallError V) Unit) = .ok u ↔
      bytes.length = size ∧ Crates.sha256 V bytes = hash := by
  simp [verifyFileDigest]

namespace Document

variable {α : Type}

/-- Read a document: absent, its content, or the reason it cannot be read. -/
def readJson (document : Document α) (path : String) : Except (InstallError V) (Option α) :=
  match document with
  | .absent => .ok none
  | .foreign => .error (.invalid s!"state path is not a regular file: {path}")
  | .oversized => .error (.invalid s!"state file is too large: {path}")
  | .malformed message => .error (.json message)
  | .value content => .ok (some content)

/-- The document holding an optional value. -/
def ofOption : Option α → Document α
  | none => .absent
  | some content => .value content

@[simp] theorem ofOption_none : (ofOption none : Document α) = .absent := rfl

@[simp] theorem ofOption_some (a : α) : ofOption (some a) = .value a := rfl

@[simp] theorem ofOption_inj {a b : Option α} : ofOption a = ofOption b ↔ a = b := by
  cases a <;> cases b <;> simp

@[simp] theorem readJson_eq_ok {document : Document α} {path : String} {content : Option α} :
    (document.readJson path : Except (InstallError V) (Option α)) = .ok content ↔
      document = ofOption content := by
  cases document <;> cases content <;> simp [readJson]

@[simp] theorem readJson_ofOption (content : Option α) (path : String) :
    ((ofOption content).readJson path : Except (InstallError V) (Option α)) = .ok content := by
  rw [readJson_eq_ok]

end Document

namespace Disk

/-- The entry of the versions directory with a given name. -/
def versionEntry (s : Disk V) (name : String) : Option VersionEntry :=
  s.versions.entries.lookup name

theorem versionEntry_directory {s : Disk V} {p : Bool}
    {entries : AList fun _ : String => VersionEntry} (h : s.versions = .directory p entries)
    (name : String) : s.versionEntry name = entries.lookup name := by
  rw [Disk.versionEntry, h, Folder.entries_directory]

theorem versions_of_entry {s : Disk V} {name : String} {entry : VersionEntry}
    (h : s.versionEntry name = some entry) :
    ∃ p entries, s.versions = .directory p entries ∧ entries.lookup name = some entry := by
  unfold Disk.versionEntry at h
  cases hv : s.versions with
  | absent => simp [hv] at h
  | foreign => simp [hv, Folder.entries] at h
  | directory p entries => exact ⟨p, entries, rfl, by simpa [hv] using h⟩

/-- The staging transaction with a given id. -/
def transaction (s : Disk V) (id : String) : Option Transaction :=
  match s.staging.entries.lookup id with
  | some (.transaction transaction) => some transaction
  | _ => none

/-- Replace a staging transaction, or add it. -/
def putTransaction (s : Disk V) (id : String) (transaction : Transaction) : Disk V :=
  { s with staging := s.staging.insert id (.transaction transaction) }

/-- Apply a change to a staging transaction when it is there. -/
def mapTransaction (s : Disk V) (id : String) (f : Transaction → Transaction) : Disk V :=
  match s.transaction id with
  | some transaction => s.putTransaction id (f transaction)
  | none => s

/-- Change one staging transaction. -/
def updateTransaction (s : Disk V) (id : String)
    (f : Transaction → Except (InstallError V) Transaction) :
    Except (InstallError V) (Disk V) := do
  let old ← orError (s.transaction id) (.io .notFound)
  let new ← f old
  return s.putTransaction id new

/-- Change the version directory a staging transaction prepares. -/
def updateStaged (s : Disk V) (id : String)
    (f : VersionDir → Except (InstallError V) VersionDir) : Except (InstallError V) (Disk V) :=
  s.updateTransaction id fun transaction => do
    let old ← orError transaction.version (.io .notFound)
    let new ← f old
    return { transaction with version := some new }

end Disk

/-- Add a file that must not exist yet. -/
def Members.createNew (members : Members) (name : String) (bytes : Bytes) :
    Except (InstallError V) Members := do
  check (members.lookup name = none) (.io .alreadyExists)
  return members.insert name (.file bytes)

/-- Replace a regular file atomically, creating it when missing. -/
def Members.replace (members : Members) (name : String) (bytes : Bytes) :
    Except (InstallError V) Members :=
  match members.lookup name with
  | none | some (.file _) => .ok (members.insert name (.file bytes))
  | some .link => .error (.io (.permissionDenied s!"refusing to replace indirection {name}"))
  | some .directory => .error (.io .alreadyExists)

end Relswap
