import Relswap.Release.Names

/-!
# The ZIP member loop

`inspect_zip` reads the entries one after the other. An entry presents its raw
name, its flags and sizes, and a stream of data that arrives in pieces of any
size and may fail.
-/

namespace Relswap

open Durable

inductive ZipCompression where
  | stored
  | deflated
  | other
  deriving DecidableEq, Repr

/-- One entry as the ZIP reader presents it. -/
structure ZipEntry where
  nameRaw : Bytes
  encrypted : Bool
  compression : ZipCompression
  isSymlink : Bool
  unixMode : Option Nat
  size : Nat
  isDir : Bool
  /-- The results of successive reads; an empty one is the end of the data. -/
  stream : List (Except IoError Bytes)

/-- A panic is told apart from an error, to show that none is reached. -/
inductive ZipFailure where
  | error (error : ReleaseError)
  | panicked
  deriving DecidableEq

/-- What the loop has seen so far. -/
structure ZipSeen where
  names : List String
  totalUncompressed : Nat
  payload : Option VerifiedMember
  launcher : Option VerifiedMember
  rootSeen : Bool
  deriving DecidableEq

def ZipSeen.start : ZipSeen := ⟨[], 0, none, none, false⟩

def archiveError (message : String) : ZipFailure := .error (.archive message)

def usizeLimit : Nat := 2 ^ 64

/-- The file-type bits of a Unix mode, and those of a regular file and a directory. -/
def modeTypeMask : Nat := 0o170000
def modeRegular : Nat := 0o100000
def modeDirectory : Nat := 0o040000

def checkMode (entry : ZipEntry) (path : String) : Except ZipFailure Unit :=
  match entry.unixMode with
  | none => .ok ()
  | some mode => do
    let fileType := mode &&& modeTypeMask
    check (fileType = 0 ∨ fileType = modeRegular ∨ fileType = modeDirectory)
      (archiveError s!"special ZIP member is not supported: {path}")
    check (¬ (fileType = modeDirectory ∧ entry.isDir = false))
      (archiveError s!"ZIP directory mode disagrees with name: {path}")

/-- Read the data of a member, keeping it only when it is expected. -/
def readMemberData (declaredSize : Nat) (collect : Bool) (path : String) :
    Nat → Bytes → List (Except IoError Bytes) → Except ZipFailure Bytes
  | actual, data, [] | actual, data, .ok [] :: _ => do
    check (actual = declaredSize)
      (archiveError
        s!"member {path} actual size {actual} differs from declared size {declaredSize}")
    return data
  | _, _, .error error :: _ => .error (.error (.io error))
  | actual, data, .ok (byte :: piece) :: rest => do
    let total := actual + (byte :: piece).length
    check (total < usizeLimit) (archiveError s!"member {path} size overflow")
    check (¬ (maxMemberSize < total ∨ declaredSize < total))
      (archiveError s!"member {path} actual size exceeds its declared size")
    readMemberData declaredSize collect path total
      (if collect then data ++ (byte :: piece) else data) rest

/-- The size and digest expected of a file and whether it is the payload. The launcher
path comes with metadata, or the program panics. -/
def expectedFile (asset : ReleaseAsset) (expectedLauncher : Option String) (path : String) :
    Except ZipFailure (Option (Nat × String × Bool)) :=
  if path = asset.payload.path then
    .ok (some (asset.payload.size, asset.payload.sha256, true))
  else if expectedLauncher = some path then
    match asset.launcher with
    | some launcher => .ok (some (launcher.size, launcher.sha256, false))
    | none => .error .panicked
  else .ok none

variable {V : Type} [SemVer V] [Crates V]

variable (V) in
def inspectZipFile (asset : ReleaseAsset) (expectedLauncher : Option String) (entry : ZipEntry)
    (path : String) (seen : ZipSeen) : Except ZipFailure ZipSeen := do
  let total := seen.totalUncompressed + entry.size
  check (total < usizeLimit) (archiveError "ZIP uncompressed size overflow")
  check (total ≤ maxUncompressedSize)
    (archiveError s!"ZIP contents exceed maximum uncompressed size {maxUncompressedSize}")
  let seen := { seen with totalUncompressed := total }
  let expected ← expectedFile asset expectedLauncher path
  let data ← readMemberData entry.size expected.isSome path 0 [] entry.stream
  match expected with
  | none => return seen
  | some (size, hash, isPayload) =>
    (verifyBytes V data size hash path).mapError .error
    if isPayload then return { seen with payload := some ⟨path, data⟩ }
    else return { seen with launcher := some ⟨path, data⟩ }

variable (V) in
/-- One pass of the loop. -/
def inspectZipEntry (asset : ReleaseAsset) (root : String) (expectedLauncher : Option String)
    (index : Nat) (entry : ZipEntry) (seen : ZipSeen) : Except ZipFailure ZipSeen := do
  let path ← (validateMemberName entry.nameRaw root index).mapError .error
  check (seen.names.contains path = false) (archiveError s!"duplicate archive member: {path}")
  let seen := { seen with names := path :: seen.names }
  check (entry.encrypted = false) (archiveError s!"encrypted ZIP member is not supported: {path}")
  check (entry.compression ≠ .other) (archiveError s!"unsupported ZIP compression for {path}")
  check (entry.isSymlink = false)
    (archiveError s!"symbolic-link ZIP member is not supported: {path}")
  checkMode entry path
  check (entry.size ≤ maxMemberSize)
    (archiveError s!"ZIP member {path} exceeds maximum size {maxMemberSize}")
  if entry.isDir then
    check (entry.size = 0) (archiveError s!"directory member {path} has nonzero size")
    return { seen with rootSeen := seen.rootSeen || path == root }
  else
    check (path ≠ root) (archiveError "canonical archive root must be a directory")
    inspectZipFile V asset expectedLauncher entry path seen

variable (V) in
/-- The loop over the entries; the reader may fail to present one. -/
def inspectZipEntries (asset : ReleaseAsset) (root : String) (expectedLauncher : Option String) :
    Nat → List (Except String ZipEntry) → ZipSeen → Except ZipFailure ZipSeen
  | _, [], seen => .ok seen
  | index, next :: rest, seen => do
    let entry ← next.mapError fun error => archiveError s!"invalid ZIP entry {index}: {error}"
    let seen ← inspectZipEntry V asset root expectedLauncher index entry seen
    inspectZipEntries asset root expectedLauncher (index + 1) rest seen

variable (V) in
/-- The loop of `inspect_zip` with what stands around it. -/
def inspectZipMembers (app : App) (asset : ReleaseAsset)
    (entries : List (Except String ZipEntry)) : Except ZipFailure ExtractedRelease := do
  let target ← (targetFromAsset V app asset).mapError .error
  let version ← (canonicalVersionFromAsset V app asset target).mapError .error
  let root := target.rootName app version
  let seen ← inspectZipEntries V asset root (target.launcherPath app version) 0 entries .start
  check (seen.rootSeen = true) (archiveError s!"archive has no canonical root directory {root}")
  (finishMembers V app seen.payload seen.launcher asset).mapError .error

end Relswap
