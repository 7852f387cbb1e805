import Relswap.Checked.Run
import Relswap.Release.Zip

/-!
# The ZIP directory before it is parsed

The archive is scanned backward for an end-of-directory record, and the central
directory that a record declares is scanned forward, under limits on members,
names and variable parts. Every index, slice and sum is checked here.
-/

namespace Relswap

open Durable Checked

def maxArchiveMetadataSize : Nat := 8 * 1024 * 1024

/-- The bytes of a slice. No object has more than `isize::MAX` bytes. -/
structure Slice where
  bytes : Bytes
  bounded : bytes.length < 2 ^ 63

abbrev ArchiveRun := Run ReleaseError

def failArchive {α : Type} (message : String) : ArchiveRun α := fail (.archive message)

def eocdSignature : Bytes := [80, 75, 5, 6]
def eocdSize : Nat := 22
def maxComment : Nat := 65535
def centralSignature : Bytes := [80, 75, 1, 2]
def centralHeaderSize : Nat := 46

/-- The little-endian number of 16 bits at `start`. -/
def readShort (record : Bytes) (start : Nat) : ArchiveRun Nat := do
  let low ← get record start
  let high ← get record (start + 1)
  return low.toNat + 256 * high.toNat

/-- The little-endian number of 32 bits at `start`. -/
def readLong (record : Bytes) (start : Nat) : ArchiveRun Nat := do
  let first ← get record start
  let second ← get record (start + 1)
  let third ← get record (start + 2)
  let fourth ← get record (start + 3)
  return first.toNat + 256 * second.toNat + 65536 * third.toNat + 16777216 * fourth.toNat

/-- The state of the forward scan. -/
structure CentralScan where
  cursor : Nat
  members : Nat
  metadataSize : Nat
  deriving DecidableEq

def metadataOverflow : String := "ZIP central metadata size overflow"

/-- Count a header and go past it. -/
def passHeader (stop : Nat) (scan : CentralScan) (header : Bytes) :
    ArchiveRun (CentralScan ⊕ Option Nat) := do
  let signature ← takeTo header 4
  if signature ≠ centralSignature then return .inr none
  else
    let nameSize ← readShort header 28
    check (nameSize ≤ maxArchiveMemberName)
      (.error (.archive s!"ZIP member name exceeds {maxArchiveMemberName} bytes"))
    let extraSize ← readShort header 30
    let commentSize ← readShort header 32
    let variableSize ← orError
      ((checkedAdd usizeLimit nameSize extraSize).bind fun size =>
        checkedAdd usizeLimit size commentSize)
      (.error (.archive metadataOverflow))
    let metadataSize ← orError (checkedAdd usizeLimit scan.metadataSize variableSize)
      (.error (.archive metadataOverflow))
    check (metadataSize ≤ maxArchiveMetadataSize)
      (.error (.archive s!"ZIP central metadata exceeds {maxArchiveMetadataSize} bytes"))
    let size ← add usizeLimit centralHeaderSize variableSize
    match checkedAdd usizeLimit scan.cursor size with
    | none => return .inr none
    | some next =>
      if stop < next then return .inr none
      else
        let members ← add usizeLimit scan.members 1
        if maxArchiveMembers < members then return .inr (some members)
        else return .inl ⟨next, members, metadataSize⟩

/-- One pass of the forward scan. -/
def centralPass (bytes : Bytes) (stop : Nat) (scan : CentralScan) :
    ArchiveRun (CentralScan ⊕ Option Nat) := do
  if scan.cursor < stop then
    let headerEnd ← add usizeLimit scan.cursor centralHeaderSize
    match range bytes scan.cursor headerEnd with
    | none => return .inr none
    | some header => passHeader stop scan header
  else return .inr (if scan.cursor = stop then some scan.members else none)

/-- The number of central headers from `start` to `stop`, when they fill the range. -/
def zipCentralMemberCount (bytes : Bytes) (start stop : Nat) : ArchiveRun (Option Nat) :=
  loop (centralPass bytes stop) (bytes.length + 1) ⟨start, 0, 0⟩

/-- Whether an end record at `offset` describes the directory before it. -/
def acceptRecord (bytes : Bytes) (offset recordEnd : Nat) (record : Bytes) : ArchiveRun Bool := do
  let commentSize ← readShort record 20
  let commentEnd ← add usizeLimit recordEnd commentSize
  let disk ← readShort record 4
  let centralDisk ← readShort record 6
  let diskMembers ← readShort record 8
  let members ← readShort record 10
  if commentEnd ≠ bytes.length ∨ disk ≠ 0 ∨ centralDisk ≠ 0 ∨ diskMembers ≠ members then
    return false
  else
    let centralSize ← readLong record 12
    let centralStart ← readLong record 16
    check (¬ (members = 2 ^ 16 - 1 ∨ centralSize = 2 ^ 32 - 1 ∨ centralStart = 2 ^ 32 - 1))
      (.error (.archive "ZIP64 archives are not supported for release assets"))
    match checkedAdd usizeLimit centralStart centralSize with
    | none => return false
    | some centralEnd =>
      if centralEnd ≠ offset then return false
      else
        match ← zipCentralMemberCount bytes centralStart centralEnd with
        | none => return false
        | some actualMembers =>
          if actualMembers ≠ members then return false
          else
            check (actualMembers ≤ maxArchiveMembers)
              (.error (.archive s!"ZIP archive exceeds maximum member count {maxArchiveMembers}"))
            return true

/-- One pass of the backward scan: whether the search ends here. -/
def considerRecord (bytes : Bytes) (searchStart relative : Nat) (window : Bytes) :
    ArchiveRun Bool := do
  if window ≠ eocdSignature then return false
  else
    let offset ← add usizeLimit searchStart relative
    let recordEnd ← add usizeLimit offset eocdSize
    match range bytes offset recordEnd with
    | none => return false
    | some record => acceptRecord bytes offset recordEnd record

/-- The windows of a size, with their positions. -/
def windows (size : Nat) (bytes : Bytes) : List (Nat × Bytes) :=
  (List.range (bytes.length + 1 - size)).map fun start => (start, (bytes.drop start).take size)

/-- The backward scan over the windows. -/
def searchRecord (bytes : Bytes) (searchStart : Nat) : List (Nat × Bytes) → ArchiveRun Unit
  | [] => failArchive "ZIP archive has no valid end-of-directory record"
  | (relative, window) :: rest => do
    if ← considerRecord bytes searchStart relative window then return ()
    else searchRecord bytes searchStart rest

def preflightZipMemberCount (bytes : Bytes) : ArchiveRun Unit := do
  let searchStart := bytes.length - (eocdSize + maxComment)
  let tail ← dropTo bytes searchStart
  searchRecord bytes searchStart (windows 4 tail).reverse

end Relswap
