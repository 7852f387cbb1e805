import Relswap.Release.ZipDirectory

/-!
# PAX extended headers

A PAX header is a sequence of records, each of which begins with its own length.
Only the keys `path` and `size` matter here. An empty value takes an earlier
override back.
-/

namespace Relswap

open Durable Checked

/-- The number that Rust's `parse` reads into an unsigned type below `limit`. -/
def readDigits (limit : Nat) : Nat → Bytes → Option Nat
  | number, [] => some number
  | number, digit :: rest =>
    if 48 ≤ digit ∧ digit ≤ 57 then
      let next := number * 10 + (digit.toNat - 48)
      if next < limit then readDigits limit next rest else none
    else none

/-- A single leading plus sign is read over. -/
def readUnsigned (limit : Nat) (text : Bytes) : Option Nat :=
  match text with
  | [] => none
  | 43 :: [] => none
  | 43 :: digits => readDigits limit 0 digits
  | digits => readDigits limit 0 digits

def parseUnsigned (limit : Nat) (bytes : Bytes) : Option Nat :=
  (decodeUtf8 bytes).bind fun text => readUnsigned limit (encodeUtf8 text)

/-- The last override of each key; an inner `none` clears it. -/
structure PaxOverrides where
  path : Option (Option Bytes)
  size : Option (Option Nat)
  deriving DecidableEq

structure OwnedPaxOverrides where
  path : Option Bytes
  size : Option Nat
  deriving DecidableEq

def PaxOverrides.default : PaxOverrides := ⟨none, none⟩

def OwnedPaxOverrides.default : OwnedPaxOverrides := ⟨none, none⟩

def OwnedPaxOverrides.update (self : OwnedPaxOverrides) (overrides : PaxOverrides) :
    OwnedPaxOverrides where
  path := overrides.path.getD self.path
  size := overrides.size.getD self.size

def pathKey : Bytes := [112, 97, 116, 104]
def sizeKey : Bytes := [115, 105, 122, 101]

/-- The effect of one field. -/
def overridePax (index : Nat) (overrides : PaxOverrides) (key value : Bytes) :
    ArchiveRun PaxOverrides := do
  let overrides := if key = pathKey then
    { overrides with path := some (if value = [] then none else some value) } else overrides
  if key = sizeKey then
    if value = [] then return { overrides with size := some none }
    else
      let size ← orError (parseUnsigned (2 ^ 64) value)
        (.error (.archive s!"invalid PAX size at tar index {index}"))
      return { overrides with size := some (some size) }
  else return overrides

/-- One pass over the records, from the cursor. -/
def paxPass (data : Bytes) (index : Nat) (scan : Nat × PaxOverrides) :
    ArchiveRun (Nat × PaxOverrides ⊕ PaxOverrides) := do
  let (cursor, overrides) := scan
  if cursor < data.length then
    let rest ← dropTo data cursor
    let relativeSpace ← orError (rest.findIdx? (· == 32))
      (.error (.archive s!"malformed PAX record at tar index {index}"))
    let space ← add usizeLimit cursor relativeSpace
    let text ← slice data cursor space
    let length ← orError (parseUnsigned usizeLimit text)
      (.error (.archive s!"invalid PAX length at tar index {index}"))
    let stop ← orError ((checkedAdd usizeLimit cursor length).filter (· ≤ data.length))
      (.error (.archive s!"oversized PAX record at tar index {index}"))
    let fieldStart ← add usizeLimit space 1
    check (fieldStart < stop) (.error (.archive s!"malformed PAX record at tar index {index}"))
    let last ← sub stop 1
    let byte ← get data last
    check (byte = 10) (.error (.archive s!"malformed PAX record at tar index {index}"))
    let field ← slice data fieldStart last
    let equals ← orError (field.findIdx? (· == 61))
      (.error (.archive s!"malformed PAX field at tar index {index}"))
    let key ← takeTo field equals
    let valueStart ← add usizeLimit equals 1
    let value ← dropTo field valueStart
    let overrides ← overridePax index overrides key value
    return .inl (stop, overrides)
  else return .inr overrides

def paxOverrides (data : Bytes) (index : Nat) : ArchiveRun PaxOverrides :=
  loop (paxPass data index) (data.length + 1) (0, .default)

end Relswap
