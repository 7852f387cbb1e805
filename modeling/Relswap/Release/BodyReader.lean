import Relswap.Checked.Reader
import Relswap.Release.Pax

/-!
# Reading a response body

A body is read whole, or in chunks when someone watches its progress. Both ways
ask for one byte more than they accept, so that a longer body is seen to be too
long. The transport itself is third-party code.
-/

namespace Relswap

open Durable Checked

def progressChunk : Nat := 64 * 1024

/-- The most bytes one vector can hold. -/
def isizeMax : Nat := 2 ^ 63 - 1

/-- What a response body of the transport offers, each under a limit. -/
structure Body (ε σ : Type) where
  reader : Checked.Reader ε UInt8 σ
  /-- The reader of the body limited to a number of bytes. -/
  start : Nat → σ
  readToVec : Nat → Except ε Bytes

/-- One byte past the accepted size, as a 64-bit number. -/
def progressReadLimit (maxBytes : Nat) : Except ReleaseError Nat := do
  let readLimit ← orError (checkedAdd usizeLimit maxBytes 1)
    (.download "download size limit overflow")
  check (readLimit < 2 ^ 64) (.download "download size limit exceeds u64")
  return readLimit

/-- The declared length is trusted only as far as the accepted size. -/
def bodyCapacity (maxBytes : Nat) (total : Option Nat) : Nat :=
  min ((total.filter (· < usizeLimit)).getD progressChunk) maxBytes

/-- An allocation of more than `isize::MAX` bytes panics. -/
def withCapacity (capacity : Nat) : Run ReleaseError Bytes :=
  if capacity ≤ isizeMax then .ok [] else .error .overflow

section

variable {ε σ : Type} (display : ε → String)

/-- The state of the chunk loop: the reader, the bytes and what the observer has seen. -/
structure Receiving (σ : Type) where
  reader : σ
  bytes : Bytes
  seen : List (Nat × Option Nat)

/-- Read one chunk and report it. -/
def observePass (reader : Checked.Reader ε UInt8 σ) (total : Option Nat) (state : Receiving σ) :
    Run ReleaseError (Receiving σ ⊕ Bytes × List (Nat × Option Nat)) :=
  match reader.read state.reader progressChunk with
  | .error error => fail (.download (display error))
  | .ok (chunk, next) =>
    if chunk.length = 0 then .ok (.inr (state.bytes, state.seen))
    else
      let bytes := state.bytes ++ chunk
      .ok (.inl ⟨next, bytes, state.seen ++ [(bytes.length, total)]⟩)

/-- Read a body in chunks, notifying an observer as it arrives. The result comes
with the calls of the observer. -/
def readResponseBodyObserved (maxBytes : Nat) (body : Body ε σ) (total : Option Nat)
    (fuel : Nat) : Run ReleaseError (Bytes × List (Nat × Option Nat)) := do
  let readLimit ← (progressReadLimit maxBytes).mapError .error
  let bytes ← withCapacity (bodyCapacity maxBytes total)
  let (bytes, seen) ← loop (observePass display body.reader total) fuel
    ⟨body.start readLimit, bytes, [(0, total)]⟩
  check (bytes.length ≤ maxBytes)
    (.error (.download s!"response body exceeds maximum size {maxBytes}"))
  return (bytes, seen)

def readResponseBody (maxBytes : Nat) (read : Nat → Except ε Bytes) :
    Except ReleaseError Bytes := do
  let readLimit ← progressReadLimit maxBytes
  let bytes ← (read readLimit).mapError fun error => .download (display error)
  check (bytes.length ≤ maxBytes)
    (.download s!"response body exceeds maximum size {maxBytes}")
  return bytes

end

theorem progressReadLimit_eq_ok {maxBytes readLimit : Nat} :
    progressReadLimit maxBytes = .ok readLimit ↔
      maxBytes + 1 < usizeLimit ∧ readLimit = maxBytes + 1 := by
  simp only [progressReadLimit, usizeLimit, bind_eq_ok, orError_eq_ok, checkedAdd_eq_some,
    check_eq_ok, pure_eq_ok]
  constructor
  · rintro ⟨_, ⟨small, rfl⟩, _, _, rfl⟩
    exact ⟨small, rfl⟩
  · rintro ⟨small, rfl⟩
    exact ⟨_, ⟨small, rfl⟩, (), small, rfl⟩

theorem progressReadLimit_eq_error {maxBytes : Nat} (large : usizeLimit ≤ maxBytes + 1) :
    progressReadLimit maxBytes = .error (.download "download size limit overflow") := by
  have excess : checkedAdd usizeLimit maxBytes 1 = none := if_neg (by omega)
  simp only [progressReadLimit, excess]
  rfl

end Relswap
