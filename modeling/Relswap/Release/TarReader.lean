import Relswap.Checked.Reader
import Relswap.Release.Pax

/-!
# Reading decompressed tar data

The decompressed bytes of an archive are read under a limit. At the limit one
more byte is asked for, so that a longer stream is told from one that ends
there. Member data is read through a reader cut off at the declared size, and
the zeros up to the next block are read after it.
-/

namespace Relswap

open Durable Checked

def tarBlockSize : Nat := 512

/-- An error of the reader underneath, or the limit itself. -/
inductive LimitError (ε : Type) where
  | inner (error : ε)
  | exceeded
  deriving DecidableEq

/-- The limit is an I/O error like those of the reader underneath. -/
def LimitError.toIo {ε : Type} (toIo : ε → IoError) : LimitError ε → IoError
  | .inner error => toIo error
  | .exceeded => .invalidData "decompressed tar exceeds processing limit"

/-- A reader with the number of bytes it may still hand over. -/
structure DecompressedLimit (σ : Type) where
  inner : σ
  remaining : Nat

section

variable {ε σ : Type}

def DecompressedLimit.new (inner : σ) (limit : Nat) : DecompressedLimit σ := ⟨inner, limit⟩

/-- A reader under a limit on the decompressed size. -/
def DecompressedLimit.reader (r : Checked.Reader ε UInt8 σ) :
    Checked.Reader (LimitError ε) UInt8 (DecompressedLimit σ) where
  read s size :=
    if size = 0 then .ok ([], s)
    else if s.remaining = 0 then
      match r.read s.inner 1 with
      | .error error => .error (.inner error)
      | .ok (excess, inner) =>
        if excess.length = 0 then .ok ([], ⟨inner, s.remaining⟩) else .error .exceeded
    else
      match r.read s.inner (min s.remaining size) with
      | .error error => .error (.inner error)
      | .ok (chunk, inner) => .ok (chunk, ⟨inner, s.remaining - chunk.length⟩)

namespace TarReader

def memberBufferSize : Nat := 64 * 1024

/-- The loop of `read_member_data` after `actual` bytes, with those collected so far. -/
def readMemberLoop (r : Checked.Reader ε UInt8 σ) (toIo : ε → IoError) (declaredSize : Nat)
    (collect : Bool) (path : String) (actual : Nat) (data : Bytes) (s : σ) :
    Except ReleaseError (Bytes × σ) :=
  match r.read s memberBufferSize with
  | .error error => .error (.io (toIo error))
  | .ok ([], t) => do
    check (actual = declaredSize) (.archive
      s!"member {path} actual size {actual} differs from declared size {declaredSize}")
    return (data, t)
  | .ok (byte :: chunk, t) =>
    let next := actual + (chunk.length + 1)
    if ¬ next < 2 ^ 64 then .error (.archive s!"member {path} size overflow")
    else if next > maxMemberSize ∨ next > declaredSize then
      .error (.archive s!"member {path} actual size exceeds its declared size")
    else
      readMemberLoop r toIo declaredSize collect path next
        (if collect then data ++ byte :: chunk else data) t
termination_by declaredSize - actual

/-- Read a member to the end of its reader, which must come at the declared size. -/
def readMemberData (r : Checked.Reader ε UInt8 σ) (toIo : ε → IoError) (declaredSize : Nat)
    (collect : Bool) (path : String) (s : σ) : Except ReleaseError (Bytes × σ) :=
  readMemberLoop r toIo declaredSize collect path 0 [] s

/-- The text of an error of `read_exact`. -/
def readExactText (toIo : ε → IoError) (ioText : IoError → String) : Option ε → String
  | none => "failed to fill whole buffer"
  | some error => ioText (toIo error)

/-- Member data through a cut-off reader, then zeros up to the next block. -/
def readPadded (r : Checked.Reader ε UInt8 σ) (toIo : ε → IoError) (ioText : IoError → String)
    (size : Nat) (collect : Bool) (path : String) (truncated nonzero : String) (s : σ) :
    Except ReleaseError (Bytes × σ) := do
  let (data, record) ← readMemberData r.take toIo size collect path ⟨s, size⟩
  let padding := (tarBlockSize - size % tarBlockSize) % tarBlockSize
  if padding = 0 then return (data, record.inner)
  else
    let (bytes, t) ← (r.readExact record.inner padding).mapError fun error =>
      let text := readExactText toIo ioText error
      .archive s!"{truncated}: {text}"
    check (bytes.all (· == 0) = true) (.archive nonzero)
    return (data, t)

/-- A metadata record of a tar archive. -/
def readTarRecord (r : Checked.Reader ε UInt8 σ) (toIo : ε → IoError) (ioText : IoError → String)
    (size index : Nat) (s : σ) : Except ReleaseError (Bytes × σ) :=
  readPadded r toIo ioText size true s!"tar metadata at index {index}"
    s!"truncated tar metadata padding at index {index}"
    s!"nonzero tar metadata padding at index {index}" s

/-- The data of a tar member; only that of an expected member is collected. -/
def readTarMember (r : Checked.Reader ε UInt8 σ) (toIo : ε → IoError) (ioText : IoError → String)
    (declaredSize : Nat) (expected : Bool) (path : String) (s : σ) :
    Except ReleaseError (Bytes × σ) :=
  readPadded r toIo ioText declaredSize expected path s!"truncated tar padding after {path}"
    s!"nonzero tar padding after {path}" s

end TarReader

end

end Relswap
