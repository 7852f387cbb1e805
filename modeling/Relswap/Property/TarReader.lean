import Relswap.Release.TarReader

/-!
# The decompression limit is exact

The reader under the limit hands over the stream of the reader underneath, and
counts it down: this is the invariant of every sequence of reads, whatever the
buffers are and however the pieces fall. The readers of tar records take from it
what they return and the zeros up to the next block.
-/

namespace Relswap

open Durable Checked

variable {ε σ : Type} {r : Checked.Reader ε UInt8 σ} {left : σ → Stream'.Seq UInt8}
  {toIo : ε → IoError} {ioText : IoError → String} {size : Nat} {sent chunk data : Bytes}

namespace DecompressedLimit

/-- What one read under the limit does. -/
theorem read_cases {s t : DecompressedLimit σ}
    (read : (reader r).read s size = .ok (chunk, t)) :
    (size = 0 ∧ chunk = [] ∧ t = s) ∨
      (0 < size ∧ s.remaining = 0 ∧ chunk = [] ∧ r.read s.inner 1 = .ok ([], t.inner) ∧
        t.remaining = s.remaining) ∨
      (0 < size ∧ 0 < s.remaining ∧
        r.read s.inner (min s.remaining size) = .ok (chunk, t.inner) ∧
        t.remaining = s.remaining - chunk.length) := by
  simp only [reader] at read
  split at read
  · rename_i empty
    cases read
    exact .inl ⟨empty, rfl, rfl⟩
  · rename_i room
    right
    split at read
    · rename_i spent
      split at read
      · cases read
      · rename_i excess inner below
        split at read
        · rename_i nothing
          rw [List.length_eq_zero_iff] at nothing
          subst nothing
          cases read
          exact .inl ⟨Nat.pos_of_ne_zero room, spent, rfl, below, rfl⟩
        · cases read
    · rename_i some
      split at read
      · cases read
      · rename_i piece inner below
        cases read
        exact .inr ⟨Nat.pos_of_ne_zero room, Nat.pos_of_ne_zero some, below, rfl⟩

/-- The limit is reported only when nothing remains of it and the reader
underneath has another byte. -/
theorem read_exceeded {s : DecompressedLimit σ}
    (read : (reader r).read s size = .error .exceeded) :
    s.remaining = 0 ∧ ∃ byte excess inner, r.read s.inner 1 = .ok (byte :: excess, inner) := by
  simp only [reader] at read
  split at read
  · cases read
  · split at read
    · rename_i spent
      split at read
      · cases read
      · rename_i excess inner below
        split at read
        · cases read
        · rename_i something
          obtain ⟨byte, rest, rfl⟩ := List.exists_cons_of_length_pos
            (Nat.pos_of_ne_zero something)
          exact ⟨spent, byte, rest, inner, below⟩
    · split at read <;> cases read

/-- The reader under the limit serves the same stream. -/
theorem reader_serves (serves : r.Serves left) :
    (reader r).Serves fun s => left s.inner where
  fits := by
    intro s size chunk t read
    rcases read_cases read with ⟨_, rfl, _⟩ | ⟨_, _, rfl, _⟩ | ⟨_, _, below, _⟩
    · exact Nat.zero_le _
    · exact Nat.zero_le _
    · exact le_trans (serves.fits _ _ _ _ below) (Nat.min_le_right _ _)
  takes := by
    intro s size chunk t read
    rcases read_cases read with ⟨_, rfl, rfl⟩ | ⟨_, _, rfl, below, _⟩ | ⟨_, _, below, _⟩
    · rw [Stream'.Seq.ofList_nil, Stream'.Seq.nil_append]
    · exact serves.takes _ _ _ _ below
    · exact serves.takes _ _ _ _ below
  ended := by
    intro s size t read room
    rcases read_cases read with ⟨zero, _⟩ | ⟨_, _, _, below, _⟩ | ⟨_, some, below, _⟩
    · omega
    · exact serves.ended _ _ _ below Nat.one_pos
    · exact serves.ended _ _ _ below (by omega)

/-- Bytes handed over and bytes that remain make up the limit. -/
theorem reads_remaining {s t : DecompressedLimit σ} (fits : r.Fits)
    (run : (reader r).Reads s sent t) : sent.length + t.remaining = s.remaining := by
  induction run with
  | refl => exact Nat.zero_add _
  | tail _ last ih =>
    rw [List.length_append]
    rcases read_cases last with ⟨_, rfl, rfl⟩ | ⟨_, _, rfl, _, same⟩ | ⟨_, _, below, fewer⟩
    · exact ih
    · rw [same]
      exact ih
    · have small := fits _ _ _ _ below
      omega

end DecompressedLimit

/-! ## Records -/

namespace TarReader

/-- Member data is what the reader hands over to its end. -/
theorem readMemberLoop_reads {declaredSize actual : Nat} {collect : Bool} {path : String}
    {s t : σ} {before : Bytes}
    (read : readMemberLoop r toIo declaredSize collect path actual before s = .ok (data, t)) :
    ∃ bytes, r.Reads s bytes t ∧ actual + bytes.length = declaredSize ∧
      data = if collect then before ++ bytes else before := by
  induction rest : declaredSize - actual using Nat.strongRecOn
    generalizing actual before s with
  | ind rest ih =>
    rw [readMemberLoop] at read
    split at read
    · cases read
    · rename_i end_ last
      obtain ⟨_, exact, result⟩ := bind_eq_ok.mp read
      cases result
      refine ⟨[], .single last, check_eq_ok.mp exact, ?_⟩
      rw [List.append_nil, ite_self]
    · rename_i byte chunk next first
      simp only at read
      split at read
      · cases read
      · split at read
        · cases read
        · rename_i inside
          obtain ⟨bytes, run, length, whole⟩ := ih _ (by omega) read rfl
          refine ⟨byte :: chunk ++ bytes, .head first run, ?_, ?_⟩
          · rw [List.length_append, List.length_cons]
            omega
          · cases collect with
            | false => exact whole
            | true => rw [whole, if_pos rfl, if_pos rfl, if_pos rfl, List.append_assoc]

/-- A padded read returns what it was told to, having taken the declared bytes
and zeros up to a whole number of blocks. -/
theorem readPadded_reads {collect : Bool} {path truncated nonzero : String} {s t : σ}
    (fits : r.Fits)
    (read : readPadded r toIo ioText size collect path truncated nonzero s = .ok (data, t)) :
    ∃ bytes padding, r.Reads s (bytes ++ padding) t ∧ bytes.length = size ∧
      (data = if collect then bytes else []) ∧ (∀ byte ∈ padding, byte = 0) ∧
      padding.length < tarBlockSize ∧ (bytes ++ padding).length % tarBlockSize = 0 := by
  obtain ⟨⟨collected, record⟩, member, rest⟩ := bind_eq_ok.mp read
  obtain ⟨bytes, run, length, whole⟩ := readMemberLoop_reads member
  obtain ⟨below, _⟩ := Checked.Reader.take_reads fits run
  rw [Nat.zero_add] at length
  rw [List.nil_append] at whole
  simp only at rest
  split at rest
  · rename_i aligned
    cases rest
    refine ⟨bytes, [], ?_, length, whole, ?_, by decide, ?_⟩
    · rw [List.append_nil]
      exact below
    · intro byte member
      exact absurd member List.not_mem_nil
    · rw [List.append_nil, length]
      rw [tarBlockSize] at aligned ⊢
      omega
  · obtain ⟨⟨padding, after⟩, filled, rest⟩ := bind_eq_ok.mp rest
    obtain ⟨_, zeros, result⟩ := bind_eq_ok.mp rest
    cases result
    obtain ⟨more, count⟩ := Checked.Reader.readExact_reads fits (mapError_eq_ok.mp filled)
    refine ⟨bytes, padding, below.trans more, length, whole, ?_, ?_, ?_⟩
    · intro byte member
      exact eq_of_beq (List.all_eq_true.mp (check_eq_ok.mp zeros) byte member)
    · rw [tarBlockSize] at count ⊢
      omega
    · rw [List.length_append, length, count]
      rw [tarBlockSize]
      omega

end TarReader

/-- A record of the given size was taken from the stream, with zeros after it up
to the next block, by successful reads. -/
structure TakesRecord (r : Checked.Reader ε UInt8 σ) (left : σ → Stream'.Seq UInt8) (s : σ)
    (size : Nat) (bytes padding : Bytes) (t : σ) : Prop where
  run : r.Reads s (bytes ++ padding) t
  stream : left s = (Stream'.Seq.ofList (bytes ++ padding)).append (left t)
  length : bytes.length = size
  zeros : ∀ byte ∈ padding, byte = 0
  short : padding.length < tarBlockSize
  aligned : (bytes ++ padding).length % tarBlockSize = 0

theorem TarReader.readPadded_takes {collect : Bool} {path truncated nonzero : String} {s t : σ}
    (delivers : r.Delivers left)
    (read : readPadded r toIo ioText size collect path truncated nonzero s = .ok (data, t)) :
    ∃ bytes padding, TakesRecord r left s size bytes padding t ∧
      data = if collect then bytes else [] := by
  obtain ⟨bytes, padding, run, length, whole, zeros, short, aligned⟩ :=
    readPadded_reads delivers.fits read
  exact ⟨bytes, padding, ⟨run, delivers.reads run, length, zeros, short, aligned⟩, whole⟩

/-- Over any reader, whatever pieces it delivers and whatever buffers are
offered: what comes through the limit is a beginning of the stream of at most
that length; the end is reported only at the end of the stream, after all of it;
the limit is reported only on a longer stream, after exactly that many bytes; and
a tar record or member is taken whole, up to the next block, or not returned. -/
theorem decompressed_limit_exact {ε σ : Type} (r : Checked.Reader ε UInt8 σ)
    (left : σ → Stream'.Seq UInt8) (serves : r.Serves left) (toIo : ε → IoError)
    (ioText : IoError → String)
    (inner : σ) (limit : Nat) (sent : Bytes) (s : DecompressedLimit σ)
    (run : (DecompressedLimit.reader r).Reads (.new inner limit) sent s) :
    left inner = (Stream'.Seq.ofList sent).append (left s.inner) ∧
    sent.length ≤ limit ∧
    (∀ size t, (DecompressedLimit.reader r).read s size = .ok ([], t) → 0 < size →
      left inner = Stream'.Seq.ofList sent) ∧
    (∀ size, (DecompressedLimit.reader r).read s size = .error .exceeded →
      sent.length = limit ∧
      ∃ byte rest, left inner = (Stream'.Seq.ofList sent).append (.cons byte rest)) ∧
    (∀ size index data t, TarReader.readTarRecord (DecompressedLimit.reader r)
        (LimitError.toIo toIo) ioText size index s = .ok (data, t) →
      ∃ padding, TakesRecord (DecompressedLimit.reader r) (fun s => left s.inner) s size data
        padding t) ∧
    (∀ size expected path data t, TarReader.readTarMember (DecompressedLimit.reader r)
        (LimitError.toIo toIo) ioText size expected path s = .ok (data, t) →
      ∃ bytes padding, TakesRecord (DecompressedLimit.reader r) (fun s => left s.inner) s size
        bytes padding t ∧ data = if expected then bytes else []) := by
  have limited := DecompressedLimit.reader_serves serves
  have stream : left inner = (Stream'.Seq.ofList sent).append (left s.inner) :=
    limited.toDelivers.reads run
  have count : sent.length + s.remaining = limit :=
    DecompressedLimit.reads_remaining serves.fits run
  refine ⟨stream, by omega, ?_, ?_, ?_, ?_⟩
  · intro size t read room
    have ended : left s.inner = Stream'.Seq.nil := limited.ended _ _ _ read room
    rw [stream, ended, Stream'.Seq.append_nil]
  · intro size read
    obtain ⟨spent, byte, excess, next, below⟩ := DecompressedLimit.read_exceeded read
    refine ⟨by omega, byte, (Stream'.Seq.ofList excess).append (left next), ?_⟩
    rw [stream, serves.takes _ _ _ _ below, Stream'.Seq.ofList_cons, Stream'.Seq.cons_append]
  · intro size index data t read
    obtain ⟨bytes, padding, takes, whole⟩ :=
      TarReader.readPadded_takes limited.toDelivers read
    rw [if_pos rfl] at whole
    rw [whole]
    exact ⟨padding, takes⟩
  · intro size expected path data t read
    exact TarReader.readPadded_takes limited.toDelivers read

/-- Four bytes under a limit of three: after three of them the limit is reported. -/
theorem decompressed_limit_exact_four :
    ([97, 98, 99] : Bytes).length = 3 ∧
      ∃ byte rest, Stream'.Seq.ofList ([97, 98, 99, 100] : Bytes) =
        (Stream'.Seq.ofList [97, 98, 99]).append (.cons byte rest) :=
  (decompressed_limit_exact (Checked.Reader.cursor : Checked.Reader IoError UInt8 Bytes) Stream'.Seq.ofList
    Checked.Reader.cursor_serves id (fun _ => "I/O error") [97, 98, 99, 100] 3 [97, 98, 99] ⟨[100], 0⟩
    (@Checked.Reader.Reads.single _ _ _ (DecompressedLimit.reader Checked.Reader.cursor) _ _ _ 8
      rfl)).2.2.2.1 8 rfl

end Relswap
