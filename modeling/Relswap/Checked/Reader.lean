import Relswap.Checked.Run

/-!
# Readers

A reader hands its elements over piece by piece: each read offers a buffer and
takes at most that much away. `Reads` is a sequence of successful reads with
buffers of any sizes. `Delivers` ties a reader to the stream that is left in it,
which may be infinite, and `Serves` adds that an empty answer means its end.
-/

namespace Checked

variable {ε α σ : Type}

/-- A source that answers a state and a buffer size with a piece. -/
structure Reader (ε α σ : Type) where
  read : σ → Nat → Except ε (List α × σ)

namespace Reader

variable {r : Reader ε α σ} {left : σ → Stream'.Seq α} {s t u : σ} {sent chunk : List α} {size : Nat}

/-- Successive reads that all succeed, and what they hand over together. -/
inductive Reads (r : Reader ε α σ) : σ → List α → σ → Prop where
  | refl (s : σ) : Reads r s [] s
  | tail {s t u : σ} {sent chunk : List α} {size : Nat} :
      Reads r s sent t → r.read t size = .ok (chunk, u) → Reads r s (sent ++ chunk) u

/-- No read hands over more than its buffer holds. -/
def Fits (r : Reader ε α σ) : Prop :=
  ∀ s size chunk t, r.read s size = .ok (chunk, t) → chunk.length ≤ size

/-- Every read takes the beginning of the stream that is left. -/
structure Delivers (r : Reader ε α σ) (left : σ → Stream'.Seq α) : Prop where
  fits : r.Fits
  takes : ∀ s size chunk t, r.read s size = .ok (chunk, t) →
    left s = (Stream'.Seq.ofList chunk).append (left t)

/-- An empty answer to a buffer with room means that the stream is over. -/
structure Serves (r : Reader ε α σ) (left : σ → Stream'.Seq α) : Prop extends Delivers r left where
  ended : ∀ s size t, r.read s size = .ok ([], t) → 0 < size → left s = Stream'.Seq.nil

/-! ## Sequences of reads -/

theorem Reads.single (h : r.read s size = .ok (chunk, t)) : r.Reads s chunk t := .tail (.refl s) h

theorem Reads.trans {more : List α} (first : r.Reads s sent t) (next : r.Reads t more u) :
    r.Reads s (sent ++ more) u := by
  induction next with
  | refl => rwa [List.append_nil]
  | tail _ last ih =>
    rw [← List.append_assoc]
    exact .tail ih last

theorem Reads.head {more : List α} (first : r.read s size = .ok (chunk, t))
    (next : r.Reads t more u) : r.Reads s (chunk ++ more) u := (Reads.single first).trans next

theorem Delivers.reads (delivers : r.Delivers left) (run : r.Reads s sent t) :
    left s = (Stream'.Seq.ofList sent).append (left t) := by
  induction run with
  | refl => rw [Stream'.Seq.ofList_nil, Stream'.Seq.nil_append]
  | tail _ last ih =>
    rw [ih, delivers.takes _ _ _ _ last, Stream'.Seq.ofList_append, Stream'.Seq.append_assoc]

/-! ## A cursor over a list -/

/-- A reader over elements in memory. -/
def cursor : Reader ε α (List α) where
  read s size := .ok (s.take size, s.drop size)

theorem cursor_serves : (cursor : Reader ε α (List α)).Serves Stream'.Seq.ofList where
  fits := by
    intro s size chunk t read
    cases read
    exact List.length_take_le size s
  takes := by
    intro s size chunk t read
    cases read
    rw [← Stream'.Seq.ofList_append, List.take_append_drop]
  ended := by
    intro s size t read room
    obtain ⟨none, -⟩ := Prod.mk.inj (Except.ok.inj read)
    rcases List.take_eq_nil_iff.mp none with zero | nil
    · omega
    · rw [nil, Stream'.Seq.ofList_nil]

/-! ## A reader cut off after a number of elements -/

/-- The state of a reader limited to a number of elements. -/
structure Take (σ : Type) where
  inner : σ
  limit : Nat

/-- At the limit the reader underneath is not asked any more. -/
def take (r : Reader ε α σ) : Reader ε α (Take σ) where
  read s size :=
    if s.limit = 0 then .ok ([], s)
    else do
      let (chunk, inner) ← r.read s.inner (min size s.limit)
      return (chunk, ⟨inner, s.limit - chunk.length⟩)

theorem take_read {s t : Take σ} (read : r.take.read s size = .ok (chunk, t)) :
    (s.limit = 0 ∧ chunk = [] ∧ t = s) ∨
      (0 < s.limit ∧ r.read s.inner (min size s.limit) = .ok (chunk, t.inner) ∧
        t.limit = s.limit - chunk.length) := by
  simp only [take] at read
  split at read
  · rename_i zero
    cases read
    exact .inl ⟨zero, rfl, rfl⟩
  · rename_i positive
    obtain ⟨⟨chunk', inner⟩, below, rest⟩ := Durable.bind_eq_ok.mp read
    cases rest
    exact .inr ⟨Nat.pos_of_ne_zero positive, below, rfl⟩

/-- What a limited reader hands over comes from the reader underneath, and its
limit counts down by it. -/
theorem take_reads {s t : Take σ} (fits : r.Fits) (run : r.take.Reads s sent t) :
    r.Reads s.inner sent t.inner ∧ sent.length + t.limit = s.limit := by
  induction run with
  | refl => exact ⟨.refl _, Nat.zero_add _⟩
  | tail _ last ih =>
    obtain ⟨below, count⟩ := ih
    rcases take_read last with ⟨_, rfl, rfl⟩ | ⟨_, read, left⟩
    · rw [List.append_nil]
      exact ⟨below, count⟩
    · have small := fits _ _ _ _ read
      refine ⟨.tail below read, ?_⟩
      rw [List.length_append]
      omega

/-! ## Filling a buffer -/

/-- Read until a buffer is full. The error is absent when the end comes first. -/
def readExact (r : Reader ε α σ) (s : σ) (count : Nat) : Except (Option ε) (List α × σ) :=
  if count = 0 then .ok ([], s)
  else
    match r.read s count with
    | .error error => .error (some error)
    | .ok ([], _) => .error none
    | .ok (a :: chunk, t) => do
      let (rest, u) ← readExact r t (count - (chunk.length + 1))
      return (a :: chunk ++ rest, u)
termination_by count

theorem readExact_reads (fits : r.Fits) {count : Nat} {data : List α}
    (read : r.readExact s count = .ok (data, u)) : r.Reads s data u ∧ data.length = count := by
  induction count using Nat.strongRecOn generalizing s data with
  | ind count ih =>
    rw [readExact] at read
    split at read
    · rename_i zero
      cases read
      exact ⟨.refl _, zero.symm⟩
    · split at read
      · cases read
      · cases read
      · rename_i a chunk t first
        obtain ⟨⟨rest, u'⟩, next, whole⟩ := Durable.bind_eq_ok.mp read
        cases whole
        have small := fits _ _ _ _ first
        rw [List.length_cons] at small
        obtain ⟨run, length⟩ := ih _ (by omega) next
        refine ⟨.head first run, ?_⟩
        rw [List.length_append, List.length_cons, length]
        omega

end Reader

end Checked
