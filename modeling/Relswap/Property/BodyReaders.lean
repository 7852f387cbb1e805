import Relswap.Release.BodyReader

/-!
# The two body readers agree

Reading with and without an observer accepts the same bodies, whatever pieces
the transport delivers them in. The invariant of the chunk loop is that the
bytes received so far are what the limited reader has handed over, and that the
observer has seen growing counts up to their number.
-/

namespace Relswap

open Durable Checked

variable {ε σ : Type} {display : ε → String} {body : Body ε σ} {content : Bytes}
  {total : Option Nat} {maxBytes fuel : Nat}

/-- The transport delivers the body in order. A limited reader ends normally at
the end of a shorter body, and fails or stops at its limit on any other. -/
structure Body.Holds (body : Body ε σ) (content : Bytes) : Prop where
  fits : body.reader.Fits
  inOrder : ∀ limit sent s, body.reader.Reads (body.start limit) sent s → sent <+: content
  within : ∀ limit sent s, body.reader.Reads (body.start limit) sent s → sent.length ≤ limit
  stops : ∀ limit sent s size t, body.reader.Reads (body.start limit) sent s →
    body.reader.read s size = .ok ([], t) → 0 < size → sent = content ∨ sent.length = limit
  fails : ∀ limit sent s size error, body.reader.Reads (body.start limit) sent s →
    body.reader.read s size = .error error → limit ≤ content.length
  vecInOrder : ∀ limit bytes, body.readToVec limit = .ok bytes → bytes <+: content
  vecStops : ∀ limit bytes, body.readToVec limit = .ok bytes →
    bytes = content ∨ bytes.length = limit
  vecFails : ∀ limit error, body.readToVec limit = .error error → limit ≤ content.length

/-- What an observer sees of a transfer: zero first, then strictly growing counts
up to the given one, each with the declared total. -/
structure Observed (total : Option Nat) (count : Nat) (seen : List (Nat × Option Nat)) :
    Prop where
  first : seen.head? = some (0, total)
  growing : (seen.map Prod.fst).Pairwise (· < ·)
  last : seen.getLast? = some (count, total)
  totals : ∀ call ∈ seen, call.2 = total

theorem Observed.start (total : Option Nat) : Observed total 0 [(0, total)] where
  first := rfl
  growing := List.pairwise_singleton _ _
  last := rfl
  totals := by simp

/-- A larger count may follow. -/
theorem Observed.advance {count next : Nat} {seen : List (Nat × Option Nat)}
    (observed : Observed total count seen) (larger : count < next) :
    Observed total next (seen ++ [(next, total)]) where
  first := by rw [List.head?_append, observed.first, Option.some_or]
  growing := by
    rw [List.map_append, List.pairwise_append]
    refine ⟨observed.growing, List.pairwise_singleton _ _, ?_⟩
    intro a before b after
    rw [List.mem_singleton.mp after]
    obtain ⟨front, split⟩ := List.getLast?_eq_some_iff.mp observed.last
    rw [split, List.map_append, List.mem_append] at before
    rcases before with early | final
    · have below := observed.growing
      rw [split, List.map_append, List.pairwise_append] at below
      exact lt_trans (below.2.2 a early count (by simp)) larger
    · rw [List.mem_singleton.mp final]
      exact larger
  last := List.getLast?_concat
  totals := by
    intro call member
    rcases List.mem_append.mp member with early | final
    · exact observed.totals call early
    · rw [List.mem_singleton.mp final]

/-- The invariant of the chunk loop. -/
structure Receives (body : Body ε σ) (limit : Nat) (total : Option Nat)
    (state : Receiving σ) : Prop where
  run : body.reader.Reads (body.start limit) state.bytes state.reader
  observed : Observed total state.bytes.length state.seen

/-- How the chunk loop ends: with all of the body or as much as the limit
allows, or with an error on a body that reaches the limit. -/
def EndsReceiving (content : Bytes) (limit : Nat) (total : Option Nat) :
    Run ReleaseError (Bytes × List (Nat × Option Nat)) → Prop
  | .ok (bytes, seen) => bytes <+: content ∧ (bytes = content ∨ bytes.length = limit) ∧
      Observed total bytes.length seen
  | .error fault => (∃ error, fault = .error error) ∧ limit ≤ content.length

theorem observePass_cases {state : Receiving σ} {limit : Nat} (holds : body.Holds content)
    (receives : Receives body limit total state) (display : ε → String) :
    match observePass display body.reader total state with
    | .ok (.inl next) => Receives body limit total next ∧
        limit - next.bytes.length < limit - state.bytes.length
    | .ok (.inr result) => EndsReceiving content limit total (.ok result)
    | .error fault => EndsReceiving content limit total (.error fault) := by
  rw [observePass]
  split
  · rename_i result step
    split at step
    · cases step
    · rename_i chunk next read
      split at step
      · cases step
      · rename_i nonempty
        cases step
        have run := receives.run.tail read
        have small := holds.within _ _ _ run
        rw [List.length_append] at small
        refine ⟨⟨run, ?_⟩, ?_⟩
        · rw [List.length_append]
          exact receives.observed.advance (by omega)
        · rw [List.length_append]
          omega
  · rename_i result step
    split at step
    · cases step
    · rename_i chunk next read
      split at step
      · rename_i empty
        rw [List.length_eq_zero_iff] at empty
        subst empty
        cases step
        exact ⟨holds.inOrder _ _ _ receives.run,
          holds.stops _ _ _ _ _ receives.run read (by decide), receives.observed⟩
      · cases step
  · rename_i fault step
    split at step
    · rename_i error read
      exact ⟨⟨_, (Except.error.inj step).symm⟩, holds.fails _ _ _ _ _ receives.run read⟩
    · split at step <;> cases step

theorem receiving_ends {limit : Nat} (holds : body.Holds content) (enough : limit < fuel)
    (display : ε → String) (total : Option Nat) :
    EndsReceiving content limit total (loop (observePass display body.reader total) fuel
      ⟨body.start limit, [], [(0, total)]⟩) := by
  apply loop_rule (Receives body limit total) (fun state => limit - state.bytes.length)
    (fun _ result => EndsReceiving content limit total result)
  · intro s next receives step
    have cases := observePass_cases holds receives display
    rw [step] at cases
    exact ⟨cases.1, cases.2, fun _ post => post⟩
  · intro s result receives step
    have cases := observePass_cases holds receives display
    rw [step] at cases
    exact cases
  · intro s fault receives step
    have cases := observePass_cases holds receives display
    rw [step] at cases
    exact cases
  · exact ⟨.refl _, .start total⟩
  · exact Nat.lt_of_le_of_lt (Nat.sub_le _ _) enough

/-- What was read past the accepted size tells a body that fits from one that does not. -/
theorem fits_iff {bytes : Bytes} (inOrder : bytes <+: content)
    (whole : bytes = content ∨ bytes.length = maxBytes + 1) :
    (bytes.length ≤ maxBytes ↔ content.length ≤ maxBytes) ∧
      (content.length ≤ maxBytes → bytes = content) := by
  have shorter := inOrder.length_le
  rcases whole with rfl | reached
  · exact ⟨Iff.rfl, fun _ => rfl⟩
  · refine ⟨by omega, ?_⟩
    intro fits
    omega

/-- A body that fits is returned whole, after growing counts up to its length. -/
theorem observed_returns (holds : body.Holds content) (limited : maxBytes + 1 < usizeLimit)
    (allocates : bodyCapacity maxBytes total ≤ isizeMax) (enough : maxBytes + 1 < fuel)
    (fits : content.length ≤ maxBytes) :
    ∃ seen, readResponseBodyObserved display maxBytes body total fuel = .ok (content, seen) ∧
      Observed total content.length seen := by
  have ends := receiving_ends holds enough display total
  have limit : progressReadLimit maxBytes = .ok (maxBytes + 1) :=
    progressReadLimit_eq_ok.mpr ⟨limited, rfl⟩
  have capacity : withCapacity (bodyCapacity maxBytes total) = .ok [] := if_pos allocates
  simp only [readResponseBodyObserved, limit, Except.mapError, capacity, ok_bind]
  match received : loop (observePass display body.reader total) fuel
      ⟨body.start (maxBytes + 1), [], [(0, total)]⟩ with
  | .error fault =>
    rw [received] at ends
    have long : maxBytes + 1 ≤ content.length := ends.2
    omega
  | .ok (bytes, seen) =>
    rw [received] at ends
    obtain ⟨inOrder, whole, observed⟩ := ends
    obtain rfl := (fits_iff inOrder whole).2 fits
    rw [ok_bind, check_pass fits, ok_bind]
    exact ⟨seen, rfl, observed⟩

/-- A body that does not fit ends in an error. -/
theorem observed_refuses (holds : body.Holds content)
    (allocates : bodyCapacity maxBytes total ≤ isizeMax) (enough : maxBytes + 1 < fuel)
    (refused : ¬ (maxBytes + 1 < usizeLimit ∧ content.length ≤ maxBytes)) :
    ∃ error, readResponseBodyObserved display maxBytes body total fuel =
      .error (.error error) := by
  by_cases limited : maxBytes + 1 < usizeLimit
  · have ends := receiving_ends holds enough display total
    have limit : progressReadLimit maxBytes = .ok (maxBytes + 1) :=
      progressReadLimit_eq_ok.mpr ⟨limited, rfl⟩
    have capacity : withCapacity (bodyCapacity maxBytes total) = .ok [] := if_pos allocates
    simp only [readResponseBodyObserved, limit, Except.mapError, capacity, ok_bind]
    match received : loop (observePass display body.reader total) fuel
        ⟨body.start (maxBytes + 1), [], [(0, total)]⟩ with
    | .error fault =>
      rw [received] at ends
      obtain ⟨error, rfl⟩ := ends.1
      exact ⟨error, rfl⟩
    | .ok (bytes, seen) =>
      rw [received] at ends
      obtain ⟨inOrder, whole, _⟩ := ends
      have long : ¬ bytes.length ≤ maxBytes := by
        rw [(fits_iff inOrder whole).1]
        exact fun fits => refused ⟨limited, fits⟩
      rw [ok_bind, check_fail long]
      exact ⟨_, rfl⟩
  · rw [readResponseBodyObserved, progressReadLimit_eq_error (Nat.le_of_not_lt limited)]
    exact ⟨_, rfl⟩

theorem plain_returns (holds : body.Holds content) (limited : maxBytes + 1 < usizeLimit)
    (fits : content.length ≤ maxBytes) :
    readResponseBody display maxBytes body.readToVec = .ok content := by
  have limit : progressReadLimit maxBytes = .ok (maxBytes + 1) :=
    progressReadLimit_eq_ok.mpr ⟨limited, rfl⟩
  simp only [readResponseBody, limit, ok_bind]
  match received : body.readToVec (maxBytes + 1) with
  | .error error =>
    have long := holds.vecFails _ _ received
    omega
  | .ok bytes =>
    obtain rfl := (fits_iff (holds.vecInOrder _ _ received)
      (holds.vecStops _ _ received)).2 fits
    rw [Except.mapError, ok_bind, check_pass fits, ok_bind]
    rfl

theorem plain_refuses (holds : body.Holds content)
    (refused : ¬ (maxBytes + 1 < usizeLimit ∧ content.length ≤ maxBytes)) :
    ∃ error, readResponseBody display maxBytes body.readToVec = .error error := by
  by_cases limited : maxBytes + 1 < usizeLimit
  · have limit : progressReadLimit maxBytes = .ok (maxBytes + 1) :=
      progressReadLimit_eq_ok.mpr ⟨limited, rfl⟩
    simp only [readResponseBody, limit, ok_bind]
    match received : body.readToVec (maxBytes + 1) with
    | .error error => exact ⟨_, rfl⟩
    | .ok bytes =>
      have long : ¬ bytes.length ≤ maxBytes := by
        rw [(fits_iff (holds.vecInOrder _ _ received) (holds.vecStops _ _ received)).1]
        exact fun fits => refused ⟨limited, fits⟩
      rw [Except.mapError, ok_bind, check_fail long]
      exact ⟨_, rfl⟩
  · rw [readResponseBody, progressReadLimit_eq_error (Nat.le_of_not_lt limited)]
    exact ⟨_, rfl⟩

/-- Whatever pieces two transfers of one body come in, both readers return the
whole body when it has at most the accepted size, and an error otherwise. The
size `usize::MAX` has no read limit past it and is refused for every body. -/
theorem body_readers_agree {ε σ τ : Type} (display : ε → String) (observed : Body ε σ)
    (plain : Body ε τ) (content : Bytes) (total : Option Nat) (maxBytes fuel : Nat)
    (holds : observed.Holds content) (holds' : plain.Holds content)
    (allocates : bodyCapacity maxBytes total ≤ isizeMax) (enough : maxBytes + 1 < fuel) :
    (maxBytes + 1 < usizeLimit ∧ content.length ≤ maxBytes →
      readResponseBody display maxBytes plain.readToVec = .ok content ∧
      ∃ seen, readResponseBodyObserved display maxBytes observed total fuel =
          .ok (content, seen) ∧
        Observed total content.length seen) ∧
    (¬ (maxBytes + 1 < usizeLimit ∧ content.length ≤ maxBytes) →
      (∃ error, readResponseBody display maxBytes plain.readToVec = .error error) ∧
      ∃ error, readResponseBodyObserved display maxBytes observed total fuel =
        .error (.error error)) := by
  constructor
  · intro accepted
    exact ⟨plain_returns holds' accepted.1 accepted.2,
      observed_returns holds accepted.1 allocates enough accepted.2⟩
  · intro refused
    exact ⟨plain_refuses holds' refused, observed_refuses holds allocates enough refused⟩

/-! ## A transport -/

/-- A body in memory, delivered in pieces of at most the given size. At its limit
the reader fails, as the reader of the transport does. -/
def Body.inMemory (content : Bytes) (piece : Nat) : Body String (Nat × Bytes) where
  reader := {
    read := fun s size =>
      if s.1 = 0 then .error "larger than request limit"
      else
        let count := min (min size (piece + 1)) s.1
        .ok (s.2.take count, s.1 - (s.2.take count).length, s.2.drop count) }
  start limit := (limit, content)
  readToVec limit :=
    if content.length < limit then .ok content else .error "larger than request limit"

theorem Body.inMemory_read {content : Bytes} {piece size : Nat} {s t : Nat × Bytes}
    {chunk : Bytes} (read : (inMemory content piece).reader.read s size = .ok (chunk, t)) :
    0 < s.1 ∧ chunk = s.2.take (min (min size (piece + 1)) s.1) ∧ s.2 = chunk ++ t.2 ∧
      s.1 = chunk.length + t.1 := by
  simp only [inMemory] at read
  split at read
  · cases read
  · rename_i positive
    cases read
    refine ⟨Nat.pos_of_ne_zero positive, rfl, (List.take_append_drop _ _).symm, ?_⟩
    have small := List.length_take_le (min (min size (piece + 1)) s.1) s.2
    omega

theorem Body.inMemory_reads {content : Bytes} {piece limit : Nat} {sent : Bytes}
    {s : Nat × Bytes}
    (run : (inMemory content piece).reader.Reads ((inMemory content piece).start limit) sent s) :
    content = sent ++ s.2 ∧ limit = sent.length + s.1 := by
  induction run with
  | refl => exact ⟨rfl, (Nat.zero_add _).symm⟩
  | tail _ last ih =>
    obtain ⟨_, _, pieces, count⟩ := inMemory_read last
    rw [List.append_assoc, ← pieces, List.length_append, Nat.add_assoc, ← count]
    exact ih

theorem Body.inMemory_holds (content : Bytes) (piece : Nat) :
    (inMemory content piece).Holds content where
  fits := by
    intro s size chunk t read
    rw [(inMemory_read read).2.1]
    exact le_trans (List.length_take_le _ _) (by omega)
  inOrder := by
    intro limit sent s run
    exact ⟨s.2, (inMemory_reads run).1.symm⟩
  within := by
    intro limit sent s run
    have count := (inMemory_reads run).2
    omega
  stops := by
    intro limit sent s size t run read room
    obtain ⟨positive, empty, _, _⟩ := inMemory_read read
    have none : s.2 = [] := by
      rcases List.take_eq_nil_iff.mp empty.symm with zero | nil
      · omega
      · exact nil
    left
    rw [(inMemory_reads run).1, none, List.append_nil]
  fails := by
    intro limit sent s size error run read
    simp only [inMemory] at read
    split at read
    · rename_i zero
      obtain ⟨whole, count⟩ := inMemory_reads run
      rw [whole, List.length_append]
      omega
    · cases read
  vecInOrder := by
    intro limit bytes read
    simp only [inMemory] at read
    split at read <;> cases read
    exact List.prefix_rfl
  vecStops := by
    intro limit bytes read
    simp only [inMemory] at read
    split at read <;> cases read
    exact .inl rfl
  vecFails := by
    intro limit error read
    simp only [inMemory] at read
    split at read
    · cases read
    · omega

/-- Three bytes in pieces of two and of one, under a limit of three. -/
theorem body_readers_agree_three :
    readResponseBody id 3 (Body.inMemory [7, 8, 9] 1).readToVec = .ok [7, 8, 9] ∧
    ∃ seen, readResponseBodyObserved id 3 (Body.inMemory [7, 8, 9] 0) (some 3) 5 =
        .ok ([7, 8, 9], seen) ∧
      Observed (some 3) 3 seen :=
  (body_readers_agree id (Body.inMemory [7, 8, 9] 0) (Body.inMemory [7, 8, 9] 1) [7, 8, 9]
    (some 3) 3 5 (Body.inMemory_holds _ _) (Body.inMemory_holds _ _) (by decide)
    (by decide)).1 (by decide)

/-- The empty body is refused when `usize::MAX` bytes are accepted, and one byte
below that the declared length makes the observed reader panic. -/
theorem body_readers_differ :
    (Body.inMemory [] 0).Holds [] ∧
    readResponseBody id (2 ^ 64 - 1) (Body.inMemory [] 0).readToVec =
      .error (.download "download size limit overflow") ∧
    readResponseBody id (2 ^ 64 - 2) (Body.inMemory [] 0).readToVec = .ok [] ∧
    ∀ fuel, readResponseBodyObserved id (2 ^ 64 - 2) (Body.inMemory [] 0)
      (some (2 ^ 64 - 1)) fuel = .error .overflow := by
  refine ⟨Body.inMemory_holds [] 0, rfl, rfl, ?_⟩
  intro fuel
  rfl

end Relswap
