import Relswap.Release.Pax

/-!
# PAX records

A record knows its own length. One pass of the parser goes past a record at the
cursor, and past nothing else.
-/

namespace Relswap

open Durable Checked

variable {data text key value : Bytes} {index cursor limit number : Nat}
variable {overrides next : PaxOverrides}

/-! ## Numbers -/

theorem readDigits_digits (read : readDigits limit number text = some cursor) :
    ∀ byte ∈ text, 48 ≤ byte := by
  induction text generalizing number with
  | nil => simp
  | cons digit rest ih =>
    rw [readDigits] at read
    split at read
    · rename_i digits
      dsimp only at read
      split at read
      · intro byte member
        rcases List.mem_cons.mp member with rfl | member
        · exact digits.1
        · exact ih read byte member
      · cases read
    · cases read

/-- A number is written without a space. -/
theorem parseUnsigned_no_space (read : parseUnsigned limit text = some number) : 32 ∉ text := by
  obtain ⟨decoded, same, read⟩ := Option.bind_eq_some_iff.mp read
  rw [← encodeUtf8_of_decodeUtf8 same] at read
  unfold readUnsigned at read
  intro space
  split at read
  · cases read
  · cases read
  · rcases List.mem_cons.mp space with same | space
    · exact absurd same (by decide)
    · exact absurd (readDigits_digits read 32 space) (by decide)
  · exact absurd (readDigits_digits read 32 space) (by decide)

/-! ## Records -/

/-- A value that the size key can take. -/
def Readable (key value : Bytes) : Prop :=
  key = sizeKey → value ≠ [] → (parseUnsigned (2 ^ 64) value).isSome = true

/-- A record: its length as written, its key and its value. -/
structure PaxRecord where
  text : Bytes
  key : Bytes
  value : Bytes
  length : parseUnsigned usizeLimit text = some (text.length + key.length + value.length + 3)
  plain : 61 ∉ key
  readable : Readable key value

namespace PaxRecord

def bytes (record : PaxRecord) : Bytes :=
  record.text ++ 32 :: (record.key ++ 61 :: (record.value ++ [10]))

theorem bytes_length (record : PaxRecord) :
    record.bytes.length = record.text.length + record.key.length + record.value.length + 3 := by
  simp only [bytes, List.length_append, List.length_cons, List.length_nil]
  omega

end PaxRecord

/-- The overrides after a field of this key and value. -/
def PaxOverrides.set (overrides : PaxOverrides) (key value : Bytes) : PaxOverrides where
  path := if key = pathKey then some (if value = [] then none else some value) else overrides.path
  size := if key = sizeKey then some (if value = [] then none else parseUnsigned (2 ^ 64) value)
    else overrides.size

def PaxRecord.apply (record : PaxRecord) (overrides : PaxOverrides) : PaxOverrides :=
  overrides.set record.key record.value

theorem overridePax_eq (readable : Readable key value) :
    overridePax index overrides key value = .ok (overrides.set key value) := by
  rw [overridePax, PaxOverrides.set]
  by_cases isSize : key = sizeKey
  · have notPath : key ≠ pathKey := by
      rw [isSize]
      decide
    rw [if_neg notPath, if_pos isSize, if_neg notPath, if_pos isSize]
    by_cases empty : value = []
    · rw [if_pos empty, if_pos empty]
      rfl
    · obtain ⟨size, read⟩ := Option.isSome_iff_exists.mp (readable isSize empty)
      rw [if_neg empty, if_neg empty, read]
      rfl
  · rw [if_neg isSize, if_neg isSize]
    split
    · rfl
    · rfl

theorem overridePax_readable (h : overridePax index overrides key value = .ok next) :
    Readable key value := by
  intro isSize nonempty
  unfold overridePax at h
  rw [if_pos isSize, if_neg nonempty] at h
  obtain ⟨size, read, _⟩ := bind_eq_ok.mp h
  rw [orError_eq_ok] at read
  rw [read]
  rfl

theorem overridePax_regular : Regular (overridePax index overrides key value) := by
  rw [overridePax]
  refine Regular.ite (fun _ => Regular.ite (fun _ => regular_ok _) fun _ => ?_) fun _ => regular_ok _
  exact (regular_orError _ _).bind fun _ _ => regular_ok _

/-! ## One pass -/

/-- What stands at the cursor when a record does. -/
theorem PaxRecord.drop_eq {record : PaxRecord} {tail : Bytes}
    (whole : record.bytes ++ tail = data.drop cursor) :
    data.drop cursor =
      record.text ++ 32 :: (record.key ++ 61 :: record.value ++ 10 :: tail) := by
  rw [← whole, bytes]
  simp only [List.append_assoc, List.cons_append, List.nil_append]

/-- A record at the cursor is gone past. -/
theorem paxPass_record (record : PaxRecord) (bounded : data.length < 2 ^ 63)
    (here : record.bytes <+: data.drop cursor) :
    paxPass data index (cursor, overrides) =
      .ok (.inl (cursor + record.bytes.length, record.apply overrides)) := by
  obtain ⟨tail, whole⟩ := here
  have shape := PaxRecord.drop_eq whole
  have size := record.bytes_length
  have total : cursor + (record.bytes.length + tail.length) = data.length := by
    have length := congrArg List.length whole
    rw [List.length_append, List.length_drop] at length
    omega
  have fresh := parseUnsigned_no_space record.length
  have limit : data.length < usizeLimit := by
    rw [usizeLimit]
    omega
  have space : (data.drop cursor).findIdx? (· == 32) = some record.text.length :=
    findIdx?_eq_some_split.mpr ⟨_, _, shape, fresh, rfl⟩
  have text : (data.drop cursor).take (cursor + record.text.length - cursor) = record.text := by
    rw [Nat.add_sub_cancel_left, shape, List.take_left' rfl]
  have inside : (checkedAdd usizeLimit cursor
      (record.text.length + record.key.length + record.value.length + 3)).filter
        (· ≤ data.length) = some (cursor + record.bytes.length) := by
    rw [checkedAdd_eq (by omega), ← size, Option.filter_some, if_pos]
    simp only [decide_eq_true_eq]
    omega
  have last : data[cursor + record.bytes.length - 1]? = some 10 := by
    have place : cursor + record.bytes.length - 1 =
        cursor + (record.text.length + (1 + (record.key ++ 61 :: record.value).length)) := by
      rw [List.length_append, List.length_cons]
      omega
    rw [place, ← List.getElem?_drop, shape, List.getElem?_append_right (by omega),
      Nat.add_sub_cancel_left, Nat.add_comm 1, List.getElem?_cons_succ,
      List.getElem?_append_right (Nat.le_refl _), Nat.sub_self]
    rfl
  have field : (data.drop (cursor + record.text.length + 1)).take
      (cursor + record.bytes.length - 1 - (cursor + record.text.length + 1)) =
      record.key ++ 61 :: record.value := by
    rw [Nat.add_assoc, ← List.drop_drop, shape, ← List.drop_drop, List.drop_left' rfl,
      List.drop_one, List.tail_cons]
    apply List.take_left'
    rw [List.length_append, List.length_cons]
    omega
  have equals : (record.key ++ 61 :: record.value).findIdx? (· == 61) = some record.key.length :=
    findIdx?_eq_some_split.mpr ⟨_, _, rfl, record.plain, rfl⟩
  have values : (record.key ++ 61 :: record.value).drop (record.key.length + 1) = record.value := by
    rw [← List.drop_drop, List.drop_left' rfl, List.drop_one, List.tail_cons]
  have fields : (record.key ++ 61 :: record.value).length =
      record.key.length + record.value.length + 1 := by
    rw [List.length_append, List.length_cons]
    omega
  unfold paxPass
  dsimp only
  rw [if_pos (by omega), dropTo_eq (by omega), ok_bind, space, orError, ok_bind,
    add_eq (by omega), ok_bind, slice_eq (by omega) (by omega), ok_bind, text, record.length,
    orError, ok_bind, inside, orError, ok_bind, add_eq (by omega), ok_bind,
    check_pass (by omega), ok_bind, sub_eq (by omega), ok_bind, Checked.get, last, orError, ok_bind,
    check_pass rfl, ok_bind, slice_eq (by omega) (by omega), ok_bind, field, equals, orError,
    ok_bind, takeTo_eq (by omega), ok_bind, List.take_left' rfl, add_eq (by omega), ok_bind,
    dropTo_eq (by omega), ok_bind, values, overridePax_eq record.readable, ok_bind]
  rfl

/-- Only a record is gone past. -/
theorem paxPass_next {scan' : Nat × PaxOverrides}
    (pass : paxPass data index (cursor, overrides) = .ok (.inl scan')) :
    cursor < data.length ∧ ∃ record : PaxRecord, record.bytes <+: data.drop cursor ∧
      scan' = (cursor + record.bytes.length, record.apply overrides) := by
  unfold paxPass at pass
  dsimp only at pass
  split at pass
  swap
  · cases pass
  rename_i more
  refine ⟨more, ?_⟩
  simp only [bind_eq_ok, dropTo_eq_ok, orError_eq_ok, add_eq_ok, slice_eq_ok, check_eq_ok,
    sub_eq_ok, get_eq_ok, takeTo_eq_ok] at pass
  obtain ⟨rest, ⟨_, rfl⟩, _, space, _, ⟨_, rfl⟩, text, ⟨_, text_eq⟩, length, read, stop, inside,
    _, ⟨_, rfl⟩, _, order, last, ⟨_, last_eq⟩, byte, newline, _, rfl, field, ⟨_, field_eq⟩, _, found,
    key, ⟨_, key_eq⟩, _, ⟨_, rfl⟩, value, ⟨_, value_eq⟩, next, applied, same⟩ := pass
  obtain ⟨before, after, shape, _, rfl⟩ := findIdx?_eq_some_split.mp space
  obtain ⟨name, content, fields, plain, rfl⟩ := findIdx?_eq_some_split.mp found
  rw [Nat.add_sub_cancel_left, shape, List.take_left' rfl] at text_eq
  rw [fields, List.take_left' rfl] at key_eq
  rw [fields, ← List.drop_drop, List.drop_left' rfl, List.drop_one, List.tail_cons] at value_eq
  subst text_eq key_eq value_eq
  obtain ⟨added, fits⟩ := Option.filter_eq_some_iff.mp inside
  obtain ⟨_, rfl⟩ := checkedAdd_eq_some.mp added
  rw [decide_eq_true_eq] at fits
  -- what follows the space is the field, its newline and the rest
  have size := congrArg List.length shape
  rw [List.length_drop, List.length_append, List.length_cons] at size
  have behind : data.drop (cursor + before.length + 1) = after := by
    rw [Nat.add_assoc, ← List.drop_drop, shape, ← List.drop_drop, List.drop_left' rfl,
      List.drop_one, List.tail_cons]
  rw [behind] at field_eq
  have count := congrArg List.length field_eq
  rw [List.length_take, fields, List.length_append, List.length_cons] at count
  have newline' : after[last - (cursor + before.length + 1)]? = some 10 := by
    rw [← behind, List.getElem?_drop, ← newline]
    congr 1
    omega
  obtain ⟨place, ten⟩ := List.getElem?_eq_some_iff.mp newline'
  have tail := List.drop_eq_getElem_cons place
  rw [ten] at tail
  have whole := List.take_append_drop (last - (cursor + before.length + 1)) after
  rw [field_eq, tail, fields] at whole
  generalize after.drop (last - (cursor + before.length + 1) + 1) = rest at whole
  obtain ⟨record, text_eq, key_eq, value_eq⟩ : ∃ record : PaxRecord, record.text = before ∧
      record.key = name ∧ record.value = content :=
    ⟨⟨before, name, content, read.trans (congrArg some (by omega)), plain,
      overridePax_readable applied⟩, rfl, rfl, rfl⟩
  subst text_eq key_eq value_eq
  refine ⟨record, ?_, ?_⟩
  · refine ⟨rest, ?_⟩
    rw [shape, ← whole, PaxRecord.bytes]
    simp only [List.append_assoc, List.cons_append, List.nil_append]
  · rw [overridePax_eq record.readable] at applied
    obtain rfl := Except.ok.inj applied
    rw [pure_eq_ok, Sum.inl.injEq] at same
    rw [← same, record.bytes_length]
    refine Prod.ext_iff.mpr ⟨?_, rfl⟩
    dsimp only
    omega

theorem paxPass_end (finished : data.length ≤ cursor) :
    paxPass data index (cursor, overrides) = .ok (.inr overrides) := by
  unfold paxPass
  dsimp only
  rw [if_neg (by omega)]
  rfl

theorem paxPass_done {result : PaxOverrides}
    (pass : paxPass data index (cursor, overrides) = .ok (.inr result)) :
    data.length ≤ cursor ∧ result = overrides := by
  unfold paxPass at pass
  dsimp only at pass
  split at pass
  · simp only [bind_eq_ok, pure_eq_ok, reduceCtorEq, and_false, exists_false] at pass
  · rename_i finished
    cases pass
    exact ⟨not_lt.mp finished, rfl⟩

theorem paxPass_regular (bounded : data.length < 2 ^ 63) :
    Regular (paxPass data index (cursor, overrides)) := by
  have limit : data.length < usizeLimit := by
    rw [usizeLimit]
    omega
  unfold paxPass
  dsimp only
  refine Regular.ite (fun more => ?_) fun _ => regular_ok _
  rw [dropTo_eq (by omega), ok_bind]
  refine (regular_orError _ _).bind fun relative space => ?_
  obtain ⟨before, after, shape, _, rfl⟩ := findIdx?_eq_some_split.mp (orError_eq_ok.mp space)
  have size := congrArg List.length shape
  rw [List.length_drop, List.length_append, List.length_cons] at size
  rw [add_eq (by omega), ok_bind, slice_eq (by omega) (by omega), ok_bind]
  refine (regular_orError _ _).bind fun length _ => (regular_orError _ _).bind fun stop inside => ?_
  obtain ⟨_, fits⟩ := Option.filter_eq_some_iff.mp (orError_eq_ok.mp inside)
  rw [decide_eq_true_eq] at fits
  rw [add_eq (by omega), ok_bind]
  refine (regular_check _).bind fun _ order => ?_
  have order := check_eq_ok.mp order
  have last : stop - 1 < data.length := by omega
  rw [sub_eq (by omega), ok_bind, get_eq last, ok_bind]
  refine (regular_check _).bind fun _ _ => ?_
  rw [slice_eq (by omega) (by omega), ok_bind]
  refine (regular_orError _ _).bind fun equals found => ?_
  obtain ⟨name, content, fields, _, rfl⟩ := findIdx?_eq_some_split.mp (orError_eq_ok.mp found)
  have count := congrArg List.length fields
  rw [List.length_take, List.length_drop, List.length_append, List.length_cons] at count
  have place : name.length + 1 ≤ ((data.drop (cursor + before.length + 1)).take
      (stop - 1 - (cursor + before.length + 1))).length := by
    rw [List.length_take, List.length_drop]
    omega
  rw [takeTo_eq (by omega), ok_bind, add_eq (by omega), ok_bind, dropTo_eq place, ok_bind]
  exact overridePax_regular.bind fun _ _ => regular_ok _

end Relswap
