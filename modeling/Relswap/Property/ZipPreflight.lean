import Relswap.Proof.ZipDirectory

/-!
# The ZIP preflight

The backward scan accepts only an archive whose directory is laid out as its end
record says, within the limits, and every such archive without a comment. No
index, slice or sum goes wrong on the way, and both scans end.
-/

namespace Relswap

open Durable Checked

variable {bytes record window : Bytes} {offset searchStart relative : Nat}

/-- The archive is laid out with its end record at `offset`. -/
def LaidOut (bytes : Bytes) (offset : Nat) : Prop :=
  ∃ zip : ZipLayout, zip.bytes = bytes ∧ zip.offset = offset

namespace ZipLayout

variable (zip : ZipLayout)

theorem drop_offset : zip.bytes.drop zip.offset = zip.record.fixed ++ zip.comment := by
  rw [bytes, List.append_assoc]
  exact List.drop_left' (by rw [List.length_append, offset])

theorem drop_centralStart :
    zip.bytes.drop zip.record.centralStart =
      directory zip.headers ++ (zip.record.fixed ++ zip.comment) := by
  rw [bytes, List.append_assoc, List.append_assoc]
  exact List.drop_left' zip.centralStart.symm

theorem bytes_length :
    zip.bytes.length = zip.offset + eocdSize + zip.record.commentSize := by
  rw [bytes, List.length_append, List.length_append, List.length_append, zip.record.length,
    zip.commentSize, offset]

theorem central_end : zip.record.centralStart + zip.record.centralSize = zip.offset := by
  rw [zip.centralStart, zip.centralSize, offset]

theorem splits :
    Splits zip.bytes zip.offset ⟨zip.record.centralStart, 0, 0⟩ zip.headers := by
  refine ⟨?_, ?_, zip.bounded.names, ?_, ?_⟩
  · rw [zip.drop_centralStart]
    exact List.prefix_append _ _
  · rw [← zip.central_end, zip.centralSize]
  · rw [Nat.zero_add]
    exact zip.bounded.metadata
  · rw [Nat.zero_add]
    exact zip.bounded.members

end ZipLayout

/-! ## One record -/

/-- A record of one disk whose comment ends the archive. -/
def Plausible (bytes : Bytes) (offset : Nat) (record : Bytes) : Prop :=
  offset + eocdSize + shortAt record 20 = bytes.length ∧ shortAt record 4 = 0 ∧
    shortAt record 6 = 0 ∧ shortAt record 8 = shortAt record 10

def Zip64Fields (record : Bytes) : Prop :=
  shortAt record 10 = 2 ^ 16 - 1 ∨ longAt record 12 = 2 ^ 32 - 1 ∨ longAt record 16 = 2 ^ 32 - 1

instance (record : Bytes) : Decidable (Zip64Fields record) :=
  inferInstanceAs (Decidable (_ ∨ _))

/-- The numbers of a record can be read. -/
theorem acceptRecord_reads (bounded : bytes.length < 2 ^ 63) (length : record.length = eocdSize)
    (inside : offset + eocdSize ≤ bytes.length) :
    acceptRecord bytes offset (offset + eocdSize) record =
      if offset + eocdSize + shortAt record 20 ≠ bytes.length ∨ shortAt record 4 ≠ 0 ∨
          shortAt record 6 ≠ 0 ∨ shortAt record 8 ≠ shortAt record 10 then .ok false
      else do
        check (¬ Zip64Fields record)
          (.error (.archive "ZIP64 archives are not supported for release assets"))
        match checkedAdd usizeLimit (longAt record 16) (longAt record 12) with
        | none => return false
        | some centralEnd =>
          if centralEnd ≠ offset then return false
          else
            match ← zipCentralMemberCount bytes (longAt record 16) centralEnd with
            | none => return false
            | some actualMembers =>
              if actualMembers ≠ shortAt record 10 then return false
              else
                check (actualMembers ≤ maxArchiveMembers) (.error (.archive
                  s!"ZIP archive exceeds maximum member count {maxArchiveMembers}"))
                return true := by
  have comment := shortAt_lt record 20
  unfold eocdSize at length
  have sum : offset + eocdSize + shortAt record 20 < usizeLimit := by
    unfold usizeLimit
    omega
  unfold acceptRecord
  rw [readShort_eq (by omega), readShort_eq (by omega), readShort_eq (by omega),
    readShort_eq (by omega), readShort_eq (by omega), readLong_eq (by omega),
    readLong_eq (by omega)]
  simp only [ok_bind, add_eq sum]
  rfl

theorem checkedAdd_long (record : Bytes) :
    checkedAdd usizeLimit (longAt record 16) (longAt record 12) =
      some (longAt record 16 + longAt record 12) := by
  have start := longAt_lt record 16
  have size := longAt_lt record 12
  apply checkedAdd_eq
  rw [usizeLimit]
  omega

theorem acceptRecord_regular (bounded : bytes.length < 2 ^ 63) (length : record.length = eocdSize)
    (inside : offset + eocdSize ≤ bytes.length) :
    Regular (acceptRecord bytes offset (offset + eocdSize) record) := by
  rw [acceptRecord_reads bounded length inside, checkedAdd_long]
  refine Regular.ite (fun _ => regular_ok _) fun _ => (regular_check _).bind fun _ _ => ?_
  refine Regular.ite (fun _ => regular_ok _) fun ends => ?_
  have ends := not_not.mp ends
  have counts := zipCentralMemberCount_spec bounded (Nat.le_add_right (longAt record 16)
    (longAt record 12)) (by omega)
  refine counts.1.bind fun count _ => ?_
  cases count with
  | none => exact regular_ok _
  | some members =>
    exact Regular.ite (fun _ => regular_ok _) fun _ => (regular_check _).bind fun _ _ => regular_ok _

/-- What a record must say to be accepted. -/
theorem acceptRecord_eq_true (bounded : bytes.length < 2 ^ 63) (length : record.length = eocdSize)
    (inside : offset + eocdSize ≤ bytes.length) :
    acceptRecord bytes offset (offset + eocdSize) record = .ok true ↔
      Plausible bytes offset record ∧ ¬ Zip64Fields record ∧
        longAt record 16 + longAt record 12 = offset ∧
        zipCentralMemberCount bytes (longAt record 16) offset = .ok (some (shortAt record 10)) ∧
        shortAt record 10 ≤ maxArchiveMembers := by
  rw [acceptRecord_reads bounded length inside, checkedAdd_long]
  by_cases likely : Plausible bytes offset record
  swap
  · rw [if_pos (by unfold Plausible at likely; tauto)]
    simp [likely]
  rw [if_neg (by unfold Plausible at likely; tauto)]
  simp only [likely, true_and, bind_eq_ok, check_eq_ok]
  constructor
  · intro accepted
    obtain ⟨_, single, accepted⟩ := accepted
    split at accepted
    · cases accepted
    rename_i ends
    have ends := not_not.mp ends
    rw [ends] at accepted
    obtain ⟨count, counted, accepted⟩ := bind_eq_ok.mp accepted
    cases count with
    | none => cases accepted
    | some members =>
      dsimp only at accepted
      split at accepted
      · cases accepted
      rename_i same
      obtain ⟨_, few, _⟩ := bind_eq_ok.mp accepted
      rw [not_not.mp same] at counted few
      exact ⟨single, ends, counted, check_eq_ok.mp few⟩
  · intro accepts
    obtain ⟨single, ends, counted, few⟩ := accepts
    refine ⟨(), single, ?_⟩
    rw [if_neg (not_not_intro ends), ends, counted, ok_bind]
    dsimp only
    rw [if_neg (not_not_intro rfl), check_pass few]
    rfl

/-- A signed record is accepted exactly when the archive is laid out around it. -/
theorem acceptRecord_iff (bounded : bytes.length < 2 ^ 63) (inside : offset + eocdSize ≤ bytes.length)
    (here : record = (bytes.drop offset).take eocdSize) (signed : record.take 4 = eocdSignature) :
    acceptRecord bytes offset (offset + eocdSize) record = .ok true ↔ LaidOut bytes offset := by
  have length : record.length = eocdSize := by
    rw [here, List.length_take, List.length_drop]
    omega
  rw [acceptRecord_eq_true bounded length inside]
  constructor
  · intro accepted
    obtain ⟨⟨comment, disk, centralDisk, members⟩, single, ends, counted, few⟩ := accepted
    have counts := zipCentralMemberCount_spec bounded (Nat.le_add_right (longAt record 16)
      (longAt record 12)) (by omega)
    rw [ends] at counts
    obtain ⟨headers, splits, count⟩ := (counts.2 _ few).mp counted
    have filled := splits.ends
    dsimp only at count filled
    rw [Nat.zero_add] at count
    unfold Zip64Fields at single
    let zip : ZipLayout := {
      before := bytes.take (longAt record 16)
      headers := headers
      record := ⟨record, length, signed, ⟨disk, centralDisk, members⟩, by tauto⟩
      comment := bytes.drop (offset + eocdSize)
      commentSize := by
        change shortAt record 20 = _
        rw [List.length_drop]
        omega
      centralStart := by
        change longAt record 16 = _
        rw [List.length_take]
        omega
      centralSize := by
        change longAt record 12 = _
        omega
      members := count
      bounded := ⟨count ▸ few, splits.names, by
        have metadata := splits.metadata
        rwa [Nat.zero_add] at metadata⟩ }
    have offset_eq : zip.offset = offset := by
      rw [← zip.central_end]
      exact ends
    refine ⟨zip, ?_, offset_eq⟩
    obtain ⟨rest, whole⟩ := splits.here
    have after : rest = bytes.drop offset := by
      rw [← filled, ← List.drop_drop, ← whole, List.drop_left]
    calc zip.bytes
        = bytes.take (longAt record 16) ++ directory headers ++ record ++
            bytes.drop (offset + eocdSize) := rfl
      _ = bytes.take (longAt record 16) ++ (directory headers ++
            (record ++ bytes.drop (offset + eocdSize))) := by
        rw [List.append_assoc, List.append_assoc]
      _ = bytes.take (longAt record 16) ++ (directory headers ++ rest) := by
        rw [here, after, ← List.drop_drop, List.take_append_drop]
      _ = bytes := by rw [whole, List.take_append_drop]
  · intro laid
    obtain ⟨zip, rfl, rfl⟩ := laid
    have same : record = zip.record.fixed := by
      rw [here, zip.drop_offset, List.take_left' zip.record.length]
    have total := zip.bytes_length
    have ends := zip.central_end
    have counts := zipCentralMemberCount_spec bounded (Nat.le_add_right zip.record.centralStart
      zip.record.centralSize) (by omega)
    rw [ends] at counts
    rw [same]
    have few : zip.record.members ≤ maxArchiveMembers := zip.members ▸ zip.bounded.members
    refine ⟨⟨total.symm, zip.record.singleDisk⟩, ?_, ends, ?_, few⟩
    · have single := zip.record.notZip64
      unfold Zip64Fields
      tauto
    · refine (counts.2 _ few).mpr ⟨zip.headers, zip.splits, ?_⟩
      rw [Nat.zero_add]
      exact zip.members

/-! ## The backward scan -/

/-- One pass ends the search exactly at the record of a layout. -/
theorem considerRecord_spec (bounded : bytes.length < 2 ^ 63)
    (inside : searchStart + relative ≤ bytes.length)
    (here : window = (bytes.drop (searchStart + relative)).take 4) :
    Regular (considerRecord bytes searchStart relative window) ∧
      (considerRecord bytes searchStart relative window = .ok true ↔
        LaidOut bytes (searchStart + relative)) := by
  have small : searchStart + relative < usizeLimit := by
    rw [usizeLimit]
    omega
  have small' : searchStart + relative + eocdSize < usizeLimit := by
    rw [usizeLimit, eocdSize]
    omega
  rw [considerRecord]
  by_cases signed : window = eocdSignature
  swap
  · rw [if_pos signed]
    refine ⟨regular_ok _, ?_⟩
    constructor
    · intro accepted
      cases accepted
    · intro laid
      obtain ⟨zip, rfl, same⟩ := laid
      rw [← same, zip.drop_offset, List.take_append_of_le_length (by
        rw [zip.record.length, eocdSize]
        omega)] at here
      exact absurd (here.trans zip.record.signed) signed
  rw [if_neg (not_not_intro signed), add_eq small, ok_bind, add_eq small', ok_bind]
  by_cases room : searchStart + relative + eocdSize ≤ bytes.length
  swap
  · rw [range, if_neg (by omega)]
    refine ⟨regular_ok _, ?_⟩
    constructor
    · intro accepted
      cases accepted
    · intro laid
      obtain ⟨zip, rfl, same⟩ := laid
      have total := zip.bytes_length
      omega
  have found : range bytes (searchStart + relative) (searchStart + relative + eocdSize) =
      some ((bytes.drop (searchStart + relative)).take eocdSize) := by
    rw [range_eq_some, Nat.add_sub_cancel_left]
    exact ⟨by omega, room, rfl⟩
  rw [found]
  have length : ((bytes.drop (searchStart + relative)).take eocdSize).length = eocdSize := by
    rw [List.length_take, List.length_drop]
    omega
  refine ⟨acceptRecord_regular bounded length room, acceptRecord_iff bounded room rfl ?_⟩
  rw [List.take_take, eocdSize, Nat.min_eq_left (by omega), ← here]
  exact signed

/-- The windows that the search is given are those of the archive. -/
def WindowsOf (bytes : Bytes) (searchStart : Nat) (entries : List (Nat × Bytes)) : Prop :=
  ∀ entry ∈ entries, searchStart + entry.1 ≤ bytes.length ∧
    entry.2 = (bytes.drop (searchStart + entry.1)).take 4

theorem WindowsOf.tail {entry : Nat × Bytes} {entries : List (Nat × Bytes)}
    (h : WindowsOf bytes searchStart (entry :: entries)) : WindowsOf bytes searchStart entries :=
  fun other member => h other (List.mem_cons_of_mem _ member)

theorem searchRecord_regular (bounded : bytes.length < 2 ^ 63) {entries : List (Nat × Bytes)}
    (windows : WindowsOf bytes searchStart entries) :
    Regular (searchRecord bytes searchStart entries) := by
  induction entries with
  | nil => exact regular_fail _
  | cons entry rest ih =>
    obtain ⟨inside, here⟩ := windows entry List.mem_cons_self
    refine (considerRecord_spec bounded inside here).1.bind fun accepted _ => ?_
    cases accepted with
    | true => exact regular_ok _
    | false => exact ih windows.tail

theorem searchRecord_sound (bounded : bytes.length < 2 ^ 63) {entries : List (Nat × Bytes)}
    (windows : WindowsOf bytes searchStart entries)
    (accepted : searchRecord bytes searchStart entries = .ok ()) :
    ∃ offset, LaidOut bytes offset := by
  induction entries with
  | nil => cases accepted
  | cons entry rest ih =>
    obtain ⟨inside, here⟩ := windows entry List.mem_cons_self
    obtain ⟨found, considered, accepted⟩ := bind_eq_ok.mp accepted
    cases found with
    | true => exact ⟨_, (considerRecord_spec bounded inside here).2.mp considered⟩
    | false => exact ih windows.tail accepted

/-- Entries without room for an end record are passed over. -/
theorem searchRecord_skip {entries rest : List (Nat × Bytes)} (bounded : bytes.length < 2 ^ 63)
    (late : ∀ entry ∈ entries, searchStart + entry.1 ≤ bytes.length ∧
      bytes.length < searchStart + entry.1 + eocdSize) :
    searchRecord bytes searchStart (entries ++ rest) = searchRecord bytes searchStart rest := by
  induction entries with
  | nil => rfl
  | cons entry entries ih =>
    obtain ⟨inside, short⟩ := late entry List.mem_cons_self
    have considered : considerRecord bytes searchStart entry.1 entry.2 = .ok false := by
      rw [considerRecord]
      split
      · rfl
      · rw [add_eq (by unfold usizeLimit; omega), ok_bind,
          add_eq (by unfold usizeLimit eocdSize; omega), ok_bind, range, if_neg (by omega)]
        rfl
    rw [List.cons_append, searchRecord, considered, ok_bind]
    exact ih fun other member => late other (List.mem_cons_of_mem _ member)

/-! ## The preflight -/

theorem windowsOf_windows {tail : Bytes} (start : searchStart ≤ bytes.length)
    (tail_eq : tail = bytes.drop searchStart) :
    WindowsOf bytes searchStart (windows 4 tail).reverse := by
  intro entry member
  rw [List.mem_reverse, windows, List.mem_map] at member
  obtain ⟨relative, listed, rfl⟩ := member
  rw [List.mem_range, tail_eq, List.length_drop] at listed
  refine ⟨by dsimp only; omega, ?_⟩
  rw [tail_eq, List.drop_drop]

theorem preflight_eq (bytes : Bytes) :
    preflightZipMemberCount bytes =
      searchRecord bytes (bytes.length - (eocdSize + maxComment))
        (windows 4 (bytes.drop (bytes.length - (eocdSize + maxComment)))).reverse := by
  rw [preflightZipMemberCount, dropTo_eq (by omega), ok_bind]

theorem preflight_regular (bounded : bytes.length < 2 ^ 63) :
    Regular (preflightZipMemberCount bytes) := by
  rw [preflight_eq]
  exact searchRecord_regular bounded (windowsOf_windows (by omega) rfl)

theorem preflight_sound (bounded : bytes.length < 2 ^ 63)
    (accepted : preflightZipMemberCount bytes = .ok ()) : ∃ offset, LaidOut bytes offset := by
  rw [preflight_eq] at accepted
  exact searchRecord_sound bounded (windowsOf_windows (by omega) rfl) accepted

/-- The windows of a list, around the last one that leaves room for a record. -/
theorem windows_split {tail : Bytes} (room : eocdSize ≤ tail.length) :
    ∃ early late : List (Nat × Bytes), windows 4 tail =
      early ++ (tail.length - eocdSize, (tail.drop (tail.length - eocdSize)).take 4) :: late ∧
      ∀ entry ∈ late, entry.1 ≤ tail.length ∧ tail.length < entry.1 + eocdSize := by
  rw [eocdSize] at room ⊢
  have count : tail.length + 1 - 4 = tail.length - 22 + (18 + 1) := by omega
  refine ⟨(List.range (tail.length - 22)).map fun start => (start, (tail.drop start).take 4),
    ((List.range 18).map Nat.succ).map fun more =>
      (tail.length - 22 + more, (tail.drop (tail.length - 22 + more)).take 4), ?_, ?_⟩
  · rw [windows, count, List.range_add, List.map_append, List.range_succ_eq_map, List.map_cons,
      List.map_cons, Nat.add_zero, List.map_map, List.map_map, List.map_map]
    rfl
  · intro entry member
    simp only [List.map_map, List.mem_map, List.mem_range, Function.comp_apply] at member
    obtain ⟨index, small, rfl⟩ := member
    dsimp only
    omega

theorem preflight_complete (zip : ZipLayout) (noComment : zip.comment = [])
    (bounded : zip.bytes.length < 2 ^ 63) : preflightZipMemberCount zip.bytes = .ok () := by
  have total := zip.bytes_length
  have empty : zip.record.commentSize = 0 := by rw [zip.commentSize, noComment, List.length_nil]
  rw [preflight_eq]
  generalize search : zip.bytes.length - (eocdSize + maxComment) = searchStart
  have length : (zip.bytes.drop searchStart).length = zip.bytes.length - searchStart :=
    List.length_drop
  obtain ⟨early, late, split, after⟩ : ∃ early late, windows 4 (zip.bytes.drop searchStart) =
      early ++ ((zip.bytes.drop searchStart).length - eocdSize,
        ((zip.bytes.drop searchStart).drop ((zip.bytes.drop searchStart).length - eocdSize)).take
          4) :: late ∧
      ∀ entry ∈ late, entry.1 ≤ (zip.bytes.drop searchStart).length ∧
        (zip.bytes.drop searchStart).length < entry.1 + eocdSize := windows_split (by omega)
  rw [split, List.reverse_append, List.reverse_cons, List.append_assoc,
    searchRecord_skip bounded fun entry member => by
      have bounds := after entry (List.mem_reverse.mp member)
      omega]
  have place : searchStart + ((zip.bytes.drop searchStart).length - eocdSize) = zip.offset := by
    omega
  have here : ((zip.bytes.drop searchStart).drop
      ((zip.bytes.drop searchStart).length - eocdSize)).take 4 =
      (zip.bytes.drop (searchStart + ((zip.bytes.drop searchStart).length - eocdSize))).take 4 := by
    rw [List.drop_drop]
  have accepted := (considerRecord_spec bounded (by omega) here).2.mpr ⟨zip, rfl, place.symm⟩
  rw [List.cons_append, searchRecord, accepted]
  rfl

/-- The preflight is sound and complete: what it accepts is laid out around an end record
within the limits; every such layout without a comment is accepted; and no slice of bytes
makes it go out of range, overflow or run on. -/
theorem zip_preflight_sound_complete :
    (∀ b : Slice, preflightZipMemberCount b.bytes = .ok () →
      ∃ zip : ZipLayout, zip.bytes = b.bytes) ∧
    (∀ (b : Slice) (zip : ZipLayout), zip.bytes = b.bytes → zip.comment = [] →
      preflightZipMemberCount b.bytes = .ok ()) ∧
    ∀ b : Slice, Regular (preflightZipMemberCount b.bytes) := by
  refine ⟨?_, ?_, fun b => preflight_regular b.bounded⟩
  · intro b accepted
    obtain ⟨_, zip, same, _⟩ := preflight_sound b.bounded accepted
    exact ⟨zip, same⟩
  · intro b zip same noComment
    have bounded := b.bounded
    rw [← same] at bounded ⊢
    exact preflight_complete zip noComment bounded

/-- Three bytes of data, one member named `a`, and no comment. -/
def Sample.zipLayout : ZipLayout where
  before := [7, 7, 7]
  headers := [{
    fixed := centralSignature ++ List.replicate 24 0 ++ [1, 0, 0, 0, 0, 0] ++ List.replicate 12 0
    variablePart := [97]
    length := rfl
    signed := rfl
    sized := rfl }]
  record := {
    fixed := eocdSignature ++ [0, 0, 0, 0, 1, 0, 1, 0, 47, 0, 0, 0, 3, 0, 0, 0, 0, 0]
    length := rfl
    signed := rfl
    singleDisk := ⟨rfl, rfl, rfl⟩
    notZip64 := by decide }
  comment := []
  commentSize := rfl
  centralStart := rfl
  centralSize := rfl
  members := rfl
  bounded := ⟨by decide, by decide, by decide⟩

theorem zip_preflight_one_member : preflightZipMemberCount Sample.zipLayout.bytes = .ok () :=
  zip_preflight_sound_complete.2.1 ⟨Sample.zipLayout.bytes, by decide⟩ Sample.zipLayout rfl rfl

end Relswap
