import Relswap.Proof.Pax

/-!
# What a PAX header says

A header is accepted exactly when it is a sequence of records, and then yields
the last path and the last size. Headers that follow one another say what their
concatenation says.
-/

namespace Relswap

open Durable Checked

variable {data : Bytes} {index : Nat} {scan : Nat × PaxOverrides} {records : List PaxRecord}

/-! ## The records of a header -/

namespace PaxRecord

/-- The bytes of a header. -/
def header (records : List PaxRecord) : Bytes := records.flatMap bytes

/-- The value that the last record of a key carries. -/
def lastValue (key : Bytes) (records : List PaxRecord) : Option Bytes :=
  (records.filter fun record => record.key == key).getLast?.map PaxRecord.value

/-- The last path and the last size; an empty value clears. -/
def overrides (records : List PaxRecord) : PaxOverrides where
  path := (lastValue pathKey records).map fun value => if value = [] then none else some value
  size := (lastValue sizeKey records).map fun value =>
    if value = [] then none else parseUnsigned (2 ^ 64) value

@[simp] theorem header_nil : header [] = [] := rfl

@[simp] theorem header_cons (record : PaxRecord) (records : List PaxRecord) :
    header (record :: records) = record.bytes ++ header records := List.flatMap_cons

@[simp] theorem header_append (first second : List PaxRecord) :
    header (first ++ second) = header first ++ header second := List.flatMap_append

theorem lastValue_append (key : Bytes) (first second : List PaxRecord) :
    lastValue key (first ++ second) = (lastValue key second).or (lastValue key first) := by
  simp only [lastValue]
  rw [List.filter_append, List.getLast?_append]
  cases (second.filter fun record => record.key == key).getLast? <;> rfl

theorem lastValue_one (key : Bytes) (record : PaxRecord) :
    lastValue key [record] = if record.key = key then some record.value else none := by
  rw [lastValue]
  by_cases same : record.key = key
  · rw [List.filter_cons_of_pos (by simpa using same), if_pos same]
    rfl
  · rw [List.filter_cons_of_neg (by simpa using same), if_neg same]
    rfl

theorem overrides_snoc (records : List PaxRecord) (record : PaxRecord) :
    overrides (records ++ [record]) = record.apply (overrides records) := by
  rw [overrides, apply, PaxOverrides.set]
  rw [lastValue_append, lastValue_append, lastValue_one, lastValue_one]
  congr 1
  · split
    · rfl
    · rfl
  · split
    · rfl
    · rfl

/-- The records read one after the other. -/
theorem overrides_eq_foldl (records : List PaxRecord) :
    records.foldl (fun overrides record => record.apply overrides) .default = overrides records := by
  induction records using List.reverseRecOn with
  | nil => rfl
  | append_singleton records record ih =>
    rw [List.foldl_append, ih, overrides_snoc]
    rfl

end PaxRecord

/-! ## The parser -/

/-- A regular run that returns what the records from the cursor on say. -/
def Parses (data : Bytes) (scan : Nat × PaxOverrides) (result : ArchiveRun PaxOverrides) : Prop :=
  Regular result ∧ ∀ overrides, result = .ok overrides ↔
    ∃ records, data.drop scan.1 = PaxRecord.header records ∧
      overrides = records.foldl (fun overrides record => record.apply overrides) scan.2

theorem parses_finished (finished : data.length ≤ scan.1) : Parses data scan (.ok scan.2) := by
  refine ⟨regular_ok _, fun overrides => ?_⟩
  rw [List.drop_eq_nil_of_le finished, Except.ok.injEq]
  constructor
  · intro same
    exact ⟨[], rfl, same.symm⟩
  · intro parsed
    obtain ⟨records, empty, rfl⟩ := parsed
    cases records with
    | nil => rfl
    | cons record records =>
      have length := congrArg List.length empty
      rw [PaxRecord.header_cons, List.length_append, record.bytes_length, List.length_nil] at length
      omega

theorem parses_past {scan' : Nat × PaxOverrides} {result : ArchiveRun PaxOverrides}
    (bounded : data.length < 2 ^ 63) (pass : paxPass data index scan = .ok (.inl scan'))
    (rest : Parses data scan' result) : Parses data scan result := by
  refine ⟨rest.1, fun overrides => (rest.2 overrides).trans ?_⟩
  obtain ⟨more, record, here, rfl⟩ := paxPass_next pass
  constructor
  · intro parsed
    obtain ⟨records, behind, rfl⟩ := parsed
    refine ⟨record :: records, ?_, rfl⟩
    obtain ⟨tail, whole⟩ := here
    rw [← List.drop_drop, ← whole, List.drop_left' rfl] at behind
    rw [PaxRecord.header_cons, ← behind, whole]
  · intro parsed
    obtain ⟨records, whole, rfl⟩ := parsed
    cases records with
    | nil =>
      have length := congrArg List.length whole
      rw [List.length_drop, PaxRecord.header_nil, List.length_nil] at length
      omega
    | cons other records =>
      rw [PaxRecord.header_cons] at whole
      have here' : other.bytes <+: data.drop scan.1 := ⟨_, whole.symm⟩
      -- the pass determines where the record ends and what it says
      have pass' : paxPass data index scan = .ok (.inl _) := paxPass_record other bounded here'
      rw [pass, Except.ok.injEq, Sum.inl.injEq, Prod.mk.injEq] at pass'
      refine ⟨records, ?_, ?_⟩
      · rw [pass'.1, ← List.drop_drop, whole, List.drop_left' rfl]
      · rw [List.foldl_cons, pass'.2]

theorem paxOverrides_spec (bounded : data.length < 2 ^ 63) (index : Nat) :
    Parses data (0, .default) (paxOverrides data index) := by
  refine loop_rule (fun scan => scan.1 ≤ data.length) (fun scan => data.length - scan.1)
    (Parses data) ?_ ?_ ?_ _ _ (Nat.zero_le _) (Nat.lt_succ_self _)
  · intro scan scan' inside pass
    obtain ⟨more, record, here, rfl⟩ := paxPass_next pass
    have size := record.bytes_length
    have room := here.length_le
    rw [List.length_drop] at room
    refine ⟨?_, ?_, fun result rest => parses_past bounded pass rest⟩
    · dsimp only
      omega
    · dsimp only
      omega
  · intro scan result inside pass
    obtain ⟨finished, rfl⟩ := paxPass_done pass
    exact parses_finished finished
  · intro scan fault inside pass
    obtain ⟨error, rfl⟩ := paxPass_regular bounded fault pass
    refine ⟨regular_fail error, fun overrides => ?_⟩
    constructor
    · intro parsed
      cases parsed
    · intro parsed
      obtain ⟨records, whole, _⟩ := parsed
      cases records with
      | nil =>
        have finished : data.length ≤ scan.1 := List.drop_eq_nil_iff.mp whole
        have ended : paxPass data index scan = .ok (.inr scan.2) := paxPass_end finished
        rw [pass] at ended
        cases ended
      | cons record records =>
        rw [PaxRecord.header_cons] at whole
        have here : record.bytes <+: data.drop scan.1 := ⟨_, whole.symm⟩
        have pass' : paxPass data index scan = .ok (.inl _) := paxPass_record record bounded here
        rw [pass] at pass'
        cases pass'

theorem paxOverrides_eq_ok (bounded : data.length < 2 ^ 63) {overrides : PaxOverrides} :
    paxOverrides data index = .ok overrides ↔
      ∃ records, data = PaxRecord.header records ∧ overrides = PaxRecord.overrides records := by
  rw [(paxOverrides_spec bounded index).2, List.drop_zero]
  simp only [PaxRecord.overrides_eq_foldl]

/-! ## Headers that follow one another -/

/-- The overrides of one header and then another. -/
def PaxOverrides.followedBy (first second : PaxOverrides) : PaxOverrides where
  path := second.path.or first.path
  size := second.size.or first.size

theorem PaxRecord.overrides_append (first second : List PaxRecord) :
    overrides (first ++ second) = (overrides first).followedBy (overrides second) := by
  simp only [overrides, PaxOverrides.followedBy]
  rw [lastValue_append, lastValue_append, Option.map_or, Option.map_or]

theorem OwnedPaxOverrides.update_followedBy (owned : OwnedPaxOverrides)
    (first second : PaxOverrides) :
    owned.update (first.followedBy second) = (owned.update first).update second := by
  simp only [update, PaxOverrides.followedBy]
  rw [Option.getD_or, Option.getD_or]

theorem OwnedPaxOverrides.update_nil (owned : OwnedPaxOverrides) :
    owned.update (PaxRecord.overrides []) = owned := rfl

/-- A global header and what it says. -/
structure GlobalPax where
  data : Bytes
  index : Nat
  overrides : PaxOverrides
  parsed : paxOverrides data index = .ok overrides

theorem globals_parse (globals : List GlobalPax)
    (bounded : (globals.flatMap GlobalPax.data).length < 2 ^ 63) :
    ∃ records, globals.flatMap GlobalPax.data = PaxRecord.header records ∧
      ∀ owned : OwnedPaxOverrides, owned.update (PaxRecord.overrides records) =
        globals.foldl (fun owned header => owned.update header.overrides) owned := by
  induction globals with
  | nil => exact ⟨[], rfl, fun owned => owned.update_nil⟩
  | cons header globals ih =>
    rw [List.flatMap_cons, List.length_append] at bounded
    obtain ⟨records, parsed, same⟩ := ih (by omega)
    obtain ⟨first, here, said⟩ := (paxOverrides_eq_ok (by omega)).mp header.parsed
    refine ⟨first ++ records, ?_, fun owned => ?_⟩
    · rw [List.flatMap_cons, PaxRecord.header_append, here, parsed]
    · rw [PaxRecord.overrides_append, OwnedPaxOverrides.update_followedBy, List.foldl_cons, said,
        same]

/-- PAX headers are parsed exactly: a run ends regularly, succeeds exactly on sequences of
records, and returns the last path and size. Global headers read one after the other leave
the path and the size of their concatenation, parsed once; beside earlier overrides they
leave what the concatenation leaves. -/
theorem pax_records_exact :
    (∀ (data : Slice) (index : Nat), Regular (paxOverrides data.bytes index) ∧
      ∀ overrides, paxOverrides data.bytes index = .ok overrides ↔
        ∃ records, data.bytes = PaxRecord.header records ∧
          overrides = PaxRecord.overrides records) ∧
    ∀ (globals : List GlobalPax) (whole : Slice) (index : Nat),
      whole.bytes = globals.flatMap GlobalPax.data →
        ∃ overrides, paxOverrides whole.bytes index = .ok overrides ∧
          (globals.foldl (fun owned header => owned.update header.overrides)
              OwnedPaxOverrides.default).path =
            overrides.path.getD none ∧
          (globals.foldl (fun owned header => owned.update header.overrides)
              OwnedPaxOverrides.default).size =
            overrides.size.getD none ∧
          ∀ owned : OwnedPaxOverrides, owned.update overrides =
            globals.foldl (fun owned header => owned.update header.overrides) owned := by
  refine ⟨fun data index => ⟨(paxOverrides_spec data.bounded index).1, fun overrides =>
    paxOverrides_eq_ok data.bounded⟩, ?_⟩
  intro globals whole index concatenated
  have bounded := whole.bounded
  obtain ⟨records, parsed, same⟩ := globals_parse globals (concatenated ▸ bounded)
  refine ⟨_, (paxOverrides_eq_ok bounded).mpr ⟨records, concatenated.trans parsed, rfl⟩, ?_, ?_, same⟩
  · rw [← same]
    rfl
  · rw [← same]
    rfl

/-- The record `12 path=abc`. -/
def Sample.paxRecord : PaxRecord where
  text := encodeUtf8 "12"
  key := pathKey
  value := [97, 98, 99]
  length := by
    rw [parseUnsigned, decodeUtf8_encodeUtf8]
    rfl
  plain := by decide
  readable := by
    intro isSize
    exact absurd isSize (by decide)

theorem pax_records_path :
    paxOverrides Sample.paxRecord.bytes 0 = .ok ⟨some (some [97, 98, 99]), none⟩ :=
  ((pax_records_exact.1 ⟨Sample.paxRecord.bytes, by decide⟩ 0).2 _).mpr
    ⟨[Sample.paxRecord], by rw [PaxRecord.header_cons, PaxRecord.header_nil, List.append_nil], rfl⟩

end Relswap
