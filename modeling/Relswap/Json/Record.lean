import Relswap.Durable.Check
import Relswap.Json.Value

/-!
# Codecs of records

A codec turns values into JSON and back. A record is written as an object of its
fields in order, and read from an object of known and distinct names in any order,
or from an array of the fields in order. Each codec carries the proof that reading
undoes writing on the values in range, that only such values are read, and that
writing again does not need more room.
-/

open Durable

namespace Json

variable {α β : Type}

/-- A codec with its laws. -/
structure Codec (α : Type) where
  encode : α → Json
  decode : Json → Except String α
  InRange : α → Prop
  /-- How deep the written values are nested. -/
  depth : Nat
  encode_shallow : ∀ a, (encode a).Shallow depth
  decode_encode : ∀ a, InRange a → decode (encode a) = .ok a
  inRange_of_decode : ∀ json a, decode json = .ok a → InRange a
  encode_size : ∀ json a, json.NoArray → decode json = .ok a → (encode a).size ≤ json.size

/-- The values of the fields of a record, by name. -/
abbrev Lookup := String → Option Json

/-- Part of the fields of a record. -/
structure Fields (α : Type) where
  names : List String
  encode : α → List (String × Json)
  decode : Lookup → Except String α
  InRange : α → Prop
  depth : Nat
  encode_shallow : ∀ a, ∀ member ∈ encode a, member.2.Shallow depth
  encode_names : ∀ a, ((encode a).map Prod.fst).Sublist names
  decode_encode : ∀ a (lookup : Lookup), names.Nodup → InRange a →
    (∀ member ∈ encode a, lookup member.1 = some member.2) →
    (∀ name ∈ names, name ∉ (encode a).map Prod.fst → lookup name = none) →
    decode lookup = .ok a
  inRange_of_decode : ∀ lookup a, decode lookup = .ok a → InRange a
  encode_size : ∀ (lookup : Lookup) a, (∀ name json, lookup name = some json → json.NoArray) →
    decode lookup = .ok a →
    ∀ member ∈ encode a, ∃ json, lookup member.1 = some json ∧ member.2.size ≤ json.size

/-! ## Simple values -/

def readString : Json → Except String String
  | .string value => .ok value
  | _ => .error "invalid type: expected a string"

def readBool : Json → Except String Bool
  | .bool value => .ok value
  | _ => .error "invalid type: expected a boolean"

def readUnsigned (limit : Nat) : Json → Except String Nat
  | .number value => do
    check (value.toNat < limit) "invalid value: integer out of range"
    return value.toNat
  | _ => .error "invalid type: expected an integer"

theorem readString_eq_ok {json : Json} {value : String} :
    readString json = .ok value ↔ json = .string value := by
  cases json <;> simp [readString]

theorem readBool_eq_ok {json : Json} {value : Bool} :
    readBool json = .ok value ↔ json = .bool value := by
  cases json <;> simp [readBool]

theorem readUnsigned_eq_ok {limit : Nat} {json : Json} {value : Nat} :
    readUnsigned limit json = .ok value ↔
      ∃ number : UInt64, json = .number number ∧ number.toNat = value ∧ value < limit := by
  cases json with
  | number number =>
    simp only [readUnsigned, bind_eq_ok, check_eq_ok, pure_eq_ok, Json.number.injEq]
    constructor
    · intro read
      obtain ⟨_, small, rfl⟩ := read
      exact ⟨number, rfl, rfl, small⟩
    · intro read
      obtain ⟨_, rfl, rfl, small⟩ := read
      exact ⟨(), small, rfl⟩
  | _ => simp [readUnsigned]

namespace Codec

def string : Codec String where
  encode := .string
  decode := readString
  InRange := fun _ => True
  depth := 0
  encode_shallow := .string
  decode_encode := fun _ _ => rfl
  inRange_of_decode := fun _ _ _ => trivial
  encode_size := by
    intro json value _ read
    rw [readString_eq_ok.mp read]

def bool : Codec Bool where
  encode := .bool
  decode := readBool
  InRange := fun _ => True
  depth := 0
  encode_shallow := .bool
  decode_encode := fun _ _ => rfl
  inRange_of_decode := fun _ _ _ => trivial
  encode_size := by
    intro json value _ read
    rw [readBool_eq_ok.mp read]

/-- The natural numbers below a limit. -/
def unsigned (limit : Nat) (small : limit ≤ 2 ^ 64) : Codec Nat where
  encode value := .number (UInt64.ofNat value)
  decode := readUnsigned limit
  InRange := fun value => value < limit
  depth := 0
  encode_shallow := fun _ => .number _
  decode_encode := by
    intro value inRange
    exact readUnsigned_eq_ok.mpr ⟨_, rfl, UInt64.toNat_ofNat_of_lt' (Nat.lt_of_lt_of_le inRange small),
      inRange⟩
  inRange_of_decode := by
    intro json value read
    obtain ⟨_, _, _, inRange⟩ := readUnsigned_eq_ok.mp read
    exact inRange
  encode_size := by
    intro json value _ read
    obtain ⟨number, rfl, rfl, _⟩ := readUnsigned_eq_ok.mp read
    rw [UInt64.ofNat_toNat]

/-- Values written as texts, with a parser that accepts nothing but those texts. -/
def text (write : α → String) (parse : String → Except String α)
    (parse_write : ∀ a, parse (write a) = .ok a)
    (write_parse : ∀ value a, parse value = .ok a → write a = value) : Codec α where
  encode a := .string (write a)
  decode json := readString json >>= parse
  InRange := fun _ => True
  depth := 0
  encode_shallow := fun _ => .string _
  decode_encode := fun a _ => parse_write a
  inRange_of_decode := fun _ _ _ => trivial
  encode_size := by
    intro json a _ read
    obtain ⟨value, isText, parsed⟩ := bind_eq_ok.mp read
    rw [readString_eq_ok.mp isText, write_parse value a parsed]

/-- A value or `null`. -/
def nullable (codec : Codec α) (notNull : ∀ a, codec.encode a ≠ .null) : Codec (Option α) where
  encode
    | none => .null
    | some a => codec.encode a
  decode
    | .null => .ok none
    | json => some <$> codec.decode json
  InRange := fun value => ∀ a, value = some a → codec.InRange a
  depth := codec.depth
  encode_shallow := by
    intro value
    cases value with
    | none => exact .null
    | some a => exact codec.encode_shallow a
  decode_encode := by
    intro value inRange
    cases value with
    | none => rfl
    | some a =>
      have read := codec.decode_encode a (inRange a rfl)
      cases encoded : codec.encode a with
      | null => exact absurd encoded (notNull a)
      | _ =>
        rw [encoded] at read
        simp only [encoded, read, map_ok]
  inRange_of_decode := by
    intro json value read a same
    subst same
    cases json with
    | null => cases read
    | _ =>
      obtain ⟨b, read, same⟩ := map_eq_ok.mp read
      cases same
      exact codec.inRange_of_decode _ _ read
  encode_size := by
    intro json value noArray read
    cases json with
    | null =>
      cases read
      exact Nat.le_refl _
    | _ =>
      obtain ⟨a, inner, rfl⟩ := map_eq_ok.mp read
      exact codec.encode_size _ _ noArray inner

theorem mapM_encode (codec : Codec α) {as : List α} (inRange : ∀ a ∈ as, codec.InRange a) :
    (as.map codec.encode).mapM codec.decode = .ok as := by
  induction as with
  | nil => rfl
  | cons a as ih =>
    rw [List.map_cons, List.mapM_cons, codec.decode_encode a (inRange a List.mem_cons_self), ok_bind,
      ih fun other inside => inRange other (List.mem_cons_of_mem _ inside), ok_bind]
    rfl

theorem inRange_of_mapM (codec : Codec α) {items : List Json} {as : List α}
    (read : items.mapM codec.decode = .ok as) : ∀ a ∈ as, codec.InRange a := by
  induction items generalizing as with
  | nil =>
    cases read
    intro a inside
    cases inside
  | cons item items ih =>
    rw [List.mapM_cons] at read
    obtain ⟨first, readFirst, read⟩ := bind_eq_ok.mp read
    obtain ⟨others, readOthers, read⟩ := bind_eq_ok.mp read
    obtain rfl := pure_eq_ok.mp read
    intro a inside
    cases inside with
    | head => exact codec.inRange_of_decode item first readFirst
    | tail _ inside => exact ih readOthers a inside

def readItems (codec : Codec α) : Json → Except String (List α)
  | .array items => items.mapM codec.decode
  | _ => .error "invalid type: expected a sequence"

/-- The values of an array. -/
def list (codec : Codec α) : Codec (List α) where
  encode as := .array (as.map codec.encode)
  decode := codec.readItems
  InRange as := ∀ a ∈ as, codec.InRange a
  depth := codec.depth + 1
  encode_shallow := by
    intro as
    refine .array fun item inside => ?_
    obtain ⟨a, _, rfl⟩ := List.mem_map.mp inside
    exact codec.encode_shallow a
  decode_encode := fun _ inRange => codec.mapM_encode inRange
  inRange_of_decode := by
    intro json as read
    cases json with
    | array items => exact codec.inRange_of_mapM read
    | _ => cases read
  encode_size := by
    intro json as noArray read
    cases noArray <;> cases read

end Codec

/-! ## Fields -/

namespace Fields

/-- A field that has to be there. -/
def required (name : String) (codec : Codec α) : Fields α where
  names := [name]
  encode a := [(name, codec.encode a)]
  decode lookup := do
    let json ← orError (lookup name) s!"missing field {name}"
    codec.decode json
  InRange := codec.InRange
  depth := codec.depth
  encode_shallow := by
    intro a member inside
    obtain rfl := List.mem_singleton.mp inside
    exact codec.encode_shallow a
  encode_names := fun _ => List.Sublist.refl _
  decode_encode := by
    intro a lookup _ inRange here _
    rw [here _ List.mem_cons_self]
    exact codec.decode_encode a inRange
  inRange_of_decode := by
    intro lookup a read
    obtain ⟨json, _, read⟩ := bind_eq_ok.mp read
    exact codec.inRange_of_decode json a read
  encode_size := by
    intro lookup a noArray read member inside
    obtain ⟨json, here, read⟩ := bind_eq_ok.mp read
    rw [orError_eq_ok] at here
    obtain rfl := List.mem_singleton.mp inside
    exact ⟨json, here, codec.encode_size json a (noArray _ _ here) read⟩

theorem required_decode {name : String} {codec : Codec α} {lookup : Lookup} {json : Json} {a : α}
    (here : lookup name = some json) (read : codec.decode json = .ok a) :
    (required name codec).decode lookup = .ok a :=
  bind_eq_ok.mpr ⟨json, orError_eq_ok.mpr here, read⟩

/-- A field that is left out for `none`, and read as `none` when it is absent or `null`. -/
def skipped (name : String) (codec : Codec α) (notNull : ∀ a, codec.encode a ≠ .null) :
    Fields (Option α) where
  names := [name]
  encode
    | none => []
    | some a => [(name, codec.encode a)]
  decode lookup :=
    match lookup name with
    | none => .ok none
    | some json => (codec.nullable notNull).decode json
  InRange := (codec.nullable notNull).InRange
  depth := codec.depth
  encode_shallow := by
    intro value member inside
    cases value with
    | none => cases inside
    | some a =>
      obtain rfl := List.mem_singleton.mp inside
      exact codec.encode_shallow a
  encode_names := by
    intro value
    cases value with
    | none => exact List.nil_sublist _
    | some a => exact List.Sublist.refl _
  decode_encode := by
    intro value lookup _ inRange here absent
    cases value with
    | none => rw [absent name List.mem_cons_self List.not_mem_nil]
    | some a =>
      rw [here _ List.mem_cons_self]
      exact (codec.nullable notNull).decode_encode (some a) inRange
  inRange_of_decode := by
    intro lookup value read
    cases found : lookup name with
    | none =>
      rw [found] at read
      cases read
      intro a same
      cases same
    | some json =>
      rw [found] at read
      exact (codec.nullable notNull).inRange_of_decode json value read
  encode_size := by
    intro lookup value noArray read member inside
    cases value with
    | none => cases inside
    | some a =>
      obtain rfl := List.mem_singleton.mp inside
      cases found : lookup name with
      | none =>
        rw [found] at read
        cases read
      | some json =>
        rw [found] at read
        exact ⟨json, rfl,
          (codec.nullable notNull).encode_size json (some a) (noArray _ _ found) read⟩

/-- The fields of the first part and then those of the second. -/
def and (first : Fields α) (second : Fields β) : Fields (α × β) where
  names := first.names ++ second.names
  encode pair := first.encode pair.1 ++ second.encode pair.2
  decode lookup := do
    let a ← first.decode lookup
    let b ← second.decode lookup
    return (a, b)
  InRange pair := first.InRange pair.1 ∧ second.InRange pair.2
  depth := max first.depth second.depth
  encode_shallow := by
    intro pair member inside
    rcases List.mem_append.mp inside with left | right
    · exact (first.encode_shallow _ member left).mono (Nat.le_max_left _ _)
    · exact (second.encode_shallow _ member right).mono (Nat.le_max_right _ _)
  encode_names := by
    intro pair
    rw [List.map_append]
    exact (first.encode_names pair.1).append (second.encode_names pair.2)
  decode_encode := by
    intro pair lookup distinct inRange here absent
    rw [List.nodup_append] at distinct
    obtain ⟨distinct₁, distinct₂, apart⟩ := distinct
    rw [List.map_append] at absent
    have readFirst : first.decode lookup = .ok pair.1 := by
      refine first.decode_encode _ _ distinct₁ inRange.1
        (fun member inside => here member (List.mem_append_left _ inside)) fun name known out => ?_
      refine absent name (List.mem_append_left _ known) fun inside => ?_
      rcases List.mem_append.mp inside with left | right
      · exact out left
      · exact apart name known name ((second.encode_names _).subset right) rfl
    have readSecond : second.decode lookup = .ok pair.2 := by
      refine second.decode_encode _ _ distinct₂ inRange.2
        (fun member inside => here member (List.mem_append_right _ inside)) fun name known out => ?_
      refine absent name (List.mem_append_right _ known) fun inside => ?_
      rcases List.mem_append.mp inside with left | right
      · exact apart name ((first.encode_names _).subset left) name known rfl
      · exact out right
    rw [readFirst, ok_bind, readSecond, ok_bind]
    rfl
  inRange_of_decode := by
    intro lookup pair read
    obtain ⟨a, readFirst, read⟩ := bind_eq_ok.mp read
    obtain ⟨b, readSecond, read⟩ := bind_eq_ok.mp read
    obtain rfl := pure_eq_ok.mp read
    exact ⟨first.inRange_of_decode _ _ readFirst, second.inRange_of_decode _ _ readSecond⟩
  encode_size := by
    intro lookup pair noArray read member inside
    obtain ⟨a, readFirst, read⟩ := bind_eq_ok.mp read
    obtain ⟨b, readSecond, read⟩ := bind_eq_ok.mp read
    obtain rfl := pure_eq_ok.mp read
    rcases List.mem_append.mp inside with left | right
    · exact first.encode_size lookup a noArray readFirst member left
    · exact second.encode_size lookup b noArray readSecond member right

end Fields

/-! ## Records -/

/-- Another view of the same values. -/
def Fields.map (fields : Fields α) (view : α ≃ β) : Fields β where
  names := fields.names
  encode b := fields.encode (view.symm b)
  decode lookup := view <$> fields.decode lookup
  InRange b := fields.InRange (view.symm b)
  depth := fields.depth
  encode_shallow := fun b => fields.encode_shallow _
  encode_names := fun b => fields.encode_names _
  decode_encode := by
    intro b lookup distinct inRange here absent
    rw [fields.decode_encode _ lookup distinct inRange here absent, map_ok, view.apply_symm_apply]
  inRange_of_decode := by
    intro lookup b read
    obtain ⟨a, inner, rfl⟩ := map_eq_ok.mp read
    rw [view.symm_apply_apply]
    exact fields.inRange_of_decode lookup a inner
  encode_size := by
    intro lookup b noArray read
    obtain ⟨a, inner, rfl⟩ := map_eq_ok.mp read
    rw [view.symm_apply_apply]
    exact fields.encode_size lookup a noArray inner

/-- The fields of a record with the given names: those of an object, or the items of an
array in order. -/
def lookupFields (names : List String) : Json → Except String Lookup
  | .object members => do
    check (∀ member ∈ members, member.1 ∈ names) "unknown field"
    check (members.map Prod.fst).Nodup "duplicate field"
    return fun name => members.lookup name
  | .array items => do
    check (items.length ≤ names.length) "trailing elements"
    return fun name => (names.zip items).lookup name
  | _ => .error "invalid type: expected a record"

theorem lookup_of_mem {members : List (String × Json)} (distinct : (members.map Prod.fst).Nodup)
    {member : String × Json} (inside : member ∈ members) :
    members.lookup member.1 = some member.2 := by
  obtain ⟨before, after, rfl⟩ := List.append_of_mem inside
  rw [List.lookup_eq_some_iff]
  refine ⟨before, after, rfl, fun other earlier => ?_⟩
  rw [List.map_append, List.map_cons, List.nodup_append] at distinct
  have different := distinct.2.2 other.1 (List.mem_map_of_mem earlier) member.1 List.mem_cons_self
  simpa using fun same => different same.symm

theorem lookup_none {members : List (String × Json)} {name : String}
    (absent : name ∉ members.map Prod.fst) : members.lookup name = none := by
  rw [List.lookup_eq_none_iff]
  intro member inside
  have different : name ≠ member.1 := fun same => absent (same ▸ List.mem_map_of_mem inside)
  simpa using different

theorem mem_of_lookup {members : List (String × Json)} {name : String} {json : Json}
    (found : members.lookup name = some json) : (name, json) ∈ members := by
  obtain ⟨before, after, rfl, _⟩ := List.lookup_eq_some_iff.mp found
  exact List.mem_append_right _ List.mem_cons_self

/-- The codec of a record. -/
def Codec.record (fields : Fields α) (distinct : fields.names.Nodup) : Codec α where
  encode a := .object (fields.encode a)
  decode json := lookupFields fields.names json >>= fields.decode
  InRange := fields.InRange
  depth := fields.depth + 1
  encode_shallow := fun a => .object (fields.encode_shallow a)
  decode_encode := by
    intro a inRange
    have known : ∀ member ∈ fields.encode a, member.1 ∈ fields.names := fun member inside =>
      (fields.encode_names a).subset (List.mem_map_of_mem inside)
    have apart : ((fields.encode a).map Prod.fst).Nodup := distinct.sublist (fields.encode_names a)
    rw [lookupFields, check_pass known, ok_bind, check_pass apart, ok_bind]
    exact fields.decode_encode a _ distinct inRange (fun member inside => lookup_of_mem apart inside)
      fun name _ absent => lookup_none absent
  inRange_of_decode := by
    intro json a read
    obtain ⟨lookup, _, read⟩ := bind_eq_ok.mp read
    exact fields.inRange_of_decode lookup a read
  encode_size := by
    intro json a noArray read
    obtain ⟨lookup, found, read⟩ := bind_eq_ok.mp read
    cases noArray with
    | object inner =>
      simp only [lookupFields, bind_eq_ok, check_eq_ok, pure_eq_ok] at found
      obtain ⟨_, _, _, _, rfl⟩ := found
      refine size_object_le (membersSize_le (distinct.sublist (fields.encode_names a)) ?_)
      intro member inside
      obtain ⟨value, here, smaller⟩ := fields.encode_size _ a
        (fun name value here => inner _ (mem_of_lookup here)) read member inside
      exact ⟨value, mem_of_lookup here, smaller⟩
    | _ => cases found

end Json
