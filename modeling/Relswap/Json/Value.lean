import Mathlib

/-!
# JSON values and their compact text

Values of documents whose numbers are unsigned integers of 64 bits. The compact text
has no white space and escapes only what has to be escaped.
-/

/-- A JSON value. Members keep their order, and names may repeat. -/
inductive Json where
  | null
  | bool (value : Bool)
  | number (value : UInt64)
  | string (value : String)
  | array (items : List Json)
  | object (members : List (String × Json))

namespace Json

def hexDigitOf (n : Nat) : Char := "0123456789abcdef".toList.getD n '0'

/-- A character inside quotes. -/
def escape (c : Char) : List Char :=
  if c = '\x22' then ['\\', '\x22']
  else if c = '\\' then ['\\', '\\']
  else if c = '\x08' then ['\\', 'b']
  else if c = '\x0c' then ['\\', 'f']
  else if c = '\n' then ['\\', 'n']
  else if c = '\r' then ['\\', 'r']
  else if c = '\t' then ['\\', 't']
  else if c.toNat < 32 then
    ['\\', 'u', '0', '0', hexDigitOf (c.toNat / 16), hexDigitOf (c.toNat % 16)]
  else [c]

def quote (text : String) : List Char :=
  '\x22' :: (text.toList.flatMap escape ++ ['\x22'])

mutual

/-- The compact text of a value. -/
def text : Json → List Char
  | .null => ['n', 'u', 'l', 'l']
  | .bool true => ['t', 'r', 'u', 'e']
  | .bool false => ['f', 'a', 'l', 's', 'e']
  | .number value => Nat.toDigits 10 value.toNat
  | .string value => quote value
  | .array [] => ['[', ']']
  | .array (item :: items) => '[' :: (text item ++ (moreItems items ++ [']']))
  | .object [] => ['{', '}']
  | .object ((name, value) :: members) =>
    '{' :: (quote name ++ ':' :: (text value ++ (moreMembers members ++ ['}'])))

def moreItems : List Json → List Char
  | [] => []
  | item :: items => ',' :: (text item ++ moreItems items)

def moreMembers : List (String × Json) → List Char
  | [] => []
  | (name, value) :: members =>
    ',' :: (quote name ++ ':' :: (text value ++ moreMembers members))

end

/-- A value without arrays. -/
inductive NoArray : Json → Prop where
  | null : NoArray .null
  | bool (value : Bool) : NoArray (.bool value)
  | number (value : UInt64) : NoArray (.number value)
  | string (value : String) : NoArray (.string value)
  | object {members : List (String × Json)} (inner : ∀ member ∈ members, NoArray member.2) :
      NoArray (.object members)

/-- A value nested no deeper than a bound. -/
inductive Shallow : Nat → Json → Prop where
  | null {depth : Nat} : Shallow depth .null
  | bool {depth : Nat} (value : Bool) : Shallow depth (.bool value)
  | number {depth : Nat} (value : UInt64) : Shallow depth (.number value)
  | string {depth : Nat} (value : String) : Shallow depth (.string value)
  | array {depth : Nat} {items : List Json} (inner : ∀ item ∈ items, Shallow depth item) :
      Shallow (depth + 1) (.array items)
  | object {depth : Nat} {members : List (String × Json)}
      (inner : ∀ member ∈ members, Shallow depth member.2) : Shallow (depth + 1) (.object members)

theorem Shallow.mono {depth deeper : Nat} {json : Json} (h : Shallow depth json)
    (le : depth ≤ deeper) : Shallow deeper json := by
  induction h generalizing deeper with
  | null => exact .null
  | bool value => exact .bool value
  | number value => exact .number value
  | string value => exact .string value
  | array inner ih =>
    obtain ⟨bound, rfl⟩ : ∃ bound, deeper = bound + 1 := ⟨deeper - 1, by omega⟩
    exact .array fun item inside => ih item inside (by omega)
  | object inner ih =>
    obtain ⟨bound, rfl⟩ : ∃ bound, deeper = bound + 1 := ⟨deeper - 1, by omega⟩
    exact .object fun member inside => ih member inside (by omega)

/-! ## Sizes -/

/-- The bytes that a list of characters takes. -/
def bytesOf (chars : List Char) : Nat := (chars.map Char.utf8Size).sum

@[simp] theorem bytesOf_nil : bytesOf [] = 0 := rfl

@[simp] theorem bytesOf_cons (c : Char) (chars : List Char) :
    bytesOf (c :: chars) = c.utf8Size + bytesOf chars := by
  simp [bytesOf]

@[simp] theorem bytesOf_append (first second : List Char) :
    bytesOf (first ++ second) = bytesOf first + bytesOf second := by
  simp [bytesOf]

/-- The size of the compact text. -/
def size (json : Json) : Nat := bytesOf json.text

/-- What one member adds to the size of an object, with its comma. -/
def memberSize (member : String × Json) : Nat :=
  bytesOf (quote member.1) + member.2.size + 2

def membersSize (members : List (String × Json)) : Nat := (members.map memberSize).sum

theorem size_moreMembers (members : List (String × Json)) :
    bytesOf (moreMembers members) = membersSize members := by
  induction members with
  | nil => rfl
  | cons member members ih =>
    have comma : (',' : Char).utf8Size = 1 := rfl
    have colon : (':' : Char).utf8Size = 1 := rfl
    simp only [moreMembers, membersSize, memberSize, size, List.map_cons, List.sum_cons,
      bytesOf_cons, bytesOf_append, comma, colon] at ih ⊢
    omega

/-- An object has its braces and its members, without the first comma. -/
theorem size_object (members : List (String × Json)) :
    (object members).size = membersSize members - 1 + 2 := by
  have left : ('{' : Char).utf8Size = 1 := rfl
  have right : ('}' : Char).utf8Size = 1 := rfl
  have colon : (':' : Char).utf8Size = 1 := rfl
  cases members with
  | nil => rfl
  | cons member members =>
    have more := size_moreMembers members
    simp only [size, text, membersSize, memberSize, List.map_cons, List.sum_cons, bytesOf_cons,
      bytesOf_append, bytesOf_nil, left, right, colon] at more ⊢
    omega

theorem size_object_le {first second : List (String × Json)}
    (smaller : membersSize first ≤ membersSize second) :
    (object first).size ≤ (object second).size := by
  rw [size_object, size_object]
  omega

/-- What the items of an array take, each with its comma. -/
def itemsSize (items : List Json) : Nat := (items.map fun item => item.size + 1).sum

theorem size_moreItems (items : List Json) : bytesOf (moreItems items) = itemsSize items := by
  induction items with
  | nil => rfl
  | cons item items ih =>
    have comma : (',' : Char).utf8Size = 1 := rfl
    simp only [moreItems, itemsSize, size, List.map_cons, List.sum_cons, bytesOf_cons,
      bytesOf_append, comma] at ih ⊢
    omega

/-- An array has its brackets and its items, without the first comma. -/
theorem size_array (items : List Json) : (array items).size = itemsSize items - 1 + 2 := by
  have left : ('[' : Char).utf8Size = 1 := rfl
  have right : (']' : Char).utf8Size = 1 := rfl
  cases items with
  | nil => rfl
  | cons item items =>
    have more := size_moreItems items
    simp only [size, text, itemsSize, List.map_cons, List.sum_cons, bytesOf_cons, bytesOf_append,
      bytesOf_nil, left, right] at more ⊢
    omega

/-- Fewer items, in any order, do not need more room. -/
theorem size_array_le {first second : List Json} (fewer : first.Subperm second) :
    (array first).size ≤ (array second).size := by
  have smaller : itemsSize first ≤ itemsSize second := by
    obtain ⟨middle, same, inside⟩ := fewer
    have reordered : itemsSize first = itemsSize middle := (same.map _).sum_eq.symm
    rw [reordered]
    exact (inside.map _).sum_le_sum fun _ _ => Nat.zero_le _
  rw [size_array, size_array]
  omega

/-- Members of different names, each found among others and no larger there, are together no
larger than those. -/
theorem membersSize_le {first second : List (String × Json)}
    (distinct : (first.map Prod.fst).Nodup)
    (found : ∀ member ∈ first, ∃ value, (member.1, value) ∈ second ∧
      member.2.size ≤ value.size) : membersSize first ≤ membersSize second := by
  induction first generalizing second with
  | nil => exact Nat.zero_le _
  | cons member first ih =>
    rw [List.map_cons, List.nodup_cons] at distinct
    obtain ⟨value, here, smaller⟩ := found member List.mem_cons_self
    obtain ⟨before, after, rfl⟩ := List.append_of_mem here
    have others : membersSize first ≤ membersSize (before ++ after) := by
      refine ih distinct.2 fun other inside => ?_
      obtain ⟨value', there, smaller'⟩ := found other (List.mem_cons_of_mem _ inside)
      refine ⟨value', ?_, smaller'⟩
      have different : (other.1, value') ≠ (member.1, value) := by
        intro same
        exact distinct.1 (List.mem_map.mpr ⟨other, inside, (Prod.mk.inj same).1⟩)
      rcases List.mem_append.mp there with left | right
      · exact List.mem_append_left _ left
      · rcases List.mem_cons.mp right with same | right
        · exact absurd same different
        · exact List.mem_append_right _ right
    simp only [membersSize, memberSize, List.map_cons, List.map_append, List.sum_cons,
      List.sum_append] at others ⊢
    omega

end Json
