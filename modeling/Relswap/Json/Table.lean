import Relswap.Json.Record

/-!
# Codecs of tables

A table gives some of finitely many keys a value. It is written as an object with
one member for each key that has a value, in the order of the keys. Read members
may come in any order, and of several for one key the last counts.
-/

open Durable

namespace Json

variable {κ α : Type} [DecidableEq κ]

/-- The keys of a table, in order, with their texts. -/
structure Keys (κ : Type) where
  all : List κ
  mem_all : ∀ k, k ∈ all
  nodup : all.Nodup
  text : κ → String
  parse : String → Except String κ
  parse_text : ∀ k, parse (text k) = .ok k
  text_parse : ∀ value k, parse value = .ok k → text k = value

namespace Keys

variable (keys : Keys κ) (codec : Codec α)

def members (table : κ → Option α) (list : List κ) : List (String × Json) :=
  list.filterMap fun k => (table k).map fun a => (keys.text k, codec.encode a)

/-- Read one member into the table. -/
def readMember (table : κ → Option α) (member : String × Json) :
    Except String (κ → Option α) := do
  let k ← keys.parse member.1
  let a ← codec.decode member.2
  return Function.update table k (some a)

def readTable (json : Json) : Except String (κ → Option α) :=
  match json with
  | .object members => members.foldlM (keys.readMember codec) fun _ => none
  | _ => .error "invalid type: expected a map"

/-- The values written last for the keys of a list. -/
def written (table base : κ → Option α) (list : List κ) : κ → Option α :=
  fun k => if k ∈ list ∧ (table k).isSome then table k else base k

theorem readMember_written {table : κ → Option α} (inRange : ∀ k a, table k = some a → codec.InRange a)
    (list : List κ) (base : κ → Option α) :
    (keys.members codec table list).foldlM (keys.readMember codec) base =
      .ok (written table base list) := by
  induction list generalizing base with
  | nil =>
    refine congrArg Except.ok (funext fun k => ?_)
    rw [written, if_neg (fun h => List.not_mem_nil h.1)]
  | cons k list ih =>
    rw [members] at ih ⊢
    cases here : table k with
    | none =>
      rw [List.filterMap_cons_none (by rw [here]; rfl), ih]
      refine congrArg Except.ok (funext fun other => ?_)
      simp only [written]
      by_cases same : other = k
      · subst same
        simp [here]
      · simp [same]
    | some a =>
      rw [List.filterMap_cons_some (by rw [here]; rfl), List.foldlM_cons, readMember, keys.parse_text,
        ok_bind, codec.decode_encode a (inRange k a here), ok_bind]
      change List.foldlM _ _ _ = _
      rw [ih]
      refine congrArg Except.ok (funext fun other => ?_)
      simp only [written]
      by_cases same : other = k
      · subst same
        simp [here]
      · simp [same]

/-! ## Listings -/

/-- The value of the last member of a name. -/
def lastListed (name : String) : List (String × Json) → Option Json
  | [] => none
  | member :: members =>
    match lastListed name members with
    | some json => some json
    | none => if member.1 = name then some member.2 else none

/-- The members without those that a later one replaces. -/
def keepLast : List (String × Json) → List (String × Json)
  | [] => []
  | member :: members =>
    if member.1 ∈ members.map Prod.fst then keepLast members else member :: keepLast members

theorem keepLast_subset (members : List (String × Json)) :
    ∀ member ∈ keepLast members, member ∈ members := by
  induction members with
  | nil => exact fun member mem => mem
  | cons first members ih =>
    intro member mem
    unfold keepLast at mem
    split at mem
    · exact List.mem_cons_of_mem _ (ih member mem)
    · rcases List.mem_cons.mp mem with rfl | mem
      · exact List.mem_cons_self
      · exact List.mem_cons_of_mem _ (ih member mem)

theorem lastListed_isSome {name : String} {members : List (String × Json)} :
    (lastListed name members).isSome = true ↔ name ∈ members.map Prod.fst := by
  induction members with
  | nil => simp [lastListed]
  | cons member members ih =>
    rw [List.map_cons, List.mem_cons, ← ih, lastListed]
    cases lastListed name members with
    | some json => simp
    | none =>
      by_cases same : member.1 = name
      · simp [same]
      · simp [same, Ne.symm same]

theorem mem_of_lastListed {name : String} {members : List (String × Json)} {json : Json}
    (last : lastListed name members = some json) : (name, json) ∈ members := by
  induction members with
  | nil => cases last
  | cons member members ih =>
    rw [lastListed] at last
    cases later : lastListed name members with
    | some found =>
      rw [later] at last
      exact List.mem_cons_of_mem _ (ih (later.trans last))
    | none =>
      rw [later] at last
      by_cases same : member.1 = name
      · rw [if_pos same] at last
        cases last
        exact same ▸ List.mem_cons_self
      · rw [if_neg same] at last
        cases last

/-- Where no name repeats, every member is the last of its name. -/
theorem lastListed_eq_some {name : String} {members : List (String × Json)} {json : Json}
    (once : (members.map Prod.fst).Nodup) :
    lastListed name members = some json ↔ (name, json) ∈ members := by
  refine ⟨mem_of_lastListed, fun inside => ?_⟩
  induction members with
  | nil => cases inside
  | cons member members ih =>
    rw [List.map_cons, List.nodup_cons] at once
    rw [lastListed]
    rcases List.mem_cons.mp inside with rfl | later
    · have last : lastListed name members = none := by
        rw [← Option.not_isSome_iff_eq_none, lastListed_isSome]
        exact once.1
      rw [last, if_pos rfl]
    · rw [ih once.2 later]

/-- Dropping replaced members does not change what is listed last. -/
theorem lastListed_keepLast (name : String) (members : List (String × Json)) :
    lastListed name (keepLast members) = lastListed name members := by
  induction members with
  | nil => rfl
  | cons member members ih =>
    rw [keepLast]
    split
    · rename_i replaced
      rw [ih, lastListed]
      cases later : lastListed name members with
      | some json => rfl
      | none =>
        have other : member.1 ≠ name := by
          intro same
          rw [same, ← lastListed_isSome, later] at replaced
          cases replaced
        rw [if_neg other]
    · rw [lastListed, lastListed, ih]

/-- A member that can be read. -/
def Reads (member : String × Json) : Prop :=
  ∃ k a, keys.parse member.1 = .ok k ∧ codec.decode member.2 = .ok a

/-- Members are read when each of them can be read, and then the last one of a key counts. -/
theorem foldlM_readMember_eq_ok {members : List (String × Json)} {base table : κ → Option α} :
    members.foldlM (keys.readMember codec) base = .ok table ↔
      (∀ member ∈ members, keys.Reads codec member) ∧
      ∀ k, table k = match lastListed (keys.text k) members with
        | some json => (codec.decode json).toOption
        | none => base k := by
  induction members generalizing base with
  | nil =>
    rw [List.foldlM_nil, pure_eq_ok]
    constructor
    · intro same
      exact ⟨fun member mem => absurd mem List.not_mem_nil, fun k => congrFun same.symm k⟩
    · intro read
      exact funext fun k => (read.2 k).symm
  | cons member members ih =>
    rw [List.foldlM_cons, List.forall_mem_cons]
    have step : ∀ k a, keys.parse member.1 = .ok k → codec.decode member.2 = .ok a → ∀ other,
        (match lastListed (keys.text other) members with
          | some json => (codec.decode json).toOption
          | none => Function.update base k (some a) other) =
        match lastListed (keys.text other) (member :: members) with
          | some json => (codec.decode json).toOption
          | none => base other := by
      intro k a parsed decoded other
      rw [lastListed]
      cases lastListed (keys.text other) members with
      | some json => rfl
      | none =>
        by_cases same : other = k
        · rw [if_pos (same ▸ (keys.text_parse _ k parsed).symm), same]
          simp [decoded, Except.toOption]
        · have different : member.1 ≠ keys.text other := by
            intro clash
            rw [clash, keys.parse_text] at parsed
            exact same (Except.ok.inj parsed)
          simp [different, same]
    constructor
    · intro read
      obtain ⟨next, one, read⟩ := bind_eq_ok.mp read
      obtain ⟨k, parsed, one⟩ := bind_eq_ok.mp one
      obtain ⟨a, decoded, one⟩ := bind_eq_ok.mp one
      obtain rfl := pure_eq_ok.mp one
      obtain ⟨all, last⟩ := ih.mp read
      exact ⟨⟨⟨k, a, parsed, decoded⟩, all⟩, fun other => (last other).trans (step k a parsed decoded other)⟩
    · intro read
      obtain ⟨⟨⟨k, a, parsed, decoded⟩, all⟩, last⟩ := read
      have first : keys.readMember codec base member = .ok (Function.update base k (some a)) := by
        rw [readMember, parsed, ok_bind, decoded]
        rfl
      rw [first, ok_bind]
      exact ih.mpr ⟨all, fun other => (last other).trans (step k a parsed decoded other).symm⟩

/-- A table that was read has a value for the keys that are listed. -/
theorem isSome_of_foldlM {members : List (String × Json)} {table : κ → Option α}
    (read : members.foldlM (keys.readMember codec) (fun _ => none) = .ok table) (k : κ) :
    (table k).isSome = true ↔ keys.text k ∈ members.map Prod.fst := by
  obtain ⟨all, last⟩ := (keys.foldlM_readMember_eq_ok codec).mp read
  rw [last, ← lastListed_isSome]
  cases listed : lastListed (keys.text k) members with
  | none => simp
  | some json =>
    obtain ⟨_, a, _, decoded⟩ := all _ (mem_of_lastListed listed)
    simp [decoded, Except.toOption]

/-- Where no name repeats, a table that was read says what each member says. -/
theorem eq_some_of_foldlM {members : List (String × Json)} {table : κ → Option α}
    (read : members.foldlM (keys.readMember codec) (fun _ => none) = .ok table)
    (once : (members.map Prod.fst).Nodup) (k : κ) (a : α) :
    table k = some a ↔ ∃ json, (keys.text k, json) ∈ members ∧ codec.decode json = .ok a := by
  obtain ⟨_, last⟩ := (keys.foldlM_readMember_eq_ok codec).mp read
  rw [last]
  constructor
  · intro here
    cases listed : lastListed (keys.text k) members with
    | none =>
      rw [listed] at here
      cases here
    | some json =>
      rw [listed] at here
      exact ⟨json, mem_of_lastListed listed, toOption_eq_some.mp here⟩
  · intro here
    obtain ⟨json, inside, decoded⟩ := here
    rw [(lastListed_eq_some once).mpr inside]
    exact toOption_eq_some.mpr decoded

/-- Members that a later one replaces have to be readable and count for nothing. -/
theorem foldlM_readMember_keepLast {members : List (String × Json)} {base table : κ → Option α} :
    members.foldlM (keys.readMember codec) base = .ok table ↔
      (∀ member ∈ members, keys.Reads codec member) ∧
      (keepLast members).foldlM (keys.readMember codec) base = .ok table := by
  simp only [foldlM_readMember_eq_ok, lastListed_keepLast]
  constructor
  · intro read
    exact ⟨read.1, fun member mem => read.1 member (keepLast_subset members member mem), read.2⟩
  · intro read
    exact ⟨read.1, read.2.2⟩

/-! ## Sizes -/

/-- What the members for the keys of a list take. -/
def tableSize (table : κ → Option α) (list : List κ) : Nat :=
  membersSize (keys.members codec table list)

def valueSize (k : κ) (value : Option α) : Nat :=
  match value with
  | none => 0
  | some a => memberSize (keys.text k, codec.encode a)

omit [DecidableEq κ] in
theorem tableSize_cons (table : κ → Option α) (k : κ) (list : List κ) :
    keys.tableSize codec table (k :: list) =
      keys.valueSize codec k (table k) + keys.tableSize codec table list := by
  simp only [tableSize, members, valueSize]
  cases here : table k with
  | none => rw [List.filterMap_cons_none (by rw [here]; rfl), Nat.zero_add]
  | some a =>
    rw [List.filterMap_cons_some (by rw [here]; rfl)]
    rfl

omit [DecidableEq κ] in
theorem tableSize_congr {table other : κ → Option α} {list : List κ}
    (same : ∀ k ∈ list, table k = other k) :
    keys.tableSize codec table list = keys.tableSize codec other list := by
  induction list with
  | nil => rfl
  | cons k list ih =>
    rw [tableSize_cons, tableSize_cons, same k List.mem_cons_self,
      ih fun k inside => same k (List.mem_cons_of_mem _ inside)]

/-- Writing one value adds at most its size. -/
theorem tableSize_update (table : κ → Option α) (k : κ) (a : α) {list : List κ}
    (distinct : list.Nodup) :
    keys.tableSize codec (Function.update table k (some a)) list ≤
      keys.tableSize codec table list + memberSize (keys.text k, codec.encode a) := by
  induction list with
  | nil => exact Nat.zero_le _
  | cons first list ih =>
    rw [List.nodup_cons] at distinct
    rw [tableSize_cons, tableSize_cons]
    by_cases same : first = k
    · subst same
      have rest : keys.tableSize codec (Function.update table first (some a)) list =
          keys.tableSize codec table list := by
        refine keys.tableSize_congr codec fun other inside => Function.update_of_ne ?_ _ _
        intro clash
        exact distinct.1 (clash ▸ inside)
      rw [rest, Function.update_self, valueSize]
      omega
    · rw [Function.update_of_ne same]
      have rest := ih distinct.2
      omega

theorem readMember_size {members : List (String × Json)} {base table : κ → Option α}
    (noArray : ∀ member ∈ members, member.2.NoArray)
    (read : members.foldlM (keys.readMember codec) base = .ok table) :
    keys.tableSize codec table keys.all ≤
      keys.tableSize codec base keys.all + membersSize members := by
  induction members generalizing base with
  | nil =>
    obtain rfl := pure_eq_ok.mp read
    exact Nat.le_refl _
  | cons member members ih =>
    rw [List.foldlM_cons] at read
    obtain ⟨next, one, read⟩ := bind_eq_ok.mp read
    obtain ⟨k, parsed, one⟩ := bind_eq_ok.mp one
    obtain ⟨a, decoded, one⟩ := bind_eq_ok.mp one
    obtain rfl := pure_eq_ok.mp one
    have rest := ih (fun other inside => noArray other (List.mem_cons_of_mem _ inside)) read
    have here := keys.tableSize_update codec base k a keys.nodup
    have smaller := codec.encode_size _ a (noArray member List.mem_cons_self) decoded
    have name := keys.text_parse _ k parsed
    simp only [membersSize, memberSize, List.map_cons, List.sum_cons, name] at rest here ⊢
    omega

theorem readMember_inRange {members : List (String × Json)} {base table : κ → Option α}
    (before : ∀ k a, base k = some a → codec.InRange a)
    (read : members.foldlM (keys.readMember codec) base = .ok table) :
    ∀ k a, table k = some a → codec.InRange a := by
  induction members generalizing base with
  | nil =>
    obtain rfl := pure_eq_ok.mp read
    exact before
  | cons member members ih =>
    rw [List.foldlM_cons] at read
    obtain ⟨next, one, read⟩ := bind_eq_ok.mp read
    obtain ⟨k, _, one⟩ := bind_eq_ok.mp one
    obtain ⟨a, decoded, one⟩ := bind_eq_ok.mp one
    obtain rfl := pure_eq_ok.mp one
    refine ih (fun other b here => ?_) read
    by_cases same : other = k
    · subst same
      rw [Function.update_self] at here
      cases here
      exact codec.inRange_of_decode _ _ decoded
    · rw [Function.update_of_ne same] at here
      exact before other b here

end Keys

/-- The codec of a table. -/
def Codec.table (keys : Keys κ) (codec : Codec α) : Codec (κ → Option α) where
  encode table := .object (keys.members codec table keys.all)
  decode := keys.readTable codec
  InRange table := ∀ k a, table k = some a → codec.InRange a
  depth := codec.depth + 1
  encode_shallow := by
    intro table
    refine .object fun member inside => ?_
    obtain ⟨k, _, here⟩ := List.mem_filterMap.mp inside
    obtain ⟨a, _, rfl⟩ := Option.map_eq_some_iff.mp here
    exact codec.encode_shallow a
  decode_encode := by
    intro table inRange
    change List.foldlM _ _ _ = _
    rw [keys.readMember_written codec inRange]
    refine congrArg Except.ok (funext fun k => ?_)
    rw [Keys.written]
    cases here : table k with
    | none => simp
    | some a => simp [keys.mem_all]
  inRange_of_decode := by
    intro json table read
    cases json with
    | object members => exact keys.readMember_inRange codec (fun _ _ here => (by cases here)) read
    | _ => cases read
  encode_size := by
    intro json table noArray read
    cases noArray with
    | object inner =>
      have smaller := keys.readMember_size codec inner read
      have empty : keys.tableSize codec (fun _ => none) keys.all = 0 := by
        rw [Keys.tableSize, Keys.members]
        simp [membersSize]
      rw [empty, Nat.zero_add] at smaller
      exact size_object_le smaller
    | _ => cases read

end Json
