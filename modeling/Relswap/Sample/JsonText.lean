import Relswap.Release.ManifestJson

/-!
# A reader of compact JSON

A concrete reader that accepts the compact texts and nothing else. It takes the
length of the text as fuel.
-/

namespace Relswap.Sample

open Json

def hexValue (c : Char) : Nat := "0123456789abcdef".toList.idxOf c

def unescape (c : Char) : Char :=
  if c = 'b' then '\x08'
  else if c = 'f' then '\x0c'
  else if c = 'n' then '\n'
  else if c = 'r' then '\r'
  else if c = 't' then '\t'
  else c

/-- One character inside quotes. -/
def readChar : List Char → Option (Char × List Char)
  | [] => none
  | c :: rest =>
    if c = '\\' then
      match rest with
      | [] => none
      | e :: rest =>
        if e = 'u' then some (Char.ofNat (hexValue (rest.getD 2 '0') * 16 + hexValue (rest.getD 3 '0')),
          rest.drop 4)
        else some (unescape e, rest)
    else some (c, rest)

/-- The characters up to the closing quote. -/
def readChars : Nat → List Char → Option (List Char × List Char)
  | 0, _ => none
  | fuel + 1, chars =>
    if chars.head? = some '\x22' then some ([], chars.tail)
    else do
      let (c, rest) ← readChar chars
      let (cs, rest) ← readChars fuel rest
      return (c :: cs, rest)

/-- A quoted text. -/
def readQuoted (chars : List Char) : Option (String × List Char) :=
  if chars.head? = some '\x22' then
    (readChars chars.length chars.tail).map fun (cs, rest) => (String.ofList cs, rest)
  else none

def readNumber (chars : List Char) : Json × List Char :=
  (.number (UInt64.ofNat (Nat.ofDigitChars 10 (chars.takeWhile Char.isDigit) 0)),
    chars.dropWhile Char.isDigit)

mutual

def readValue : Nat → List Char → Option (Json × List Char)
  | 0, _ => none
  | fuel + 1, chars =>
    match chars with
    | [] => none
    | c :: rest =>
      if c = 'n' then some (.null, rest.drop 3)
      else if c = 't' then some (.bool true, rest.drop 3)
      else if c = 'f' then some (.bool false, rest.drop 4)
      else if c = '\x22' then (readQuoted chars).map fun (value, rest) => (.string value, rest)
      else if c = '[' then
        if rest.head? = some ']' then some (.array [], rest.tail)
        else do
          let (item, rest) ← readValue fuel rest
          let (items, rest) ← readItems fuel rest
          return (.array (item :: items), rest)
      else if c = '{' then
        if rest.head? = some '}' then some (.object [], rest.tail)
        else do
          let (name, rest) ← readQuoted rest
          let (value, rest) ← readValue fuel rest.tail
          let (members, rest) ← readMembers fuel rest
          return (.object ((name, value) :: members), rest)
      else some (readNumber chars)

def readItems : Nat → List Char → Option (List Json × List Char)
  | 0, _ => none
  | fuel + 1, chars =>
    if chars.head? = some ',' then do
      let (item, rest) ← readValue fuel chars.tail
      let (items, rest) ← readItems fuel rest
      return (item :: items, rest)
    else some ([], chars.tail)

def readMembers : Nat → List Char → Option (List (String × Json) × List Char)
  | 0, _ => none
  | fuel + 1, chars =>
    if chars.head? = some ',' then do
      let (name, rest) ← readQuoted chars.tail
      let (value, rest) ← readValue fuel rest.tail
      let (members, rest) ← readMembers fuel rest
      return ((name, value) :: members, rest)
    else some ([], chars.tail)

end

/-! ## Reading what was written -/

theorem unhex_hex {n : Nat} (small : n < 32) :
    Char.ofNat (hexValue (hexDigitOf (n / 16)) * 16 + hexValue (hexDigitOf (n % 16))) =
      Char.ofNat n := by
  have all : ∀ k : Fin 32, Char.ofNat (hexValue (hexDigitOf (k / 16)) * 16 +
      hexValue (hexDigitOf (k % 16))) = Char.ofNat k := by decide
  exact all ⟨n, small⟩

theorem readChar_escape (c : Char) (rest : List Char) :
    readChar (escape c ++ rest) = some (c, rest) := by
  rw [escape]
  split
  · subst c
    rfl
  split
  · subst c
    rfl
  split
  · subst c
    rfl
  split
  · subst c
    rfl
  split
  · subst c
    rfl
  split
  · subst c
    rfl
  split
  · subst c
    rfl
  split
  · rename_i small
    have code := unhex_hex small
    rw [Char.ofNat_toNat] at code
    simp only [List.cons_append, List.nil_append, readChar, if_true, List.getD_cons_succ,
      List.getD_cons_zero, List.drop_succ_cons, List.drop_zero, code]
  · rename_i plain _ _ _ _ _ _
    rw [List.singleton_append]
    exact if_neg plain

theorem escape_head (c : Char) (rest : List Char) : (escape c ++ rest).head? ≠ some '\x22' := by
  rw [escape]
  split
  · simp
  rename_i other
  repeat (split; · simp)
  simpa using other

theorem readChars_escape (cs rest : List Char) {fuel : Nat} (enough : cs.length < fuel) :
    readChars fuel (cs.flatMap escape ++ '\x22' :: rest) = some (cs, rest) := by
  induction cs generalizing fuel with
  | nil =>
    obtain ⟨fuel, rfl⟩ := Nat.exists_eq_add_of_lt enough
    rfl
  | cons c cs ih =>
    obtain ⟨fuel, rfl⟩ : ∃ less, fuel = less + 1 := ⟨fuel - 1, by omega⟩
    rw [List.flatMap_cons, List.append_assoc, readChars, if_neg (escape_head c _), readChar_escape]
    simp only [Option.bind_eq_bind, Option.bind_some]
    rw [ih (by simpa using enough)]
    rfl

theorem length_le_escape (cs : List Char) : cs.length ≤ (cs.flatMap escape).length := by
  induction cs with
  | nil => exact Nat.le_refl _
  | cons c cs ih =>
    have nonempty : 1 ≤ (escape c).length := by
      rw [escape]
      repeat' split
      all_goals simp
    rw [List.flatMap_cons, List.length_append, List.length_cons]
    omega

theorem readQuoted_quote (text : String) (rest : List Char) :
    readQuoted (quote text ++ rest) = some (text, rest) := by
  have longer := length_le_escape text.toList
  rw [readQuoted, if_pos (by rfl)]
  have inner : (quote text ++ rest).tail = text.toList.flatMap escape ++ '\x22' :: rest := by
    simp [quote]
  rw [inner, readChars_escape]
  · simp
  · simp only [quote, List.cons_append, List.length_cons, List.length_append]
    omega

/-- A text after which a number ends. -/
def Ends (rest : List Char) : Prop := ∀ c ∈ rest.head?, c.isDigit = false

theorem readNumber_toDigits (value : UInt64) {rest : List Char} (ends : Ends rest) :
    readNumber (Nat.toDigits 10 value.toNat ++ rest) = (.number value, rest) := by
  have digits : ∀ c ∈ Nat.toDigits 10 value.toNat, c.isDigit = true := fun c mem =>
    Nat.isDigit_of_mem_toDigits (by decide) (by decide) mem
  have front : (Nat.toDigits 10 value.toNat ++ rest).takeWhile Char.isDigit =
      Nat.toDigits 10 value.toNat := by
    rw [List.takeWhile_append_of_pos digits]
    cases rest with
    | nil => simp
    | cons c rest =>
      rw [List.takeWhile_cons_of_neg (by simp [ends c rfl]), List.append_nil]
  have back : (Nat.toDigits 10 value.toNat ++ rest).dropWhile Char.isDigit = rest := by
    rw [List.dropWhile_append_of_pos digits]
    cases rest with
    | nil => rfl
    | cons c rest => exact List.dropWhile_cons_of_neg (by simp [ends c rfl])
  rw [readNumber, front, back, Nat.ofDigitChars_ten_toDigits, UInt64.ofNat_toNat]

/-- A character that begins no other value begins a number. -/
theorem readValue_digit {c : Char} (digit : c.isDigit = true) (fuel : Nat) (rest : List Char) :
    readValue (fuel + 1) (c :: rest) = some (readNumber (c :: rest)) := by
  have other : ∀ d : Char, d.isDigit = false → c ≠ d := by
    intro d plain same
    rw [← same, digit] at plain
    cases plain
  rw [readValue, if_neg (other _ (by decide)), if_neg (other _ (by decide)),
    if_neg (other _ (by decide)), if_neg (other _ (by decide)), if_neg (other _ (by decide)),
    if_neg (other _ (by decide))]

theorem ends_moreItems (items : List Json) (rest : List Char) :
    Ends (moreItems items ++ ']' :: rest) := by
  cases items <;> (intro c first; cases first; decide)

theorem ends_moreMembers (members : List (String × Json)) (rest : List Char) :
    Ends (moreMembers members ++ '}' :: rest) := by
  cases members with
  | nil => intro c first; cases first; decide
  | cons member members => intro c first; cases first; decide

/-- No value begins like the end of an array or an object. -/
theorem text_head (json : Json) (rest : List Char) :
    (json.text ++ rest).head? ≠ some ']' ∧ (json.text ++ rest).head? ≠ some '}' := by
  match json with
  | .null | .bool true | .bool false | .string _ | .array [] | .array (_ :: _) | .object []
  | .object (_ :: _) => constructor <;> (intro same; cases same)
  | .number value =>
    obtain ⟨d, ds, digits⟩ := List.exists_cons_of_ne_nil
      (Nat.toDigits_ne_nil (n := value.toNat) (b := 10))
    have digit : d.isDigit = true :=
      Nat.isDigit_of_mem_toDigits (by decide) (by decide) (digits ▸ List.mem_cons_self)
    rw [text, digits]
    constructor <;> (intro same; cases same; cases digit)

mutual

theorem readValue_text (json : Json) (fuel : Nat) (rest : List Char)
    (enough : json.text.length ≤ fuel) (ends : Ends rest) :
    readValue fuel (json.text ++ rest) = some (json, rest) := by
  cases fuel with
  | zero =>
    have nothing : json.text = [] := List.eq_nil_of_length_eq_zero (Nat.le_zero.mp enough)
    have head := (text_head json [']']).1
    rw [nothing] at head
    exact absurd rfl head
  | succ fuel =>
    match json with
    | .null => rfl
    | .bool true => rfl
    | .bool false => rfl
    | .number value =>
      obtain ⟨d, ds, digits⟩ := List.exists_cons_of_ne_nil
        (Nat.toDigits_ne_nil (n := value.toNat) (b := 10))
      have digit : d.isDigit = true :=
        Nat.isDigit_of_mem_toDigits (by decide) (by decide) (digits ▸ List.mem_cons_self)
      have read := readNumber_toDigits value ends
      rw [digits, List.cons_append] at read
      rw [text, digits, List.cons_append, readValue_digit digit, read]
    | .string value =>
      have read := readQuoted_quote value rest
      change (readQuoted (quote value ++ rest)).map _ = _
      rw [read]
      rfl
    | .array [] => rfl
    | .array (item :: items) =>
      simp only [text, List.length_cons, List.length_append, List.length_nil] at enough
      have first := readValue_text item fuel (moreItems items ++ ']' :: rest) (by omega)
        (ends_moreItems items rest)
      have others := readItems_text items fuel rest (by omega)
      have whole : (Json.array (item :: items)).text ++ rest =
          '[' :: (item.text ++ (moreItems items ++ ']' :: rest)) := by
        simp [text]
      rw [whole]
      simp only [readValue]
      rw [if_neg (text_head item _).1, first]
      simp only [Option.bind_eq_bind, Option.bind_some, others]
      rfl
    | .object [] => rfl
    | .object ((name, value) :: members) =>
      simp only [text, List.length_cons, List.length_append, List.length_nil] at enough
      have first := readValue_text value fuel (moreMembers members ++ '}' :: rest) (by omega)
        (ends_moreMembers members rest)
      have others := readMembers_text members fuel rest (by omega)
      have whole : (Json.object ((name, value) :: members)).text ++ rest =
          '{' :: (quote name ++ ':' :: (value.text ++ (moreMembers members ++ '}' :: rest))) := by
        simp [text]
      have named := readQuoted_quote name
        (':' :: (value.text ++ (moreMembers members ++ '}' :: rest)))
      have opens : (quote name ++ ':' :: (value.text ++ (moreMembers members ++ '}' :: rest))).head? ≠
          some '}' := by
        intro same
        cases same
      rw [whole]
      simp only [readValue]
      rw [if_neg opens, named]
      simp only [Option.bind_eq_bind, Option.bind_some, List.tail_cons, first, others]
      rfl

theorem readItems_text (items : List Json) (fuel : Nat) (rest : List Char)
    (enough : (moreItems items).length < fuel) :
    readItems fuel (moreItems items ++ ']' :: rest) = some (items, rest) := by
  obtain ⟨fuel, rfl⟩ : ∃ less, fuel = less + 1 := ⟨fuel - 1, by omega⟩
  match items with
  | [] => rfl
  | item :: items =>
    simp only [moreItems, List.length_cons, List.length_append] at enough
    have first := readValue_text item fuel (moreItems items ++ ']' :: rest) (by omega)
      (ends_moreItems items rest)
    have others := readItems_text items fuel rest (by omega)
    have whole : moreItems (item :: items) ++ ']' :: rest =
        ',' :: (item.text ++ (moreItems items ++ ']' :: rest)) := by
      simp [moreItems]
    rw [whole, readItems, List.head?_cons, if_pos rfl, List.tail_cons, first]
    simp only [Option.bind_eq_bind, Option.bind_some, others]
    rfl

theorem readMembers_text (members : List (String × Json)) (fuel : Nat) (rest : List Char)
    (enough : (moreMembers members).length < fuel) :
    readMembers fuel (moreMembers members ++ '}' :: rest) = some (members, rest) := by
  obtain ⟨fuel, rfl⟩ : ∃ less, fuel = less + 1 := ⟨fuel - 1, by omega⟩
  match members with
  | [] => rfl
  | (name, value) :: members =>
    simp only [moreMembers, List.length_cons, List.length_append] at enough
    have first := readValue_text value fuel (moreMembers members ++ '}' :: rest) (by omega)
      (ends_moreMembers members rest)
    have others := readMembers_text members fuel rest (by omega)
    have whole : moreMembers ((name, value) :: members) ++ '}' :: rest =
        ',' :: (quote name ++ ':' :: (value.text ++ (moreMembers members ++ '}' :: rest))) := by
      simp [moreMembers]
    have named := readQuoted_quote name
      (':' :: (value.text ++ (moreMembers members ++ '}' :: rest)))
    rw [whole, readMembers, List.head?_cons, if_pos rfl, List.tail_cons, named]
    simp only [Option.bind_eq_bind, Option.bind_some, List.tail_cons, first, others]
    rfl

end

def parse (bytes : Bytes) : Except String Json :=
  match decodeUtf8 bytes with
  | none => .error "invalid UTF-8"
  | some text =>
    match readValue text.toList.length text.toList with
    | some (json, []) => if printJson json = bytes then .ok json else .error "not compact"
    | _ => .error "invalid JSON"

theorem parse_printJson (json : Json) : parse (printJson json) = .ok json := by
  have read := readValue_text json json.text.length [] (Nat.le_refl _) (by intro c first; cases first)
  rw [List.append_nil] at read
  rw [parse, printJson, decodeUtf8_encodeUtf8]
  simp only [String.toList_ofList, read]
  exact if_pos rfl

instance : JsonText where
  parse := parse
  parse_print json _ := parse_printJson json
  print_shortest bytes json parsed := by
    unfold parse at parsed
    split at parsed
    · cases parsed
    · split at parsed
      · split at parsed
        · rename_i same
          cases parsed
          exact (congrArg List.length same).le
        · cases parsed
      · cases parsed

end Relswap.Sample
