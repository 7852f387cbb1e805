import Relswap.Release.ZipDirectory

/-!
# The layout of a ZIP directory

An archive is laid out as some bytes, central headers, an end record and a
comment. The forward scan counts the headers of such a layout and nothing else.
-/

namespace Relswap

open Durable Checked

/-! ## Layout -/

def shortAt (record : Bytes) (start : Nat) : Nat :=
  (record.getD start 0).toNat + 256 * (record.getD (start + 1) 0).toNat

def longAt (record : Bytes) (start : Nat) : Nat :=
  (record.getD start 0).toNat + 256 * (record.getD (start + 1) 0).toNat +
    65536 * (record.getD (start + 2) 0).toNat + 16777216 * (record.getD (start + 3) 0).toNat

/-- A central header: its fixed part, then the name, the extra field and the comment. -/
structure CentralHeader where
  fixed : Bytes
  variablePart : Bytes
  length : fixed.length = centralHeaderSize
  signed : fixed.take 4 = centralSignature
  sized : variablePart.length = shortAt fixed 28 + shortAt fixed 30 + shortAt fixed 32

namespace CentralHeader

def nameSize (header : CentralHeader) : Nat := shortAt header.fixed 28

def bytes (header : CentralHeader) : Bytes := header.fixed ++ header.variablePart

theorem bytes_length (header : CentralHeader) :
    header.bytes.length = centralHeaderSize + header.variablePart.length := by
  rw [bytes, List.length_append, header.length]

end CentralHeader

/-- An end-of-directory record of one disk and without ZIP64 fields. -/
structure EndRecord where
  fixed : Bytes
  length : fixed.length = eocdSize
  signed : fixed.take 4 = eocdSignature
  singleDisk : shortAt fixed 4 = 0 ∧ shortAt fixed 6 = 0 ∧ shortAt fixed 8 = shortAt fixed 10
  notZip64 : shortAt fixed 10 ≠ 2 ^ 16 - 1 ∧ longAt fixed 12 ≠ 2 ^ 32 - 1 ∧
    longAt fixed 16 ≠ 2 ^ 32 - 1

namespace EndRecord

def members (record : EndRecord) : Nat := shortAt record.fixed 10
def centralSize (record : EndRecord) : Nat := longAt record.fixed 12
def centralStart (record : EndRecord) : Nat := longAt record.fixed 16
def commentSize (record : EndRecord) : Nat := shortAt record.fixed 20

end EndRecord

/-- The bytes of a central directory. -/
def directory (headers : List CentralHeader) : Bytes := headers.flatMap CentralHeader.bytes

/-- The size of all variable parts together. -/
def variableTotal (headers : List CentralHeader) : Nat :=
  (headers.map fun header => header.variablePart.length).sum

@[simp] theorem directory_nil : directory [] = [] := rfl

@[simp] theorem directory_cons (header : CentralHeader) (headers : List CentralHeader) :
    directory (header :: headers) = header.bytes ++ directory headers := List.flatMap_cons

@[simp] theorem variableTotal_nil : variableTotal [] = 0 := rfl

@[simp] theorem variableTotal_cons (header : CentralHeader) (headers : List CentralHeader) :
    variableTotal (header :: headers) = header.variablePart.length + variableTotal headers := by
  simp [variableTotal]

/-- The limits on a central directory. -/
structure BoundedDirectory (headers : List CentralHeader) : Prop where
  members : headers.length ≤ maxArchiveMembers
  names : ∀ header ∈ headers, header.nameSize ≤ maxArchiveMemberName
  metadata : variableTotal headers ≤ maxArchiveMetadataSize

/-- A whole archive whose end record describes its directory. -/
structure ZipLayout where
  before : Bytes
  headers : List CentralHeader
  record : EndRecord
  comment : Bytes
  commentSize : record.commentSize = comment.length
  centralStart : record.centralStart = before.length
  centralSize : record.centralSize = (directory headers).length
  members : record.members = headers.length
  bounded : BoundedDirectory headers

namespace ZipLayout

/-- Where the end record stands, and where the directory ends. -/
def offset (zip : ZipLayout) : Nat := zip.before.length + (directory zip.headers).length

def bytes (zip : ZipLayout) : Bytes :=
  zip.before ++ directory zip.headers ++ zip.record.fixed ++ zip.comment

end ZipLayout

/-! ## Numbers -/

theorem shortAt_lt (record : Bytes) (start : Nat) : shortAt record start < 65536 := by
  have low := (record.getD start 0).toNat_lt
  have high := (record.getD (start + 1) 0).toNat_lt
  rw [shortAt]
  omega

theorem longAt_lt (record : Bytes) (start : Nat) : longAt record start < 4294967296 := by
  have first := (record.getD start 0).toNat_lt
  have second := (record.getD (start + 1) 0).toNat_lt
  have third := (record.getD (start + 2) 0).toNat_lt
  have fourth := (record.getD (start + 3) 0).toNat_lt
  rw [longAt]
  omega

theorem get_byte {record : Bytes} {index : Nat} (h : index < record.length) :
    (get record index : ArchiveRun UInt8) = .ok (record.getD index 0) := by
  rw [get_eq h, List.getD_eq_getElem _ _ h]

theorem readShort_eq {record : Bytes} {start : Nat} (h : start + 1 < record.length) :
    readShort record start = .ok (shortAt record start) := by
  rw [readShort, get_byte (by omega), ok_bind, get_byte h, ok_bind]
  rfl

theorem readLong_eq {record : Bytes} {start : Nat} (h : start + 3 < record.length) :
    readLong record start = .ok (longAt record start) := by
  rw [readLong, get_byte (by omega), ok_bind, get_byte (by omega), ok_bind, get_byte (by omega),
    ok_bind, get_byte h, ok_bind]
  rfl

/-! ## One pass of the forward scan -/

variable {bytes : Bytes} {start stop cursor : Nat} {scan : CentralScan} {header : CentralHeader}
variable {headers : List CentralHeader}

def CentralScan.past (scan : CentralScan) (header : CentralHeader) : CentralScan where
  cursor := scan.cursor + header.bytes.length
  members := scan.members + 1
  metadataSize := scan.metadataSize + header.variablePart.length

namespace CentralScan

@[simp] theorem past_cursor : (scan.past header).cursor = scan.cursor + header.bytes.length := rfl

@[simp] theorem past_members : (scan.past header).members = scan.members + 1 := rfl

@[simp] theorem past_metadataSize :
    (scan.past header).metadataSize = scan.metadataSize + header.variablePart.length := rfl

end CentralScan

/-- The next header lies before `stop` and within the limits. -/
structure Passes (bytes : Bytes) (stop : Nat) (scan : CentralScan) (header : CentralHeader) :
    Prop where
  here : header.bytes <+: bytes.drop scan.cursor
  inside : scan.cursor + header.bytes.length ≤ stop
  name : header.nameSize ≤ maxArchiveMemberName
  metadata : scan.metadataSize + header.variablePart.length ≤ maxArchiveMetadataSize
  members : scan.members + 1 ≤ maxArchiveMembers

/-- What holds before each pass. -/
structure Scanning (bytes : Bytes) (stop : Nat) (scan : CentralScan) : Prop where
  cursor : scan.cursor ≤ stop
  stop : stop ≤ bytes.length
  members : scan.members ≤ maxArchiveMembers
  metadata : scan.metadataSize ≤ maxArchiveMetadataSize

/-- A pass that neither goes on nor counts the whole directory. -/
def GivesUp (result : ArchiveRun (CentralScan ⊕ Option Nat)) : Prop :=
  result = .ok (.inr none) ∨ (∃ error, result = fail error) ∨
    ∃ count, maxArchiveMembers < count ∧ result = .ok (.inr (some count))

theorem header_fixed (here : header.bytes <+: bytes.drop cursor) :
    header.fixed = (bytes.drop cursor).take centralHeaderSize := by
  obtain ⟨rest, whole⟩ := here
  rw [← whole, CentralHeader.bytes, List.append_assoc, List.take_left' header.length]

theorem header_length (here : header.bytes <+: bytes.drop cursor) (present : cursor ≤ bytes.length) :
    cursor + header.bytes.length ≤ bytes.length := by
  have short := here.length_le
  rw [List.length_drop] at short
  omega

/-! ### A header's fixed part -/

/-- The size of the variable parts that a fixed part declares. -/
def variableSize (fixed : Bytes) : Nat := shortAt fixed 28 + shortAt fixed 30 + shortAt fixed 32

/-- A fixed part that the scan goes past. -/
structure Fits (stop : Nat) (scan : CentralScan) (fixed : Bytes) : Prop where
  signed : fixed.take 4 = centralSignature
  name : shortAt fixed 28 ≤ maxArchiveMemberName
  metadata : scan.metadataSize + variableSize fixed ≤ maxArchiveMetadataSize
  inside : scan.cursor + (centralHeaderSize + variableSize fixed) ≤ stop
  members : scan.members + 1 ≤ maxArchiveMembers

theorem variableSize_lt (fixed : Bytes) : variableSize fixed < 196608 := by
  have name := shortAt_lt fixed 28
  have extra := shortAt_lt fixed 30
  have comment := shortAt_lt fixed 32
  rw [variableSize]
  omega

theorem checkedAdd_variableSize (fixed : Bytes) :
    ((checkedAdd usizeLimit (shortAt fixed 28) (shortAt fixed 30)).bind fun size =>
      checkedAdd usizeLimit size (shortAt fixed 32)) = some (variableSize fixed) := by
  have total := variableSize_lt fixed
  rw [variableSize] at total ⊢
  rw [usizeLimit]
  rw [checkedAdd_eq (by omega), Option.bind_some, checkedAdd_eq (by omega)]

/-- The pass over a fixed part with its numbers read. -/
theorem passHeader_eq (bounded : bytes.length < 2 ^ 63) (h : Scanning bytes stop scan)
    {fixed : Bytes} (length : fixed.length = centralHeaderSize) :
    passHeader stop scan fixed =
      if fixed.take 4 ≠ centralSignature then .ok (.inr none)
      else (do
        check (shortAt fixed 28 ≤ maxArchiveMemberName)
          (.error (.archive s!"ZIP member name exceeds {maxArchiveMemberName} bytes"))
        check (scan.metadataSize + variableSize fixed ≤ maxArchiveMetadataSize)
          (.error (.archive s!"ZIP central metadata exceeds {maxArchiveMetadataSize} bytes"))
        if stop < scan.cursor + (centralHeaderSize + variableSize fixed) then .ok (.inr none)
        else if maxArchiveMembers < scan.members + 1 then .ok (.inr (some (scan.members + 1)))
        else .ok (.inl ⟨scan.cursor + (centralHeaderSize + variableSize fixed), scan.members + 1,
          scan.metadataSize + variableSize fixed⟩)) := by
  unfold centralHeaderSize at length
  have total := variableSize_lt fixed
  have cursor := h.cursor
  have inside := h.stop
  have members : scan.members + 1 < usizeLimit := by
    have limit := h.members
    unfold maxArchiveMembers at limit
    unfold usizeLimit
    omega
  have metadata : scan.metadataSize + variableSize fixed < usizeLimit := by
    have limit := h.metadata
    unfold maxArchiveMetadataSize at limit
    unfold usizeLimit
    omega
  have size : centralHeaderSize + variableSize fixed < usizeLimit := by
    unfold usizeLimit centralHeaderSize
    omega
  have next : scan.cursor + (centralHeaderSize + variableSize fixed) < usizeLimit := by
    unfold usizeLimit centralHeaderSize
    omega
  unfold passHeader
  rw [takeTo_eq (by omega), readShort_eq (by omega), readShort_eq (by omega),
    readShort_eq (by omega)]
  simp only [ok_bind, checkedAdd_variableSize, orError, checkedAdd_eq metadata, add_eq size,
    checkedAdd_eq next, add_eq members]
  rfl

theorem passHeader_fits (bounded : bytes.length < 2 ^ 63) (h : Scanning bytes stop scan)
    {fixed : Bytes} (length : fixed.length = centralHeaderSize) (fits : Fits stop scan fixed) :
    passHeader stop scan fixed =
      .ok (.inl ⟨scan.cursor + (centralHeaderSize + variableSize fixed), scan.members + 1,
        scan.metadataSize + variableSize fixed⟩) := by
  have inside := fits.inside
  have members := fits.members
  rw [passHeader_eq bounded h length, if_neg (not_not_intro fits.signed), check_pass fits.name,
    ok_bind, check_pass fits.metadata, ok_bind, if_neg (by omega), if_neg (by omega)]

theorem GivesUp.of_check {condition : Prop} [Decidable condition] {error : ReleaseError}
    {rest : Unit → ArchiveRun (CentralScan ⊕ Option Nat)} (h : condition → GivesUp (rest ())) :
    GivesUp (check condition (.error error) >>= rest) := by
  by_cases holds : condition
  · rw [check_pass holds, ok_bind]
    exact h holds
  · rw [check_fail holds, error_bind]
    exact Or.inr (Or.inl ⟨error, rfl⟩)

theorem passHeader_givesUp (bounded : bytes.length < 2 ^ 63) (h : Scanning bytes stop scan)
    {fixed : Bytes} (length : fixed.length = centralHeaderSize) (misfit : ¬ Fits stop scan fixed) :
    GivesUp (passHeader stop scan fixed) := by
  rw [passHeader_eq bounded h length]
  split
  · exact Or.inl rfl
  rename_i signed
  refine GivesUp.of_check fun name => GivesUp.of_check fun metadata => ?_
  split
  · exact Or.inl rfl
  rename_i inside
  split
  · rename_i many
    exact Or.inr (Or.inr ⟨_, many, rfl⟩)
  rename_i few
  exact absurd ⟨not_not.mp signed, name, metadata, not_lt.mp inside, not_lt.mp few⟩ misfit

/-! ### A header in its place -/

theorem Passes.fits (h : Passes bytes stop scan header) : Fits stop scan header.fixed := by
  have inside := h.inside
  have metadata := h.metadata
  rw [header.bytes_length, header.sized] at inside
  rw [header.sized] at metadata
  exact ⟨header.signed, h.name, metadata, inside, h.members⟩

/-- A fixed part that fits, with what follows it, is a header. -/
theorem Fits.passes {fixed : Bytes} (fits : Fits stop scan fixed)
    (length : fixed.length = centralHeaderSize) (present : stop ≤ bytes.length)
    (here : fixed = (bytes.drop scan.cursor).take centralHeaderSize) :
    ∃ header : CentralHeader, header.fixed = fixed ∧ Passes bytes stop scan header ∧
      header.variablePart.length = variableSize fixed := by
  have inside := fits.inside
  have room : variableSize fixed ≤ (bytes.drop (scan.cursor + centralHeaderSize)).length := by
    rw [List.length_drop]
    omega
  have sized := List.length_take_of_le room
  obtain ⟨header, fixed_eq, variable_eq⟩ : ∃ header : CentralHeader, header.fixed = fixed ∧
      header.variablePart =
        (bytes.drop (scan.cursor + centralHeaderSize)).take (variableSize fixed) :=
    ⟨⟨fixed, _, length, fits.signed, sized⟩, rfl, rfl⟩
  have length' : header.variablePart.length = variableSize fixed := by rw [variable_eq, sized]
  refine ⟨header, fixed_eq, ⟨?_, ?_, ?_, ?_, fits.members⟩, length'⟩
  · rw [CentralHeader.bytes, fixed_eq, variable_eq, here, ← List.drop_drop, ← List.take_add]
    exact List.take_prefix _ _
  · rw [header.bytes_length, length']
    exact inside
  · rw [CentralHeader.nameSize, fixed_eq]
    exact fits.name
  · rw [length']
    exact fits.metadata

/-- A pass counts the directory, goes past a header, or gives up without one. -/
theorem centralPass_cases (bounded : bytes.length < 2 ^ 63) (h : Scanning bytes stop scan) :
    (scan.cursor = stop ∧ centralPass bytes stop scan = .ok (.inr (some scan.members))) ∨
    (∃ header, Passes bytes stop scan header ∧
      centralPass bytes stop scan = .ok (.inl (scan.past header))) ∨
    (scan.cursor < stop ∧ (∀ header, ¬ Passes bytes stop scan header) ∧
      GivesUp (centralPass bytes stop scan)) := by
  have inside := h.stop
  rcases h.cursor.eq_or_lt with finished | before
  · left
    refine ⟨finished, ?_⟩
    rw [centralPass, if_neg (by omega), if_pos finished]
    rfl
  right
  have small : scan.cursor + centralHeaderSize < usizeLimit := by
    rw [usizeLimit, centralHeaderSize]
    omega
  rw [centralPass, if_pos before, add_eq small, ok_bind]
  by_cases room : scan.cursor + centralHeaderSize ≤ bytes.length
  swap
  · right
    refine ⟨before, ?_, Or.inl ?_⟩
    · intro header passes
      have fits := header_length passes.here (by omega)
      rw [header.bytes_length] at fits
      omega
    · rw [range, if_neg (by omega)]
      rfl
  have found : range bytes scan.cursor (scan.cursor + centralHeaderSize) =
      some ((bytes.drop scan.cursor).take centralHeaderSize) := by
    rw [range_eq_some, Nat.add_sub_cancel_left]
    exact ⟨by omega, room, rfl⟩
  have length : ((bytes.drop scan.cursor).take centralHeaderSize).length = centralHeaderSize := by
    rw [List.length_take, List.length_drop]
    omega
  rw [found]
  by_cases fits : Fits stop scan ((bytes.drop scan.cursor).take centralHeaderSize)
  · left
    obtain ⟨header, _, passes, size⟩ := fits.passes length inside rfl
    refine ⟨header, passes, (passHeader_fits bounded h length fits).trans ?_⟩
    rw [CentralScan.past, header.bytes_length, size]
  · right
    refine ⟨before, ?_, passHeader_givesUp bounded h length fits⟩
    intro header passes
    rw [← header_fixed passes.here] at fits
    exact fits passes.fits

/-! ## The forward scan -/

/-- The rest of the range is split into headers, within the limits. -/
structure Splits (bytes : Bytes) (stop : Nat) (scan : CentralScan)
    (headers : List CentralHeader) : Prop where
  here : directory headers <+: bytes.drop scan.cursor
  ends : scan.cursor + (directory headers).length = stop
  names : ∀ header ∈ headers, header.nameSize ≤ maxArchiveMemberName
  metadata : scan.metadataSize + variableTotal headers ≤ maxArchiveMetadataSize
  members : scan.members + headers.length ≤ maxArchiveMembers

theorem Scanning.past (h : Scanning bytes stop scan) (passes : Passes bytes stop scan header) :
    Scanning bytes stop (scan.past header) :=
  ⟨passes.inside, h.stop, passes.members, passes.metadata⟩

theorem header_unique {other : CentralHeader} (here : header.bytes <+: bytes.drop cursor)
    (there : other.bytes <+: bytes.drop cursor) : header = other := by
  have fixed : header.fixed = other.fixed := (header_fixed here).trans (header_fixed there).symm
  have length : header.bytes.length = other.bytes.length := by
    rw [header.bytes_length, other.bytes_length, header.sized, other.sized, fixed]
  have bytes_eq : header.bytes = other.bytes :=
    (List.prefix_of_prefix_length_le here there length.le).eq_of_length length
  rw [CentralHeader.bytes, CentralHeader.bytes, fixed, List.append_cancel_left_eq] at bytes_eq
  obtain ⟨_, _, _, _, _⟩ := header
  obtain ⟨_, _, _, _, _⟩ := other
  cases fixed
  cases bytes_eq
  rfl

/-- Splitting off the first header. -/
theorem splits_cons : Splits bytes stop scan (header :: headers) ↔
    Passes bytes stop scan header ∧ Splits bytes stop (scan.past header) headers := by
  constructor
  · intro h
    have here := h.here
    have ends := h.ends
    have metadata := h.metadata
    have members := h.members
    rw [directory_cons] at here
    rw [directory_cons, List.length_append] at ends
    rw [variableTotal_cons] at metadata
    rw [List.length_cons] at members
    refine ⟨⟨(List.prefix_append _ _).trans here, by omega, h.names _ List.mem_cons_self, by omega,
      by omega⟩, ⟨?_, ?_, fun other member => h.names other (List.mem_cons_of_mem _ member), ?_, ?_⟩⟩
    · obtain ⟨rest, whole⟩ := here
      refine ⟨rest, ?_⟩
      rw [CentralScan.past_cursor, ← List.drop_drop, ← whole, List.append_assoc, List.drop_left]
    · rw [CentralScan.past_cursor]
      omega
    · rw [CentralScan.past_metadataSize]
      omega
    · rw [CentralScan.past_members]
      omega
  · intro h
    obtain ⟨passes, rest⟩ := h
    have ends := rest.ends
    have metadata := rest.metadata
    have members := rest.members
    rw [CentralScan.past_cursor] at ends
    rw [CentralScan.past_metadataSize] at metadata
    rw [CentralScan.past_members] at members
    refine ⟨?_, ?_, ?_, ?_, ?_⟩
    · obtain ⟨after, whole⟩ := passes.here
      obtain ⟨after', whole'⟩ := rest.here
      refine ⟨after', ?_⟩
      rw [CentralScan.past_cursor, ← List.drop_drop, ← whole, List.drop_left] at whole'
      rw [directory_cons, List.append_assoc, whole', whole]
    · rw [directory_cons, List.length_append]
      omega
    · intro other member
      rcases List.mem_cons.mp member with rfl | member
      · exact passes.name
      · exact rest.names other member
    · rw [variableTotal_cons]
      omega
    · rw [List.length_cons]
      omega

/-- The scan is regular, and a count within the limit is one of headers that fill the range. -/
def Counts (bytes : Bytes) (stop : Nat) (scan : CentralScan)
    (result : ArchiveRun (Option Nat)) : Prop :=
  Regular result ∧ ∀ count ≤ maxArchiveMembers, result = .ok (some count) ↔
    ∃ headers, Splits bytes stop scan headers ∧ count = scan.members + headers.length

theorem splits_nil (h : Scanning bytes stop scan) :
    Splits bytes stop scan [] ↔ scan.cursor = stop := by
  constructor
  · intro splits
    exact splits.ends
  · intro finished
    exact ⟨List.nil_prefix, finished, fun header member => absurd member List.not_mem_nil,
      h.metadata, h.members⟩

theorem Passes.before (h : Passes bytes stop scan header) : scan.cursor < stop := by
  have inside := h.inside
  rw [header.bytes_length, centralHeaderSize] at inside
  omega

theorem counts_finished (h : Scanning bytes stop scan) (finished : scan.cursor = stop) :
    Counts bytes stop scan (.ok (some scan.members)) := by
  refine ⟨regular_ok _, fun count _ => ?_⟩
  rw [Except.ok.injEq, Option.some.injEq]
  constructor
  · intro same
    exact ⟨[], (splits_nil h).mpr finished, same.symm⟩
  · intro split
    obtain ⟨headers, splits, rfl⟩ := split
    cases headers with
    | nil => rfl
    | cons header headers =>
      have before := (splits_cons.mp splits).1.before
      omega

theorem counts_past (passes : Passes bytes stop scan header) {result : ArchiveRun (Option Nat)}
    (rest : Counts bytes stop (scan.past header) result) : Counts bytes stop scan result := by
  refine ⟨rest.1, fun count bounded => (rest.2 count bounded).trans ?_⟩
  constructor
  · intro split
    obtain ⟨headers, splits, rfl⟩ := split
    refine ⟨header :: headers, splits_cons.mpr ⟨passes, splits⟩, ?_⟩
    rw [List.length_cons, CentralScan.past_members]
    omega
  · intro split
    obtain ⟨headers, splits, rfl⟩ := split
    cases headers with
    | nil =>
      have ends : scan.cursor + 0 = stop := splits.ends
      have before := passes.before
      omega
    | cons other headers =>
      obtain ⟨passes', splits'⟩ := splits_cons.mp splits
      obtain rfl := header_unique passes.here passes'.here
      refine ⟨headers, splits', ?_⟩
      rw [List.length_cons, CentralScan.past_members]
      omega

theorem counts_nothing (before : scan.cursor < stop)
    (none : ∀ header, ¬ Passes bytes stop scan header) {result : ArchiveRun (Option Nat)}
    (regular : Regular result)
    (many : ∀ count, result = .ok (some count) → maxArchiveMembers < count) :
    Counts bytes stop scan result := by
  refine ⟨regular, fun count bounded => ?_⟩
  constructor
  · intro counted
    exact absurd (many count counted) (by omega)
  · intro split
    obtain ⟨headers, splits, _⟩ := split
    cases headers with
    | nil =>
      have ends : scan.cursor + 0 = stop := splits.ends
      omega
    | cons header headers => exact absurd (splits_cons.mp splits).1 (none header)

theorem zipCentralMemberCount_spec (bounded : bytes.length < 2 ^ 63) (first : start ≤ stop)
    (last : stop ≤ bytes.length) :
    Counts bytes stop ⟨start, 0, 0⟩ (zipCentralMemberCount bytes start stop) := by
  refine loop_rule (Scanning bytes stop) (fun scan => stop - scan.cursor) (Counts bytes stop)
    ?_ ?_ ?_ _ _ ⟨first, last, Nat.zero_le _, Nat.zero_le _⟩ (by
      dsimp only
      omega)
  · intro scan next holds pass
    rcases centralPass_cases bounded holds with ⟨_, same⟩ | ⟨header, passes, same⟩ | ⟨_, _, gives⟩
    · rw [pass] at same
      cases same
    · rw [pass] at same
      cases same
      refine ⟨holds.past passes, ?_, fun result rest => counts_past passes rest⟩
      have inside := passes.inside
      have before := passes.before
      have length := header.bytes_length
      unfold centralHeaderSize at length
      rw [CentralScan.past_cursor]
      omega
    · rw [pass] at gives
      rcases gives with same | ⟨_, same⟩ | ⟨_, _, same⟩ <;> cases same
  · intro scan result holds pass
    rcases centralPass_cases bounded holds with
      ⟨finished, same⟩ | ⟨_, _, same⟩ | ⟨before, none, gives⟩
    · rw [pass] at same
      cases same
      exact counts_finished holds finished
    · rw [pass] at same
      cases same
    · refine counts_nothing before none (regular_ok _) fun count counted => ?_
      cases counted
      rw [pass] at gives
      rcases gives with same | ⟨_, same⟩ | ⟨many, large, same⟩
      · cases same
      · cases same
      · cases same
        exact large
  · intro scan fault holds pass
    rcases centralPass_cases bounded holds with ⟨_, same⟩ | ⟨_, _, same⟩ | ⟨before, none, gives⟩
    · rw [pass] at same
      cases same
    · rw [pass] at same
      cases same
    · rw [pass] at gives
      rcases gives with same | ⟨error, same⟩ | ⟨_, _, same⟩
      · cases same
      · cases same
        exact counts_nothing before none (regular_fail error) fun count counted => by cases counted
      · cases same

end Relswap
