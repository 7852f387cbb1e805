import Relswap.Proof.Asset
import Relswap.Release.Zip

/-!
# One pass of the ZIP member loop

The rules for an entry, apart from the order in which the code tries them: which
names lie inside the root, what a stream delivers, and when the loop goes on.
-/

namespace Relswap

open Durable

/-! ## Names inside the root -/

/-- A raw member name denotes a path inside the canonical root. Directories may carry
a trailing slash. -/
structure InsideRoot (root : String) (raw : Bytes) (path : String) : Prop where
  raw_eq : raw = encodeUtf8 path ∨ raw = encodeUtf8 (path ++ "/")
  bounded : raw.length ≤ maxArchiveMemberName
  noNul : 0 ∉ raw
  noBackslash : 92 ∉ raw
  first : (segmentsOf path).head? = some root
  parts : ∀ part ∈ segmentsOf path, part ≠ "" ∧ part ≠ "." ∧ part ≠ ".." ∧ ':' ∉ part.toList

/-- A path of nonempty parts does not end in a slash. -/
theorem stripSuffix_slash_of_parts {path : String} (parts : ∀ part ∈ segmentsOf path, part ≠ "") :
    stripSuffix path "/" = none := by
  cases strips : stripSuffix path "/" with
  | none => rfl
  | some stem =>
    rw [stripSuffix_eq_some] at strips
    rw [strips, segmentsOf_slash] at parts
    exact absurd rfl (parts "" (by simp))

theorem not_absolute_of_parts {path : String} (parts : ∀ part ∈ segmentsOf path, part ≠ "") :
    path ≠ "" ∧ path.toList.head? ≠ some '/' := by
  constructor
  · intro empty
    rw [empty] at parts
    exact parts "" (by decide) rfl
  · intro slash
    obtain ⟨rest, whole⟩ := List.head?_eq_some_iff.mp slash
    have shape : path = "/" ++ String.ofList rest := by
      apply String.toList_injective
      simpa using whole
    rw [shape, segmentsOf_rooted] at parts
    exact parts "" List.mem_cons_self rfl

theorem InsideRoot.ne_nil {root path : String} {raw : Bytes} (h : InsideRoot root raw path) :
    path ≠ "" ∧ path.toList.head? ≠ some '/' :=
  not_absolute_of_parts fun part member => (h.parts part member).1

theorem encodeUtf8_ne_nil {text : String} (nonempty : text ≠ "") : encodeUtf8 text ≠ [] := by
  intro empty
  exact nonempty (encodeUtf8_injective empty)

theorem ofList_eq_iff {chars : List Char} {text : String} :
    String.ofList chars = text ↔ chars = text.toList := by
  constructor
  · intro same
    rw [← same]
    simp
  · intro same
    apply String.toList_injective
    simpa using same

/-- The parts of a path, as the code reads them. -/
theorem parts_iff {root path : String} :
    ((splitSlash path.toList).all
        (fun part => !(part == [] || part == ['.'] || part == ['.', '.'])) = true ∧
      (splitSlash path.toList).headD [] = root.toList ∧
        (splitSlash path.toList).all (fun part => part.all fun c => c != ':') = true) ↔
      (segmentsOf path).head? = some root ∧
        ∀ part ∈ segmentsOf path, part ≠ "" ∧ part ≠ "." ∧ part ≠ ".." ∧ ':' ∉ part.toList := by
  have head : (splitSlash path.toList).headD [] = root.toList ↔
      (segmentsOf path).head? = some root := by
    obtain ⟨first, rest, split⟩ := List.exists_cons_of_ne_nil (splitSlash_ne_nil path.toList)
    rw [segmentsOf, split, List.headD_cons, List.map_cons, List.head?_cons, Option.some.injEq,
      ofList_eq_iff]
  have each : ∀ part : List Char,
      (!(part == [] || part == ['.'] || part == ['.', '.'])) = true ∧
        (part.all fun c => c != ':') = true ↔
      String.ofList part ≠ "" ∧ String.ofList part ≠ "." ∧ String.ofList part ≠ ".." ∧
        ':' ∉ (String.ofList part).toList := by
    intro part
    have colon : (part.all fun c => c != ':') = true ↔ ':' ∉ part := by
      rw [List.all_eq_true]
      constructor
      · intro h member
        have different := h ':' member
        simp at different
      · intro h c member
        rw [bne_iff_ne]
        intro same
        exact h (same ▸ member)
    rw [colon]
    simp only [ne_eq, ofList_eq_iff, String.toList_ofList]
    simp [and_assoc]
  rw [head]
  constructor
  · intro h
    obtain ⟨dots, first, colons⟩ := h
    refine ⟨first, fun part member => ?_⟩
    obtain ⟨chars, inside, rfl⟩ := List.mem_map.mp member
    exact (each chars).mp ⟨List.all_eq_true.mp dots chars inside, List.all_eq_true.mp colons chars inside⟩
  · intro h
    obtain ⟨first, parts⟩ := h
    have both := fun chars (inside : chars ∈ splitSlash path.toList) =>
      (each chars).mpr (parts _ (List.mem_map_of_mem inside))
    exact ⟨List.all_eq_true.mpr fun chars inside => (both chars inside).1, first,
      List.all_eq_true.mpr fun chars inside => (both chars inside).2⟩

theorem validateMemberName_eq_ok {raw : Bytes} {root path : String} {index : Nat} :
    validateMemberName raw root index = .ok path ↔ InsideRoot root raw path := by
  rw [validateMemberName]
  simp only [bind_eq_ok, check_eq_ok, orError_eq_ok, pure_eq_ok]
  constructor
  · intro h
    obtain ⟨_, ⟨_, bounded, noNul, noBackslash⟩, text, decoded, _, _, _, ⟨_, dots⟩, _, inside,
      same⟩ := h
    have raw_eq := encodeUtf8_of_decodeUtf8 decoded
    subst same
    obtain ⟨first, parts⟩ := parts_iff.mp ⟨dots, inside⟩
    refine ⟨?_, bounded, noNul, noBackslash, first, parts⟩
    cases strips : stripSuffix text "/" with
    | none => exact .inl raw_eq
    | some stem => exact .inr (by rw [raw_eq, stripSuffix_eq_some.mp strips]; rfl)
  · intro h
    have parts := parts_iff.mpr ⟨h.first, h.parts⟩
    have relative := h.ne_nil
    have noSlash := stripSuffix_slash_of_parts fun part member => (h.parts part member).1
    obtain rfl | rfl := h.raw_eq
    · refine ⟨(), ⟨encodeUtf8_ne_nil relative.1, h.bounded, h.noNul, h.noBackslash⟩, path,
        decodeUtf8_encodeUtf8 path, (), relative.2, (), ?_⟩
      rw [noSlash]
      exact ⟨⟨relative.1, parts.1⟩, (), parts.2, rfl⟩
    · have strips : stripSuffix (path ++ "/") "/" = some path := stripSuffix_eq_some.mpr rfl
      refine ⟨(), ⟨encodeUtf8_ne_nil (by simp), h.bounded, h.noNul, h.noBackslash⟩, path ++ "/",
        decodeUtf8_encodeUtf8 _, (), ?_, (), ?_⟩
      · rw [String.toList_append]
        cases whole : path.toList with
        | nil => exact absurd (String.toList_injective whole) relative.1
        | cons c rest =>
          have start := relative.2
          rw [whole] at start
          exact start
      · rw [strips]
        exact ⟨⟨relative.1, parts.1⟩, (), parts.2, rfl⟩

theorem InsideRoot.unique {root path other : String} {raw : Bytes} (h : InsideRoot root raw path)
    (h' : InsideRoot root raw other) : path = other := by
  have first : validateMemberName raw root 0 = .ok path := validateMemberName_eq_ok.mpr h
  have second : validateMemberName raw root 0 = .ok other := validateMemberName_eq_ok.mpr h'
  exact Except.ok.inj (first.symm.trans second)

/-! ## Streams -/

/-- The data of a stream up to its end, unless a read fails before. -/
def delivered : List (Except IoError Bytes) → Except IoError Bytes
  | [] | .ok [] :: _ => .ok []
  | .error error :: _ => .error error
  | .ok (byte :: piece) :: rest => (fun data => byte :: piece ++ data) <$> delivered rest

/-- A stream delivers exactly what its entry declares. -/
structure Delivers (entry : ZipEntry) (data : Bytes) : Prop where
  complete : delivered entry.stream = .ok data
  size : data.length = entry.size

theorem maxMemberSize_lt : maxMemberSize < usizeLimit := by decide

/-- Reading succeeds when what is still to come makes up the declared size. -/
theorem readMemberData_eq_ok {declared actual : Nat} {collect : Bool} {path : String}
    {data out : Bytes} {stream : List (Except IoError Bytes)} (bounded : declared ≤ maxMemberSize) :
    readMemberData declared collect path actual data stream = .ok out ↔
      ∃ rest, delivered stream = .ok rest ∧ actual + rest.length = declared ∧
        out = if collect then data ++ rest else data := by
  induction stream generalizing actual data with
  | nil =>
    simp only [readMemberData, bind_eq_ok, check_eq_ok, pure_eq_ok, delivered, Except.ok.injEq]
    constructor
    · intro h
      obtain ⟨_, exact, rfl⟩ := h
      exact ⟨[], rfl, exact, by simp⟩
    · intro h
      obtain ⟨_, rfl, exact, same⟩ := h
      exact ⟨(), exact, by simpa using same.symm⟩
  | cons next stream ih =>
    cases next with
    | error error => simp [readMemberData, delivered]
    | ok read =>
      cases read with
      | nil =>
        simp only [readMemberData, bind_eq_ok, check_eq_ok, pure_eq_ok, delivered, Except.ok.injEq]
        constructor
        · intro h
          obtain ⟨_, exact, rfl⟩ := h
          exact ⟨[], rfl, exact, by simp⟩
        · intro h
          obtain ⟨_, rfl, exact, same⟩ := h
          exact ⟨(), exact, by simpa using same.symm⟩
      | cons byte piece =>
        have limit := maxMemberSize_lt
        simp only [readMemberData, bind_eq_ok, check_eq_ok, delivered, map_eq_ok, ih]
        constructor
        · intro h
          obtain ⟨_, _, _, _, rest, more, exact, same⟩ := h
          refine ⟨byte :: piece ++ rest, ⟨rest, more, rfl⟩, ?_, ?_⟩
          · rw [List.length_append]
            omega
          · rw [same]
            cases collect <;> simp
        · intro h
          obtain ⟨_, ⟨rest, more, rfl⟩, exact, same⟩ := h
          rw [List.length_append] at exact
          refine ⟨(), by omega, (), by omega, rest, more, by omega, ?_⟩
          rw [same]
          cases collect <;> simp

/-! ## Entries -/

/-- No entry is encrypted, linked, special or compressed by an unsupported method,
and only directories have a directory mode. -/
structure PlainEntry (entry : ZipEntry) : Prop where
  unencrypted : entry.encrypted = false
  supported : entry.compression ≠ .other
  notLinked : entry.isSymlink = false
  mode : ∀ mode, entry.unixMode = some mode →
    mode &&& modeTypeMask = 0 ∨ mode &&& modeTypeMask = modeRegular ∨
      mode &&& modeTypeMask = modeDirectory ∧ entry.isDir = true

theorem checkMode_eq_ok {entry : ZipEntry} {path : String} {u : Unit} :
    checkMode entry path = .ok u ↔ ∀ mode, entry.unixMode = some mode →
      mode &&& modeTypeMask = 0 ∨ mode &&& modeTypeMask = modeRegular ∨
        mode &&& modeTypeMask = modeDirectory ∧ entry.isDir = true := by
  rw [checkMode]
  cases known : entry.unixMode with
  | none => simp
  | some mode =>
    simp only [bind_eq_ok, check_eq_ok, Option.some.injEq, forall_eq']
    have zero : (0 : Nat) ≠ modeDirectory := by decide
    have regular : modeRegular ≠ modeDirectory := by decide
    constructor
    · intro h
      obtain ⟨_, allowed, named⟩ := h
      obtain none | file | directory := allowed
      · exact .inl none
      · exact .inr (.inl file)
      · have isDir : entry.isDir = true := by simpa [directory] using named
        exact .inr (.inr ⟨directory, isDir⟩)
    · intro h
      obtain none | file | ⟨directory, isDir⟩ := h
      · exact ⟨(), .inl none, by simp [none, zero]⟩
      · exact ⟨(), .inr (.inl file), by simp [file, regular]⟩
      · exact ⟨(), .inr (.inr directory), by simp [isDir]⟩

section Loop

variable {V : Type} [SemVer V] [Crates V]
variable {asset : ReleaseAsset} {launcher : LauncherInfo} {root path : String} {index : Nat}
variable {entry : ZipEntry} {seen next : ZipSeen} {data : Bytes}

variable (V) in
structure HasDigest (data : Bytes) (size : Nat) (sha256 : String) : Prop where
  size : data.length = size
  digest : Crates.sha256 V data = sha256

theorem verifyBytes_eq_ok {size : Nat} {sha256 label : String} {u : Unit} :
    verifyBytes V data size sha256 label = .ok u ↔ HasDigest V data size sha256 := by
  simp only [verifyBytes, bind_eq_ok, check_eq_ok]
  constructor
  · intro h
    obtain ⟨_, size, digest⟩ := h
    exact ⟨size, digest⟩
  · intro h
    exact ⟨(), h.size, h.digest⟩

variable (V) in
/-- A file at an expected path has the size and digest of the manifest. -/
structure Expected (asset : ReleaseAsset) (launcher : LauncherInfo) (path : String)
    (data : Bytes) : Prop where
  payload : path = asset.payload.path → HasDigest V data asset.payload.size asset.payload.sha256
  launcher : path = launcher.path → HasDigest V data launcher.size launcher.sha256

/-- What the loop remembers of an accepted entry. -/
def record (asset : ReleaseAsset) (launcher : LauncherInfo) (root : String) (entry : ZipEntry)
    (path : String) (data : Bytes) (seen : ZipSeen) : ZipSeen where
  names := path :: seen.names
  totalUncompressed := seen.totalUncompressed + if entry.isDir then 0 else entry.size
  payload := if entry.isDir = false ∧ path = asset.payload.path then some ⟨path, data⟩
    else seen.payload
  launcher := if entry.isDir = false ∧ path = launcher.path then some ⟨path, data⟩
    else seen.launcher
  rootSeen := seen.rootSeen || (entry.isDir && path == root)

theorem expectedFile_eq (listed : asset.launcher = some launcher) :
    expectedFile asset (some launcher.path) path = .ok
      (if path = asset.payload.path then some (asset.payload.size, asset.payload.sha256, true)
       else if path = launcher.path then some (launcher.size, launcher.sha256, false)
       else none) := by
  rw [expectedFile]
  by_cases payload : path = asset.payload.path
  · rw [if_pos payload, if_pos payload]
  · rw [if_neg payload, if_neg payload]
    by_cases named : path = launcher.path
    · rw [if_pos (congrArg some named.symm), if_pos named, listed]
    · have other : some launcher.path ≠ some path := fun same => named (Option.some.inj same).symm
      rw [if_neg other, if_neg named]

theorem inspectZipFile_eq_ok (listed : asset.launcher = some launcher)
    (distinct : launcher.path ≠ asset.payload.path) (bounded : entry.size ≤ maxMemberSize) :
    inspectZipFile V asset (some launcher.path) entry path seen = .ok next ↔
      ∃ data, seen.totalUncompressed + entry.size ≤ maxUncompressedSize ∧ Delivers entry data ∧
        Expected V asset launcher path data ∧
        next = { seen with
          totalUncompressed := seen.totalUncompressed + entry.size
          payload := if path = asset.payload.path then some ⟨path, data⟩ else seen.payload
          launcher := if path = launcher.path then some ⟨path, data⟩ else seen.launcher } := by
  have limit : maxUncompressedSize < usizeLimit := by decide
  simp only [inspectZipFile, bind_eq_ok, check_eq_ok, expectedFile_eq listed,
    readMemberData_eq_ok bounded, Except.ok.injEq, exists_eq_left', Nat.zero_add, List.nil_append]
  by_cases payload : path = asset.payload.path
  · have other : path ≠ launcher.path := fun same => distinct (same.symm.trans payload)
    simp only [if_pos payload, if_neg other, Option.isSome_some, if_true, bind_eq_ok,
      mapError_eq_ok, verifyBytes_eq_ok, pure_eq_ok]
    constructor
    · intro h
      obtain ⟨_, _, _, fits, data, ⟨rest, complete, size, rfl⟩, _, digest, rfl⟩ := h
      exact ⟨data, fits, ⟨complete, size⟩, ⟨fun _ => digest, fun same => absurd same other⟩, rfl⟩
    · intro h
      obtain ⟨data, fits, delivers, expected, rfl⟩ := h
      exact ⟨(), lt_of_le_of_lt fits limit, (), fits, data,
        ⟨data, delivers.complete, delivers.size, rfl⟩, (), expected.payload payload, rfl⟩
  · by_cases named : path = launcher.path
    · simp only [if_neg payload, if_pos named, Option.isSome_some, if_true, bind_eq_ok,
        mapError_eq_ok, verifyBytes_eq_ok, Bool.false_eq_true, if_false, pure_eq_ok]
      constructor
      · intro h
        obtain ⟨_, _, _, fits, data, ⟨rest, complete, size, rfl⟩, _, digest, rfl⟩ := h
        exact ⟨data, fits, ⟨complete, size⟩, ⟨fun same => absurd same payload, fun _ => digest⟩,
          rfl⟩
      · intro h
        obtain ⟨data, fits, delivers, expected, rfl⟩ := h
        exact ⟨(), lt_of_le_of_lt fits limit, (), fits, data,
          ⟨data, delivers.complete, delivers.size, rfl⟩, (), expected.launcher named, rfl⟩
    · simp only [if_neg payload, if_neg named, Option.isSome_none, Bool.false_eq_true, if_false,
        pure_eq_ok]
      constructor
      · intro h
        obtain ⟨_, _, _, fits, _, ⟨data, complete, size, _⟩, rfl⟩ := h
        exact ⟨data, fits, ⟨complete, size⟩,
          ⟨fun same => absurd same payload, fun same => absurd same named⟩, rfl⟩
      · intro h
        obtain ⟨data, fits, delivers, _, rfl⟩ := h
        exact ⟨(), lt_of_le_of_lt fits limit, (), fits, [],
          ⟨data, delivers.complete, delivers.size, rfl⟩, rfl⟩

/-- The loop accepts an entry that obeys every rule, and remembers it. -/
theorem inspectZipEntry_eq_ok (listed : asset.launcher = some launcher)
    (distinct : launcher.path ≠ asset.payload.path) :
    inspectZipEntry V asset root (some launcher.path) index entry seen = .ok next ↔
      ∃ path data, InsideRoot root entry.nameRaw path ∧ path ∉ seen.names ∧ PlainEntry entry ∧
        (entry.isDir = true → entry.size = 0 ∧ data = []) ∧
        (entry.isDir = false → path ≠ root ∧ entry.size ≤ maxMemberSize ∧
          seen.totalUncompressed + entry.size ≤ maxUncompressedSize ∧ Delivers entry data ∧
          Expected V asset launcher path data) ∧
        next = record asset launcher root entry path data seen := by
  have fresh : ∀ path, seen.names.contains path = false ↔ path ∉ seen.names := by
    intro path
    rw [← Bool.not_eq_true, List.contains_iff_mem]
  rw [inspectZipEntry]
  simp only [bind_eq_ok, mapError_eq_ok, validateMemberName_eq_ok, check_eq_ok, checkMode_eq_ok,
    fresh]
  cases isDir : entry.isDir with
  | true =>
    simp only [if_true, bind_eq_ok, check_eq_ok, pure_eq_ok, forall_const, Bool.true_eq_false,
      IsEmpty.forall_iff, true_and]
    constructor
    · intro h
      obtain ⟨path, inside, _, unused, _, unencrypted, _, supported, _, notLinked, _, mode, _, _,
        _, empty, rfl⟩ := h
      refine ⟨path, [], inside, unused, ⟨unencrypted, supported, notLinked, ?_⟩, ⟨empty, rfl⟩, ?_⟩
      · simpa [isDir] using mode
      · simp [record, isDir]
    · intro h
      obtain ⟨path, _, inside, unused, plain, ⟨empty, _⟩, rfl⟩ := h
      refine ⟨path, inside, (), unused, (), plain.unencrypted, (), plain.supported, (),
        plain.notLinked, (), by simpa [isDir] using plain.mode, (), ?_, (), empty, ?_⟩
      · rw [empty]
        exact Nat.zero_le _
      · simp [record, isDir]
  | false =>
    simp only [Bool.false_eq_true, if_false, bind_eq_ok, check_eq_ok, IsEmpty.forall_iff,
      forall_const, true_and]
    constructor
    · intro h
      obtain ⟨path, inside, _, unused, _, unencrypted, _, supported, _, notLinked, _, mode, _,
        bounded, _, other, file⟩ := h
      obtain ⟨data, fits, delivers, expected, rfl⟩ :=
        (inspectZipFile_eq_ok listed distinct bounded).mp file
      refine ⟨path, data, inside, unused, ⟨unencrypted, supported, notLinked, ?_⟩,
        ⟨other, bounded, fits, delivers, expected⟩, ?_⟩
      · simpa [isDir] using mode
      · simp [record, isDir]
    · intro h
      obtain ⟨path, data, inside, unused, plain, ⟨other, bounded, fits, delivers, expected⟩, rfl⟩ := h
      refine ⟨path, inside, (), unused, (), plain.unencrypted, (), plain.supported, (),
        plain.notLinked, (), by simpa [isDir] using plain.mode, (), bounded, (), other, ?_⟩
      refine (inspectZipFile_eq_ok listed distinct bounded).mpr
        ⟨data, fits, delivers, expected, ?_⟩
      simp [record, isDir]

end Loop

end Relswap
