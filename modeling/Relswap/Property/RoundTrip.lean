import Relswap.Install.JournalJson
import Relswap.Property.ManifestTargets

/-!
# The documents round-trip

What is written is read back as the same value as long as it is not too large, and
what is read is written to something that is read back. The text written for a
document without arrays is never longer than the document.
-/

namespace Relswap

open Durable Json

section

variable {α : Type} [JsonText] {codec : Codec α} {bytes : Bytes} {a : α}

theorem ofBytes_eq_value : Document.ofBytes codec bytes = .value a ↔
    bytes.length ≤ maxMetadataSize ∧ ∃ json, JsonText.parse bytes = .ok json ∧
      codec.decode json = .ok a := by
  rw [Document.ofBytes]
  split
  · rename_i long
    constructor
    · intro same
      cases same
    · intro read
      omega
  · rename_i short
    have bounded : bytes.length ≤ maxMetadataSize := Nat.le_of_not_lt short
    rw [← bind_eq_ok]
    cases JsonText.parse bytes >>= codec.decode with
    | error message => simp
    | ok content => simp [bounded]

/-- What is printed is parsed again. -/
theorem parse_encode (depth : codec.depth ≤ 127) (a : α) :
    JsonText.parse (printJson (codec.encode a)) = .ok (codec.encode a) :=
  JsonText.parse_print _ ((codec.encode_shallow a).mono depth)

/-- Printing again does not need more room, unless arrays are used for objects. -/
theorem compact {json : Json} (parsed : JsonText.parse bytes = .ok json) (noArray : json.NoArray)
    (decoded : codec.decode json = .ok a) :
    (printJson (codec.encode a)).length ≤ bytes.length := by
  have shortest := JsonText.print_shortest bytes json parsed
  have smaller := codec.encode_size json a noArray decoded
  rw [printJson_length] at shortest ⊢
  omega

/-- A document of valid values is read back as it was written. What is read and valid
is written again, and read again unless it is too large then. That can only happen to a
document with arrays for objects. -/
structure RoundTrips {ε : Type} (codec : Codec α) (valid : α → Except ε Unit)
    (toBytes : α → Except ε Bytes) : Prop where
  written : ∀ a bytes, codec.InRange a → toBytes a = .ok bytes → bytes.length ≤ maxMetadataSize →
    Document.ofBytes codec bytes = .value a ∧ valid a = .ok ()
  accepted : ∀ bytes a, Document.ofBytes codec bytes = .value a → valid a = .ok () →
    ∃ bytes', toBytes a = .ok bytes' ∧
      (bytes'.length ≤ maxMetadataSize → Document.ofBytes codec bytes' = .value a) ∧
      ∀ json, JsonText.parse bytes = .ok json → json.NoArray → bytes'.length ≤ bytes.length

theorem roundTrips {ε : Type} {valid : α → Except ε Unit} {toBytes : α → Except ε Bytes}
    (depth : codec.depth ≤ 127)
    (writes : ∀ a bytes, toBytes a = .ok bytes ↔
      valid a = .ok () ∧ bytes = printJson (codec.encode a)) : RoundTrips codec valid toBytes where
  written a bytes inRange wrote short := by
    obtain ⟨valid, rfl⟩ := (writes a bytes).mp wrote
    refine ⟨ofBytes_eq_value.mpr ⟨short, _, parse_encode depth a, ?_⟩, valid⟩
    exact codec.decode_encode a inRange
  accepted bytes a read valid := by
    obtain ⟨_, json, parsed, decoded⟩ := ofBytes_eq_value.mp read
    refine ⟨_, (writes a _).mpr ⟨valid, rfl⟩, fun short => ?_, fun json' parsed' noArray => ?_⟩
    · refine ofBytes_eq_value.mpr ⟨short, _, parse_encode depth a, ?_⟩
      exact codec.decode_encode a (codec.inRange_of_decode json a decoded)
    · rw [parsed] at parsed'
      cases parsed'
      exact compact parsed noArray decoded

omit [JsonText] in
/-- A writer that validates and prints. -/
theorem validate_print {ε : Type} {checked : Except ε Unit} {json : Json} {bytes' : Bytes} :
    (do checked; return printJson json : Except ε Bytes) = .ok bytes' ↔
      checked = .ok () ∧ bytes' = printJson json := by
  rw [bind_eq_ok]
  constructor
  · intro wrote
    obtain ⟨_, passed, printed⟩ := wrote
    exact ⟨passed, (pure_eq_ok.mp printed).symm⟩
  · intro wrote
    exact ⟨(), wrote.1, pure_eq_ok.mpr wrote.2.symm⟩

end

theorem fromBytes_iff_ofBytes {V : Type} [SemVer V] [JsonText] {readTime : TimestampReader}
    {app : App} {bytes : Bytes} {manifest : ReleaseManifest V} :
    ManifestJson.fromBytes readTime app bytes = .ok manifest ↔
      Document.ofBytes Codecs.releaseManifest bytes = .value manifest ∧
        manifest.validate readTime app = .ok () := by
  rw [ManifestJson.fromBytes_eq_ok, ofBytes_eq_value, ManifestJson.decode, bind_eq_ok, and_assoc]

/-- The documents of an installation and release manifests round-trip. -/
theorem documents_round_trip {V : Type} [SemVer V] [JsonText] :
    RoundTrips (Codecs.pendingActivation : Codec (PendingActivation V)) validatePending
      pendingBytes ∧
    (∀ platform, RoundTrips (Codecs.installState : Codec (InstallState V))
      (validateInstallState platform) (installStateBytes platform)) ∧
    (∀ app, RoundTrips (Codecs.versionState : Codec (VersionState V)) (validateVersionState app)
      (versionStateBytes app)) ∧
    ∀ readTime app,
      (∀ (manifest : ReleaseManifest V) bytes, Codecs.releaseManifest.InRange manifest →
        ManifestJson.toBytes readTime app manifest = .ok bytes → bytes.length ≤ maxMetadataSize →
        ManifestJson.fromBytes readTime app bytes = .ok manifest) ∧
      ∀ bytes (manifest : ReleaseManifest V),
        ManifestJson.fromBytes readTime app bytes = .ok manifest →
        ∃ bytes', ManifestJson.toBytes readTime app manifest = .ok bytes' ∧
          (bytes'.length ≤ maxMetadataSize →
            ManifestJson.fromBytes readTime app bytes' = .ok manifest) ∧
          ∀ json, JsonText.parse bytes = .ok json → json.NoArray →
            bytes'.length ≤ bytes.length := by
  have shallow : ∀ depth ≤ 4, depth ≤ 127 := by omega
  refine ⟨roundTrips (shallow 1 (by omega)) fun _ _ => validate_print,
    fun _ => roundTrips (shallow 2 (by omega)) fun _ _ => validate_print,
    fun _ => roundTrips (shallow 2 (by omega)) fun _ _ => validate_print, fun readTime app => ?_⟩
  have trips : RoundTrips (Codecs.releaseManifest : Codec (ReleaseManifest V))
      (fun manifest => manifest.validate readTime app) (ManifestJson.toBytes readTime app) :=
    roundTrips (shallow 4 (by omega)) fun _ _ => validate_print
  constructor
  · intro manifest bytes inRange wrote short
    exact fromBytes_iff_ofBytes.mpr (trips.written manifest bytes inRange wrote short)
  · intro bytes manifest read
    obtain ⟨read, valid⟩ := fromBytes_iff_ofBytes.mp read
    obtain ⟨bytes', wrote, again, shorter⟩ := trips.accepted bytes manifest read valid
    exact ⟨bytes', wrote, fun short => fromBytes_iff_ofBytes.mpr ⟨again short, valid⟩, shorter⟩

/-! ## A document written with an array -/

section Sample

open Sample ManifestJson

/-- A manifest with a time of publication of any precision. -/
def stretched (n : Nat) : ReleaseManifest Edition :=
  { Sample.manifest unixTarget firstRelease with
    publishedAt := "2026-01-01T00:00:00." ++ String.ofList (List.replicate n '0') ++ "Z" }

def stretchedTable : Json :=
  (Codec.table Codecs.targetKeys Codecs.releaseAsset).encode (stretched 0).targets

/-- The manifest with its fields listed in order. -/
def listDocument (n : Nat) : Json :=
  .array [.number 2, .string "1.0.0", .string (stretched n).publishedAt,
    .string "2030-01-01T00:00:00Z", stretchedTable]

def objectDocument (n : Nat) : Json :=
  .object [("schema_version", .number 2), ("version", .string "1.0.0"),
    ("published_at", .string (stretched n).publishedAt),
    ("expires_at", .string "2030-01-01T00:00:00Z"), ("targets", stretchedTable)]

theorem bytesOf_stretched (n : Nat) :
    bytesOf (quote (stretched n).publishedAt) = bytesOf (quote (stretched 0).publishedAt) + n := by
  have zeros : bytesOf ((List.replicate n '0').flatMap escape) = n := by
    induction n with
    | zero => rfl
    | succ n ih =>
      have one : bytesOf (escape '0') = 1 := rfl
      rw [List.replicate_succ, List.flatMap_cons, bytesOf_append, ih, one, Nat.add_comm]
  simp only [stretched, quote, String.toList_append, String.toList_ofList, List.flatMap_append,
    bytesOf_cons, bytesOf_append, zeros, List.replicate_zero, List.flatMap_nil, bytesOf_nil]
  omega

theorem size_listDocument (n : Nat) : (listDocument n).size = (listDocument 0).size + n := by
  have longer := bytesOf_stretched n
  simp only [size, listDocument, text, moreItems, bytesOf_cons, bytesOf_append]
  omega

theorem size_objectDocument (n : Nat) : (objectDocument n).size = (objectDocument 0).size + n := by
  have longer := bytesOf_stretched n
  simp only [size, objectDocument, text, moreMembers, bytesOf_cons, bytesOf_append]
  omega

theorem listDocument_size : (listDocument 0).size < 1000 ∧
    (listDocument 0).size < (objectDocument 0).size := by
  decide +kernel

def listLookup (n : Nat) : Lookup := fun name =>
  (manifestNames.zip [.number 2, .string "1.0.0", .string (stretched n).publishedAt,
    .string "2030-01-01T00:00:00Z", stretchedTable]).lookup name

theorem firstRelease_canonical :
    (parseCanonical (fun raw => s!"release version is not canonical: {raw}") "1.0.0" :
      Except String Edition) = .ok firstRelease :=
  parseCanonical_eq_ok.mpr rfl

theorem listDocument_heads (n : Nat) : Heads (listLookup n) (stretched n) where
  schema := Fields.required_decode rfl rfl
  version := Fields.required_decode rfl firstRelease_canonical
  published := Fields.required_decode rfl rfl
  expires := Fields.required_decode rfl rfl

theorem stretched_inRange (n : Nat) : (Codec.table Codecs.targetKeys Codecs.releaseAsset).InRange
    (stretched n).targets := by
  intro target found listed
  have size : (1 : Nat) < 2 ^ 64 := by decide
  by_cases here : target = unixTarget
  · have same : some (asset unixTarget firstRelease) = some found := (if_pos here).symm.trans listed
    cases same
    exact Codecs.releaseAsset_inRange size size fun _ absent => by cases absent
  · have same : none = some found := (if_neg here).symm.trans listed
    cases same

theorem listDocument_decoded (n : Nat) :
    Codecs.releaseManifest.decode (listDocument n) = .ok (stretched n) := by
  refine decode_eq_ok.mpr ⟨listLookup n, ?_, listDocument_heads n, stretchedTable, rfl, ?_⟩
  · rw [listDocument, lookupFields, check_pass (by simp [manifestNames]), ok_bind]
    rfl
  · exact (Codec.table Codecs.targetKeys Codecs.releaseAsset).decode_encode _ (stretched_inRange n)

theorem stretched_valid (n : Nat) :
    (stretched n).validate (fun _ => .ok 0) (Sample.app unixTarget) = .ok () :=
  firstRelease_valid

/-- How many zeros fill up a document written as a list. -/
def zeros : Nat := maxMetadataSize - (listDocument 0).size

/-- A document of the greatest size is accepted, and what is written for it is refused. -/
theorem list_document_grows :
    (∃ manifest : ReleaseManifest Edition,
      fromBytes (fun _ => .ok 0) (Sample.app unixTarget) (printJson (listDocument zeros)) =
        .ok manifest ∧
      ∃ bytes, toBytes (fun _ => .ok 0) (Sample.app unixTarget) manifest = .ok bytes ∧
        fromBytes (fun _ => .ok 0) (Sample.app unixTarget) bytes ≠ .ok manifest) := by
  obtain ⟨small, smaller⟩ := listDocument_size
  have filled : (printJson (listDocument zeros)).length = maxMetadataSize := by
    rw [printJson_length, size_listDocument, zeros]
    have limit : 1000 < maxMetadataSize := by decide
    omega
  have grown : maxMetadataSize < (printJson (objectDocument zeros)).length := by
    rw [printJson_length, size_objectDocument, zeros]
    have limit : 1000 < maxMetadataSize := by decide
    omega
  have parsed : JsonText.parse (printJson (listDocument zeros)) = .ok (listDocument zeros) :=
    parse_printJson _
  refine ⟨stretched zeros, ?_, printJson (objectDocument zeros), ?_, ?_⟩
  · rw [fromBytes_eq_ok, decode_parsed parsed]
    exact ⟨filled.le, listDocument_decoded zeros, stretched_valid zeros⟩
  · exact validate_print.mpr ⟨stretched_valid zeros, rfl⟩
  · rw [Ne, fromBytes_eq_ok]
    intro read
    omega

/-- A journal of a first installation. -/
def firstPending : PendingActivation Edition := ⟨1, none, firstRelease, digestOf []⟩

theorem documents_round_trip_pending : Document.ofBytes Codecs.pendingActivation
    (printJson (Codecs.pendingActivation.encode firstPending)) = .value firstPending := by
  have small : (1 : Nat) < 2 ^ 32 := by decide
  have valid : (validatePending firstPending : Except (InstallError Edition) Unit) = .ok () := by
    decide +kernel
  have trips := (documents_round_trip (V := Edition)).1
  refine (trips.written firstPending _ ⟨small, ?_, trivial, trivial⟩
    (validate_print.mpr ⟨valid, rfl⟩) ?_).1
  · intro version absent
    cases absent
  · rw [printJson_length]
    decide +kernel

end Sample

end Relswap
