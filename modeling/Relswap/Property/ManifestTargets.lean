import Relswap.Sample.JsonText
import Relswap.Sample.World

/-!
# Targets listed more than once

The map of targets is filled member by member, so that a later listing of a target
takes the place of an earlier one before the manifest is validated. A document with
repeated targets is accepted exactly when every listing can be read and the document
with the last ones only is accepted.
-/

namespace Relswap

open Durable Json

def manifestNames : List String :=
  ["schema_version", "version", "published_at", "expires_at", "targets"]

namespace ManifestJson

variable {V : Type} [SemVer V] {json : Json} {manifest : ReleaseManifest V} {lookup : Lookup}
  {readTime : TimestampReader} {app : App}

/-! ## The listings of a document -/

def targetMembers (json : Json) : List (String × Json) :=
  match lookupFields manifestNames json with
  | .error _ => []
  | .ok lookup =>
    match lookup "targets" with
    | some (.object members) => members
    | _ => []

def targetNames (json : Json) : List String := (targetMembers json).map Prod.fst

def keepLastListings : Json → Json
  | .object members => .object (Keys.keepLast members)
  | other => other

/-- A member with its listings thinned out, if it has any. -/
def onceEachMember (member : String × Json) : String × Json :=
  if member.1 = "targets" then (member.1, keepLastListings member.2) else member

/-- The document with the last listing of each target only. -/
def onceEach : Json → Json
  | .object members => .object (members.map onceEachMember)
  | .array items => .array (items.modify 4 keepLastListings)
  | other => other

/-- A listing that names a target and gives it an asset. -/
def Listing (member : String × Json) : Prop := Codecs.targetKeys.Reads Codecs.releaseAsset member

def onceEachLookup (lookup : Lookup) : Lookup := fun name =>
  if name = "targets" then (lookup name).map keepLastListings else lookup name

@[simp] theorem onceEachMember_name (member : String × Json) :
    (onceEachMember member).1 = member.1 := by
  rw [onceEachMember]
  split <;> rfl

theorem lookup_onceEach (members : List (String × Json)) (name : String) :
    (members.map onceEachMember).lookup name = onceEachLookup (fun name => members.lookup name) name := by
  induction members with
  | nil => simp [onceEachLookup]
  | cons member members ih =>
    rw [List.map_cons, List.lookup_cons, onceEachMember_name, ih, onceEachLookup, onceEachLookup,
      List.lookup_cons]
    cases same : name == member.1 with
    | false => rfl
    | true =>
      rw [beq_iff_eq] at same
      by_cases target : member.1 = "targets" <;> simp [onceEachMember, same, target]

theorem zip_onceEach {items : List Json} (short : items.length ≤ manifestNames.length) :
    manifestNames.zip (items.modify 4 keepLastListings) =
      (manifestNames.zip items).map onceEachMember := by
  match items with
  | [] | [_] | [_, _] | [_, _, _] | [_, _, _, _] | [_, _, _, _, _] =>
    simp [manifestNames, onceEachMember]
  | _ :: _ :: _ :: _ :: _ :: _ :: _ =>
    simp only [manifestNames, List.length_cons, List.length_nil] at short
    omega

theorem onceEach_names (members : List (String × Json)) :
    (members.map onceEachMember).map Prod.fst = members.map Prod.fst := by
  rw [List.map_map]
  exact List.map_congr_left fun member _ => onceEachMember_name member

theorem onceEach_known (members : List (String × Json)) :
    (∀ member ∈ members.map onceEachMember, member.1 ∈ manifestNames) ↔
      ∀ member ∈ members, member.1 ∈ manifestNames := by
  simp only [List.forall_mem_map, onceEachMember_name]

theorem lookupFields_onceEach (found : lookupFields manifestNames json = .ok lookup) :
    lookupFields manifestNames (onceEach json) = .ok (onceEachLookup lookup) := by
  cases json with
  | object members =>
    simp only [lookupFields, bind_eq_ok, check_eq_ok, pure_eq_ok] at found
    obtain ⟨_, known, _, distinct, rfl⟩ := found
    rw [onceEach, lookupFields, check_pass ((onceEach_known members).mpr known), ok_bind,
      onceEach_names, check_pass distinct, ok_bind]
    exact congrArg Except.ok (funext fun name => lookup_onceEach members name)
  | array items =>
    simp only [lookupFields, bind_eq_ok, check_eq_ok, pure_eq_ok] at found
    obtain ⟨_, short, rfl⟩ := found
    have short' : (items.modify 4 keepLastListings).length ≤ manifestNames.length := by
      rw [List.length_modify]
      exact short
    rw [onceEach, lookupFields, check_pass short', ok_bind, zip_onceEach short]
    exact congrArg Except.ok (funext fun name => lookup_onceEach _ name)
  | _ => cases found

theorem lookupFields_of_onceEach {other : Lookup}
    (found : lookupFields manifestNames (onceEach json) = .ok other) :
    ∃ lookup, lookupFields manifestNames json = .ok lookup := by
  cases json with
  | object members =>
    simp only [onceEach, lookupFields, bind_eq_ok, check_eq_ok, pure_eq_ok, onceEach_known,
      onceEach_names] at found
    obtain ⟨_, known, _, distinct, _⟩ := found
    exact ⟨_, bind_eq_ok.mpr ⟨(), check_eq_ok.mpr known,
      bind_eq_ok.mpr ⟨(), check_eq_ok.mpr distinct, rfl⟩⟩⟩
  | array items =>
    simp only [onceEach, lookupFields, bind_eq_ok, check_eq_ok, pure_eq_ok,
      List.length_modify] at found
    obtain ⟨_, short, _⟩ := found
    exact ⟨_, bind_eq_ok.mpr ⟨(), check_eq_ok.mpr short, rfl⟩⟩
  | _ => cases found

/-! ## Reading the fields -/

/-- The fields in front of the targets, as they are read. -/
structure Heads (lookup : Lookup) (manifest : ReleaseManifest V) : Prop where
  schema : (Fields.required "schema_version" Codecs.u32).decode lookup = .ok manifest.schemaVersion
  version : (Fields.required "version"
    (Codecs.version fun raw => s!"release version is not canonical: {raw}")).decode lookup =
      .ok manifest.version
  published : (Fields.required "published_at" .string).decode lookup = .ok manifest.publishedAt
  expires : (Fields.required "expires_at" .string).decode lookup = .ok manifest.expiresAt

theorem decode_eq_ok : Codecs.releaseManifest.decode json = .ok manifest ↔
    ∃ lookup, lookupFields manifestNames json = .ok lookup ∧ Heads lookup manifest ∧
      ∃ targets, lookup "targets" = some targets ∧
        Codecs.targetKeys.readTable Codecs.releaseAsset targets = .ok manifest.targets := by
  constructor
  · intro read
    simp only [Codecs.releaseManifest, Codec.record, Fields.map, Fields.and, map_eq_ok, bind_eq_ok,
      pure_eq_ok] at read
    obtain ⟨lookup, found, _, ⟨schema, readSchema, _, ⟨version, readVersion, _, ⟨published,
      readPublished, _, ⟨expires, readExpires, table, readTargets, rfl⟩, rfl⟩, rfl⟩, rfl⟩, rfl⟩ := read
    obtain ⟨targets, here, readTargets⟩ := bind_eq_ok.mp readTargets
    exact ⟨lookup, found, ⟨readSchema, readVersion, readPublished, readExpires⟩, targets,
      orError_eq_ok.mp here, readTargets⟩
  · intro read
    obtain ⟨lookup, found, heads, targets, here, readTargets⟩ := read
    have readTargets' : (Fields.required "targets"
        (.table Codecs.targetKeys Codecs.releaseAsset)).decode lookup = .ok manifest.targets :=
      Fields.required_decode here readTargets
    refine bind_eq_ok.mpr ⟨lookup, found, map_eq_ok.mpr ⟨(manifest.schemaVersion, manifest.version,
      manifest.publishedAt, manifest.expiresAt, manifest.targets), ?_, rfl⟩⟩
    refine bind_eq_ok.mpr ⟨_, heads.schema, bind_eq_ok.mpr ⟨_, ?_, rfl⟩⟩
    refine bind_eq_ok.mpr ⟨_, heads.version, bind_eq_ok.mpr ⟨_, ?_, rfl⟩⟩
    refine bind_eq_ok.mpr ⟨_, heads.published, bind_eq_ok.mpr ⟨_, ?_, rfl⟩⟩
    exact bind_eq_ok.mpr ⟨_, heads.expires, bind_eq_ok.mpr ⟨_, readTargets', rfl⟩⟩

theorem onceEachLookup_other {name : String} (other : name ≠ "targets") :
    onceEachLookup lookup name = lookup name := if_neg other

theorem required_onceEach {α : Type} {codec : Codec α} {name : String} (other : name ≠ "targets") :
    (Fields.required name codec).decode (onceEachLookup lookup) =
      (Fields.required name codec).decode lookup := by
  simp only [Fields.required, onceEachLookup_other other]

theorem heads_onceEach : Heads (onceEachLookup lookup) manifest ↔ Heads lookup manifest := by
  constructor
  · intro heads
    have schema := heads.schema
    have version := heads.version
    have published := heads.published
    have expires := heads.expires
    rw [required_onceEach (by decide)] at schema version published expires
    exact ⟨schema, version, published, expires⟩
  · intro heads
    constructor <;> rw [required_onceEach (by decide)]
    · exact heads.schema
    · exact heads.version
    · exact heads.published
    · exact heads.expires

theorem readTable_keepLast {targets : Json} {table : Target → Option ReleaseAsset} :
    Codecs.targetKeys.readTable Codecs.releaseAsset targets = .ok table ↔
      ∃ members, targets = .object members ∧ (∀ member ∈ members, Listing member) ∧
        Codecs.targetKeys.readTable Codecs.releaseAsset (keepLastListings targets) = .ok table := by
  cases targets with
  | object members =>
    simp only [Keys.readTable, keepLastListings, Json.object.injEq, exists_eq_left']
    exact Codecs.targetKeys.foldlM_readMember_keepLast Codecs.releaseAsset
  | _ => simp [Keys.readTable]

/-- A document is read when all its listings can be read and the document with the
last ones is read. -/
theorem decode_onceEach : Codecs.releaseManifest.decode json = .ok manifest ↔
    (∀ member ∈ targetMembers json, Listing member) ∧
      Codecs.releaseManifest.decode (onceEach json) = .ok manifest := by
  cases found : lookupFields manifestNames json with
  | error e =>
    have refused : Codecs.releaseManifest.decode json ≠ .ok manifest := by
      rw [Ne, decode_eq_ok, found]
      simp
    have refused' : Codecs.releaseManifest.decode (onceEach json) ≠ .ok manifest := by
      rw [Ne, decode_eq_ok]
      intro read
      obtain ⟨other, found', _⟩ := read
      obtain ⟨lookup, here⟩ := lookupFields_of_onceEach found'
      rw [here] at found
      cases found
    exact iff_of_false refused fun read => refused' read.2
  | ok lookup =>
    rw [decode_eq_ok, decode_eq_ok, lookupFields_onceEach found, found]
    simp only [Except.ok.injEq, exists_eq_left', heads_onceEach]
    have listed : ∀ members, lookup "targets" = some (.object members) →
        targetMembers json = members := by
      intro members here
      rw [targetMembers, found]
      simp only [here]
    have thinned : ∀ targets, lookup "targets" = some targets →
        onceEachLookup lookup "targets" = some (keepLastListings targets) := by
      intro targets here
      rw [onceEachLookup, if_pos rfl, here]
      rfl
    constructor
    · intro read
      obtain ⟨heads, targets, here, read⟩ := read
      obtain ⟨members, rfl, all, read⟩ := readTable_keepLast.mp read
      rw [listed members here]
      exact ⟨all, heads, _, thinned _ here, read⟩
    · intro read
      obtain ⟨all, heads, targets, here, read⟩ := read
      rw [onceEachLookup, if_pos rfl] at here
      obtain ⟨original, there, rfl⟩ := Option.map_eq_some_iff.mp here
      refine ⟨heads, original, there, ?_⟩
      cases original with
      | object members =>
        rw [listed members there] at all
        exact readTable_keepLast.mpr ⟨members, rfl, all, read⟩
      | _ => cases read

/-- The targets of a manifest that was read are those that are listed. -/
theorem mem_listedTargets (read : Codecs.releaseManifest.decode json = .ok manifest) (t : Target) :
    t ∈ manifest.listedTargets ↔ t.asStr ∈ targetNames json := by
  obtain ⟨lookup, found, _, targets, here, read⟩ := decode_eq_ok.mp read
  obtain ⟨members, rfl, _, _⟩ := readTable_keepLast.mp read
  have listed : targetMembers json = members := by
    rw [targetMembers, found]
    simp only [here]
  rw [ReleaseManifest.listedTargets, List.mem_filter, targetNames, listed]
  exact ⟨fun member => (Codecs.targetKeys.isSome_of_foldlM _ read t).mp member.2,
    fun member => ⟨Target.mem_all t, (Codecs.targetKeys.isSome_of_foldlM _ read t).mpr member⟩⟩

/-- Where no target repeats, the manifest gives each target its one listing. -/
theorem targets_eq_some (read : Codecs.releaseManifest.decode json = .ok manifest)
    (once : (targetNames json).Nodup) (t : Target) (asset : ReleaseAsset) :
    manifest.targets t = some asset ↔ ∃ listing, (t.asStr, listing) ∈ targetMembers json ∧
      Codecs.releaseAsset.decode listing = .ok asset := by
  obtain ⟨lookup, found, _, targets, here, read⟩ := decode_eq_ok.mp read
  obtain ⟨members, rfl, _, _⟩ := readTable_keepLast.mp read
  have listed : targetMembers json = members := by
    rw [targetMembers, found]
    simp only [here]
  rw [targetNames, listed] at once
  rw [listed]
  exact Codecs.targetKeys.eq_some_of_foldlM _ read once t asset

/-- In a valid manifest an asset is selected exactly when it is there. -/
theorem assetFor_eq_ok (valid : manifest.validate readTime app = .ok ()) (t : Target)
    (asset : ReleaseAsset) :
    manifest.assetFor readTime app t = .ok ⟨t, asset⟩ ↔ manifest.targets t = some asset := by
  rw [ReleaseManifest.assetFor, valid, ok_bind]
  simp only [bind_eq_ok, orError_eq_ok, pure_eq_ok, SelectedAsset.mk.injEq, true_and]
  exact exists_eq_right

theorem name_of_listing {member : String × Json} (listing : Listing member) :
    ∃ t : Target, t.asStr = member.1 := by
  obtain ⟨t, _, parsed, _⟩ := listing
  exact ⟨t, Target.asStr_fromStr _ _ parsed⟩

/-- The listings are as many as the targets exactly when none repeats. -/
theorem nodup_iff_length (read : Codecs.releaseManifest.decode json = .ok manifest) :
    (targetNames json).Nodup ↔ (targetMembers json).length = manifest.listedTargets.length := by
  have injective : Function.Injective Target.asStr := by
    intro a b same
    have parsed := Target.fromStr_asStr a
    rw [same, Target.fromStr_asStr] at parsed
    exact (Except.ok.inj parsed).symm
  have all : Target.all.Nodup := by decide
  have distinct : (manifest.listedTargets.map Target.asStr).Nodup :=
    (all.filter _).map injective
  have same : ∀ name, name ∈ manifest.listedTargets.map Target.asStr ↔ name ∈ targetNames json := by
    intro name
    rw [List.mem_map]
    constructor
    · intro listed
      obtain ⟨t, here, rfl⟩ := listed
      exact (mem_listedTargets read t).mp here
    · intro listed
      obtain ⟨member, here, rfl⟩ := List.mem_map.mp listed
      obtain ⟨t, named⟩ := name_of_listing ((decode_onceEach.mp read).1 member here)
      exact ⟨t, (mem_listedTargets read t).mpr (named ▸ listed), named⟩
  have sizes : (targetMembers json).length = (targetNames json).length := (List.length_map _).symm
  rw [sizes, ← List.length_map Target.asStr]
  constructor
  · intro once
    exact ((List.perm_ext_iff_of_nodup once distinct).mpr fun name => (same name).symm).length_eq
  · intro lengths
    have thinned : (targetNames json).dedup.length = (targetNames json).length := by
      rw [lengths]
      refine ((List.perm_ext_iff_of_nodup (List.nodup_dedup _) distinct).mpr fun name => ?_).length_eq
      rw [List.mem_dedup, same]
    rw [← (List.dedup_sublist (targetNames json)).eq_of_length thinned]
    exact List.nodup_dedup _

/-! ## Accepted documents -/

section

variable [JsonText] {bytes : Bytes}

theorem fromBytes_eq_ok : fromBytes readTime app bytes = .ok manifest ↔
    bytes.length ≤ maxMetadataSize ∧ decode bytes = .ok manifest ∧
      manifest.validate readTime app = .ok () := by
  simp only [fromBytes, bind_eq_ok, check_eq_ok, mapError_eq_ok, pure_eq_ok]
  constructor
  · intro read
    obtain ⟨_, short, m, decoded, _, valid, rfl⟩ := read
    exact ⟨short, decoded, valid⟩
  · intro read
    obtain ⟨short, decoded, valid⟩ := read
    exact ⟨(), short, manifest, decoded, (), valid, rfl⟩

theorem decode_parsed (parsed : JsonText.parse bytes = .ok json) :
    (decode bytes : Except String (ReleaseManifest V)) = Codecs.releaseManifest.decode json := by
  rw [decode, parsed, ok_bind]

end

/-- A document that lists a target twice is refused exactly when it is too long, a
listing cannot be read, or the document with the last listings only is refused. In an
accepted document the listings are as many as the targets exactly when none repeats, and
then the asset of a target is what the one listing of the target says. -/
theorem repeated_targets_refused_iff {V : Type} [SemVer V] [JsonText] (readTime : TimestampReader)
    (app : App) (bytes : Bytes) (json : Json) (parsed : JsonText.parse bytes = .ok json) :
    ((¬ (targetNames json).Nodup →
        ∃ e, (fromBytes readTime app bytes : Except ReleaseError (ReleaseManifest V)) = .error e) ↔
      (targetNames json).Nodup ∨ maxMetadataSize < bytes.length ∨
        (∃ member ∈ targetMembers json, ¬ Listing member) ∨
        ∀ manifest : ReleaseManifest V, Codecs.releaseManifest.decode (onceEach json) = .ok manifest →
          ∃ e, manifest.validate readTime app = .error e) ∧
    ∀ manifest : ReleaseManifest V, fromBytes readTime app bytes = .ok manifest →
      ((targetNames json).Nodup ↔ (targetMembers json).length = manifest.listedTargets.length) ∧
      ((targetNames json).Nodup → ∀ t asset,
        (manifest.targets t = some asset ↔ ∃ listing, (t.asStr, listing) ∈ targetMembers json ∧
          Codecs.releaseAsset.decode listing = .ok asset) ∧
        (manifest.assetFor readTime app t = .ok ⟨t, asset⟩ ↔
          ∃ listing, (t.asStr, listing) ∈ targetMembers json ∧
            Codecs.releaseAsset.decode listing = .ok asset)) := by
  constructor
  · constructor
    · intro refused
      by_contra other
      simp only [not_or, not_lt, not_exists, not_and, not_not, not_forall] at other
      obtain ⟨repeated, short, all, manifest, decoded, valid⟩ := other
      have accepted : (fromBytes readTime app bytes : Except ReleaseError (ReleaseManifest V)) =
          .ok manifest := by
        rw [fromBytes_eq_ok, decode_parsed parsed]
        refine ⟨short, decode_onceEach.mpr ⟨all, decoded⟩, ?_⟩
        cases verdict : manifest.validate readTime app with
        | ok done => rfl
        | error e => exact absurd verdict (valid e)
      obtain ⟨e, failed⟩ := refused repeated
      rw [accepted] at failed
      cases failed
    · intro cause repeated
      cases result : (fromBytes readTime app bytes : Except ReleaseError (ReleaseManifest V)) with
      | error e => exact ⟨e, rfl⟩
      | ok manifest =>
        exfalso
        rw [fromBytes_eq_ok, decode_parsed parsed, decode_onceEach] at result
        obtain ⟨short, ⟨all, decoded⟩, valid⟩ := result
        obtain once | long | ⟨member, here, unreadable⟩ | invalid := cause
        · exact repeated once
        · omega
        · exact unreadable (all member here)
        · obtain ⟨e, failed⟩ := invalid manifest decoded
          rw [valid] at failed
          cases failed
  · intro manifest accepted
    rw [fromBytes_eq_ok, decode_parsed parsed] at accepted
    obtain ⟨_, read, valid⟩ := accepted
    refine ⟨nodup_iff_length read, fun once t asset => ⟨targets_eq_some read once t asset, ?_⟩⟩
    rw [assetFor_eq_ok valid]
    exact targets_eq_some read once t asset

/-! ## A document that lists one target twice -/

section Sample

open Sample

def twiceListings : List (String × Json) :=
  [(unixTarget.asStr, Codecs.releaseAsset.encode
      { asset unixTarget firstRelease with archiveSha256 := digestOf [] }),
    (unixTarget.asStr, Codecs.releaseAsset.encode (asset unixTarget firstRelease))]

def twiceMembers : List (String × Json) :=
  [("schema_version", .number 2), ("version", .string "1.0.0"),
    ("published_at", .string "2026-01-01T00:00:00Z"), ("expires_at", .string "2030-01-01T00:00:00Z"),
    ("targets", .object twiceListings)]

/-- A document with two listings of one target, whose archives have different digests. -/
def listedTwice : Json := .object twiceMembers

theorem listedTwice_lookup : lookupFields manifestNames listedTwice =
    .ok fun name => twiceMembers.lookup name := by
  have known : ∀ member ∈ twiceMembers, member.1 ∈ manifestNames := by
    simp [twiceMembers, manifestNames]
  have distinct : (twiceMembers.map Prod.fst).Nodup := by decide
  rw [listedTwice, lookupFields, check_pass known, ok_bind, check_pass distinct, ok_bind]
  rfl

theorem listedTwice_heads :
    Heads (fun name => twiceMembers.lookup name) (Sample.manifest unixTarget firstRelease) := by
  constructor <;> decide +kernel

theorem listedTwice_table : Codecs.targetKeys.readTable Codecs.releaseAsset (.object twiceListings) =
    .ok (Sample.manifest unixTarget firstRelease).targets := by
  have size : (1 : Nat) < 2 ^ 64 := by decide
  have first := Codecs.releaseAsset.decode_encode
    { asset unixTarget firstRelease with archiveSha256 := digestOf [] }
    (Codecs.releaseAsset_inRange size size fun _ same => by cases same)
  have last := Codecs.releaseAsset.decode_encode (asset unixTarget firstRelease)
    (Codecs.releaseAsset_inRange size size fun _ same => by cases same)
  refine (Codecs.targetKeys.foldlM_readMember_eq_ok Codecs.releaseAsset).mpr ⟨?_, fun k => ?_⟩
  · intro member here
    rcases List.mem_pair.mp here with rfl | rfl
    · exact ⟨unixTarget, _, rfl, first⟩
    · exact ⟨unixTarget, _, rfl, last⟩
  · cases k with
    | x86_64UnknownLinuxGnu =>
      change _ = (Codecs.releaseAsset.decode
        (Codecs.releaseAsset.encode (asset unixTarget firstRelease))).toOption
      rw [last]
      rfl
    | aarch64UnknownLinuxGnu | x86_64AppleDarwin | aarch64AppleDarwin | x86_64PcWindowsMsvc => rfl

theorem listedTwice_decoded : Codecs.releaseManifest.decode listedTwice =
    .ok (Sample.manifest unixTarget firstRelease) :=
  decode_eq_ok.mpr ⟨_, listedTwice_lookup, listedTwice_heads, _, rfl, listedTwice_table⟩

theorem listedTwice_repeats : targetNames listedTwice = [unixTarget.asStr, unixTarget.asStr] := by
  rw [targetNames, targetMembers, listedTwice_lookup]
  rfl

theorem firstRelease_valid : (Sample.manifest unixTarget firstRelease).validate (fun _ => .ok 0)
    (Sample.app unixTarget) = .ok () := by
  decide +kernel

theorem listedTwice_short : (printJson listedTwice).length ≤ maxMetadataSize := by
  rw [printJson_length]
  decide +kernel

theorem listedTwice_parsed : JsonText.parse (printJson listedTwice) = .ok listedTwice :=
  parse_printJson listedTwice

theorem listedTwice_read : (decode (printJson listedTwice) : Except String (ReleaseManifest Edition)) =
    .ok (Sample.manifest unixTarget firstRelease) := by
  rw [decode_parsed listedTwice_parsed, listedTwice_decoded]

theorem listedTwice_accepted :
    fromBytes (fun _ => .ok 0) (Sample.app unixTarget) (printJson listedTwice) =
      .ok (Sample.manifest unixTarget firstRelease) := by
  rw [fromBytes_eq_ok]
  exact ⟨listedTwice_short, listedTwice_read, firstRelease_valid⟩

/-- The repeated target is not refused. -/
theorem repeated_target_accepted :
    JsonText.parse (printJson listedTwice) = .ok listedTwice ∧ ¬ (targetNames listedTwice).Nodup ∧
    fromBytes (fun _ => .ok 0) (Sample.app unixTarget) (printJson listedTwice) =
      .ok (Sample.manifest unixTarget firstRelease) := by
  refine ⟨listedTwice_parsed, ?_, listedTwice_accepted⟩
  rw [listedTwice_repeats]
  decide

theorem repeated_targets_refused_twice : ¬ (targetNames listedTwice).Nodup ∧
    (targetMembers listedTwice).length ≠
      (Sample.manifest unixTarget firstRelease).listedTargets.length := by
  have repeated : ¬ (targetNames listedTwice).Nodup := by
    rw [listedTwice_repeats]
    decide
  refine ⟨repeated, fun same => repeated ?_⟩
  have sizes := (repeated_targets_refused_iff (fun _ => .ok 0) (Sample.app unixTarget) _ _
    listedTwice_parsed).2 (Sample.manifest unixTarget firstRelease)
  exact (sizes listedTwice_accepted).1.mpr same

end Sample

end ManifestJson

end Relswap
