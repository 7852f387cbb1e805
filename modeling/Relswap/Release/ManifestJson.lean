import Relswap.Json.Table
import Relswap.Release.Manifest

/-!
# The JSON document of a release manifest

The JSON crate turns bytes into values and writes values as compact text. The
fields of the documents are the program's own, and so are the texts of versions
and targets.
-/

namespace Relswap

open Durable

def printJson (json : Json) : Bytes := encodeUtf8 (String.ofList json.text)

/-- What the program uses of the JSON crate. Nesting is limited, and no text of a
value is shorter than the one that is written. -/
class JsonText where
  parse : Bytes → Except String Json
  parse_print : ∀ json : Json, json.Shallow 127 → parse (printJson json) = .ok json
  print_shortest : ∀ bytes json, parse bytes = .ok json → (printJson json).length ≤ bytes.length

theorem printJson_length (json : Json) : (printJson json).length = json.size := by
  rw [printJson, encodeUtf8_ofList, List.length_flatMap, Json.size, Json.bytesOf]
  refine congrArg List.sum (List.map_congr_left fun c _ => ?_)
  exact String.length_utf8EncodeChar c

/-! ## Texts of versions and targets -/

section

variable {V : Type} [SemVer V]

/-- A version whose text is the one that would be written. -/
def parseCanonical (refusal : String → String) (value : String) : Except String V := do
  let version ← SemVer.parse value
  check (SemVer.toText version = value) (refusal value)
  return version

theorem parseCanonical_eq_ok {refusal : String → String} {value : String} {v : V} :
    parseCanonical refusal value = .ok v ↔ SemVer.toText v = value := by
  simp only [parseCanonical, bind_eq_ok, check_eq_ok, pure_eq_ok]
  constructor
  · intro parsed
    obtain ⟨w, _, _, canonical, rfl⟩ := parsed
    exact canonical
  · intro canonical
    subst canonical
    exact ⟨v, SemVer.parse_toText v, (), rfl, rfl⟩

end

def Target.fromStr (value : String) : Except String Target :=
  match value with
  | "x86_64-unknown-linux-gnu" => .ok .x86_64UnknownLinuxGnu
  | "aarch64-unknown-linux-gnu" => .ok .aarch64UnknownLinuxGnu
  | "x86_64-apple-darwin" => .ok .x86_64AppleDarwin
  | "aarch64-apple-darwin" => .ok .aarch64AppleDarwin
  | "x86_64-pc-windows-msvc" => .ok .x86_64PcWindowsMsvc
  | other => .error s!"unsupported release target: {other}"

theorem Target.fromStr_asStr (target : Target) : fromStr target.asStr = .ok target := by
  cases target <;> rfl

theorem Target.asStr_fromStr (value : String) (target : Target)
    (parsed : fromStr value = .ok target) : target.asStr = value := by
  unfold fromStr at parsed
  split at parsed <;> cases parsed <;> rfl

/-! ## Fields -/

namespace Codecs

open Json Json.Fields

def u32 : Codec Nat := .unsigned (2 ^ 32) (by decide)
def u64 : Codec Nat := .unsigned (2 ^ 64) (by decide)

def version {V : Type} [SemVer V] (refusal : String → String) : Codec V :=
  .text SemVer.toText (parseCanonical refusal) (fun _ => parseCanonical_eq_ok.mpr rfl)
    fun _ _ parsed => parseCanonical_eq_ok.mp parsed

def target : Codec Target :=
  .text Target.asStr Target.fromStr Target.fromStr_asStr Target.asStr_fromStr

def targetKeys : Keys Target where
  all := Target.all
  mem_all := Target.mem_all
  nodup := by decide
  text := Target.asStr
  parse := Target.fromStr
  parse_text := Target.fromStr_asStr
  text_parse := Target.asStr_fromStr

def payloadInfo : Codec PayloadInfo :=
  .record (((required "path" .string).and
      ((required "sha256" .string).and (required "size" u64))).map
    { toFun := fun fields => ⟨fields.1, fields.2.1, fields.2.2⟩
      invFun := fun info => (info.path, info.sha256, info.size)
      left_inv := fun _ => rfl
      right_inv := fun _ => rfl }) (by decide)

def launcherInfo : Codec LauncherInfo :=
  .record (((required "path" .string).and ((required "sha256" .string).and
      ((required "size" u64).and (required "protocol" u32)))).map
    { toFun := fun fields => ⟨fields.1, fields.2.1, fields.2.2.1, fields.2.2.2⟩
      invFun := fun info => (info.path, info.sha256, info.size, info.protocol)
      left_inv := fun _ => rfl
      right_inv := fun _ => rfl }) (by decide)

def releaseAsset : Codec ReleaseAsset :=
  .record (((required "archive" .string).and ((required "archive_sha256" .string).and
      ((required "archive_size" u64).and ((required "payload" payloadInfo).and
        (skipped "launcher" launcherInfo fun _ => Json.noConfusion))))).map
    { toFun := fun fields =>
        ⟨fields.1, fields.2.1, fields.2.2.1, fields.2.2.2.1, fields.2.2.2.2⟩
      invFun := fun asset =>
        (asset.archive, asset.archiveSha256, asset.archiveSize, asset.payload, asset.launcher)
      left_inv := fun _ => rfl
      right_inv := fun _ => rfl }) (by decide)

theorem payloadInfo_inRange {info : PayloadInfo} (size : info.size < 2 ^ 64) :
    payloadInfo.InRange info := ⟨trivial, trivial, size⟩

theorem launcherInfo_inRange {info : LauncherInfo} (size : info.size < 2 ^ 64)
    (protocol : info.protocol < 2 ^ 32) : launcherInfo.InRange info :=
  ⟨trivial, trivial, size, protocol⟩

theorem releaseAsset_inRange {asset : ReleaseAsset} (archive : asset.archiveSize < 2 ^ 64)
    (payload : asset.payload.size < 2 ^ 64)
    (launcher : ∀ info, asset.launcher = some info → info.size < 2 ^ 64 ∧ info.protocol < 2 ^ 32) :
    releaseAsset.InRange asset :=
  ⟨trivial, trivial, archive, payloadInfo_inRange payload, fun info here =>
    launcherInfo_inRange (launcher info here).1 (launcher info here).2⟩

def releaseManifest {V : Type} [SemVer V] : Codec (ReleaseManifest V) :=
  .record (((required "schema_version" u32).and
      ((required "version" (version fun raw => s!"release version is not canonical: {raw}")).and
        ((required "published_at" .string).and ((required "expires_at" .string).and
          (required "targets" (.table targetKeys releaseAsset)))))).map
    { toFun := fun fields =>
        ⟨fields.1, fields.2.1, fields.2.2.1, fields.2.2.2.1, fields.2.2.2.2⟩
      invFun := fun manifest => (manifest.schemaVersion, manifest.version, manifest.publishedAt,
        manifest.expiresAt, manifest.targets)
      left_inv := fun _ => rfl
      right_inv := fun _ => rfl }) (by
    change ["schema_version", "version", "published_at", "expires_at", "targets"].Nodup
    decide)

end Codecs

/-! ## The document -/

namespace ManifestJson

variable {V : Type} [SemVer V] [JsonText]

def decode (bytes : Bytes) : Except String (ReleaseManifest V) := do
  let json ← JsonText.parse bytes
  Codecs.releaseManifest.decode json

def fromBytes (readTime : TimestampReader) (app : App) (bytes : Bytes) :
    Except ReleaseError (ReleaseManifest V) := do
  check (bytes.length ≤ maxMetadataSize)
    (.invalid s!"release manifest exceeds {maxMetadataSize} bytes")
  let manifest ← (decode bytes).mapError .json
  manifest.validate readTime app
  return manifest

def toBytes (readTime : TimestampReader) (app : App) (manifest : ReleaseManifest V) :
    Except ReleaseError Bytes := do
  manifest.validate readTime app
  return printJson (Codecs.releaseManifest.encode manifest)

end ManifestJson

end Relswap
