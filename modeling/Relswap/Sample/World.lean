import Relswap.Proof.Interleaving
import Relswap.Sample.Codec

/-!
# A concrete world

One application with four releases, published for a Unix and a Windows target,
and the two hosts that install it. Digests depend on the length of the data only,
which is enough to tell the releases apart.
-/

namespace Relswap.Sample

open Durable Durable.Program

def editionText : Edition → String
  | 0 => "1.0.0"
  | 1 => "2.0.0"
  | 2 => "11.0.0"
  | 3 => "12.0.0-" ++ String.ofList (List.replicate 130 'a')

def parseEdition (text : String) : Except String Edition :=
  orError ([0, 1, 2, 3].find? fun v => editionText v == text) "unknown version"

/-- The releases by name, for disks described outside this file. -/
def firstRelease : Edition := 0
def secondRelease : Edition := 1
def thirdRelease : Edition := 2
def longRelease : Edition := 3

theorem editionText_chars : ∀ v, (editionText v).toList.all versionChar = true := by
  decide +kernel

instance : SemVer Edition where
  toText := editionText
  parse := parseEdition
  parse_toText := by decide +kernel
  toText_ne_empty := by decide +kernel
  toText_digit := by decide +kernel
  toText_chars v := List.all_eq_true.mp (editionText_chars v)

/-! ## Third-party code -/

def digestOf (bytes : Bytes) : String :=
  String.ofList (List.replicate 64 (hexDigit (bytes.length % 16)))

theorem digestOf_lower (bytes : Bytes) : lowerSha256 (digestOf bytes) = true := by
  obtain ⟨byte, encoded, lower⟩ := hexDigit_lower (bytes.length % 16)
  have digits : encodeUtf8 (digestOf bytes) = List.replicate 64 byte := by
    rw [digestOf, encodeUtf8_ofList]
    simp [List.replicate, encoded]
  rw [lowerSha256, digits]
  simp [List.replicate, lower]

def unixTarget : Target := .x86_64UnknownLinuxGnu
def windowsTarget : Target := .x86_64PcWindowsMsvc

/-- The application as it is built for a target. -/
def app (target : Target) : App :=
  ⟨"app", "1.0.0", "/app/", [],
    if target = windowsTarget then .windowsLauncher "launcher.exe" 1 else .unixSymlink, none⟩

def payloadBytes (v : Edition) : Bytes := List.replicate (v.val + 1) 1
def launcherBytes (v : Edition) : Bytes := List.replicate (v.val + 1) 2
def archiveBytes (v : Edition) : Bytes := List.replicate (v.val + 1) 3
def manifestBytes (target : Target) (v : Edition) : Bytes :=
  List.replicate (v.val + if target = windowsTarget then 410 else 400) 4
def signatureBytes : Bytes := [5]

def launcherInfo (v : Edition) : LauncherInfo :=
  ⟨windowsTarget.rootName (app windowsTarget) v ++ "/launcher.exe", digestOf (launcherBytes v), v.val + 1, 1⟩

def asset (target : Target) (v : Edition) : ReleaseAsset where
  archive := target.archiveName (app target) v
  archiveSha256 := digestOf (archiveBytes v)
  archiveSize := v.val + 1
  payload := ⟨target.payloadPath (app target) v, digestOf (payloadBytes v), v.val + 1⟩
  launcher := if target = windowsTarget then some (launcherInfo v) else none

/-- The manifest of a release lists one target. -/
def manifest (target : Target) (v : Edition) : ReleaseManifest Edition :=
  ⟨manifestSchemaVersion, v, "2026-01-01T00:00:00Z", "2030-01-01T00:00:00Z", fun other =>
    if other = target then some (asset target v) else none⟩

def decodeManifest (bytes : Bytes) : Except String (ReleaseManifest Edition) :=
  match bytes.length with
  | 400 => .ok (manifest unixTarget 0)
  | 401 => .ok (manifest unixTarget 1)
  | 402 => .ok (manifest unixTarget 2)
  | 403 => .ok (manifest unixTarget 3)
  | 410 => .ok (manifest windowsTarget 0)
  | 411 => .ok (manifest windowsTarget 1)
  | 412 => .ok (manifest windowsTarget 2)
  | 413 => .ok (manifest windowsTarget 3)
  | _ => .error "not a manifest"

def member (name : String) (kind : ContainerKind) (data : Bytes) : ContainerMember :=
  ⟨encodeUtf8 name, kind, none, true, data.length, data⟩

/-- The members of an archive; its length tells the release. -/
def members (target : Target) (bytes : Bytes) : List (Except ReleaseError ContainerMember) :=
  match ([0, 1, 2, 3] : List Edition).find? fun v => bytes.length == v.val + 1 with
  | none => [.error (.archive "not an archive")]
  | some v =>
    [.ok (member (target.rootName (app target) v) .directory []),
      .ok (member (target.payloadPath (app target) v) .file (payloadBytes v))] ++
    if target = windowsTarget then
      [.ok (member (launcherInfo v).path .file (launcherBytes v))]
    else []

instance : Crates Edition where
  sha256 := digestOf
  readTime := fun _ => .ok 0
  decodeManifest := decodeManifest
  decodeEnvelope := fun _ => .ok ⟨1, [⟨"key", "ed25519", "signature"⟩]⟩
  decodeKeySet := fun _ => .ok ⟨1, []⟩
  decodeBase64 := fun text =>
    .ok (if text = "public" then List.replicate 32 0 else List.replicate 64 0)
  validPublicKey := fun _ => true
  verifyStrict := fun _ _ _ => true
  decodeVersionState := decodeRecord
  encodeVersionState := encodeRecord
  readTar := members unixTarget
  readZip := members windowsTarget
  sha256_lower := digestOf_lower

/-- A URL is the segments of its path; all are served over HTTPS. -/
structure Url where
  segments : List String

def split (path : List Char) : List String := (splitSlash path).map String.ofList

instance : UrlCrate Url where
  parse := fun text => .ok ⟨split (text.toList.drop 1)⟩
  scheme := fun _ => "https"
  path := fun url => String.join (url.segments.map fun segment => "/" ++ segment)
  pathSegments := fun url => some url.segments
  hasQuery := fun _ => false
  hasFragment := fun _ => false
  join := fun base rest => .ok ⟨base.segments.dropLast ++ split rest.toList⟩
  setPath := fun _ path => ⟨split (path.toList.drop 1)⟩
  withoutQuery := fun url => url

/-! ## Hosts and inputs -/

def key : TrustedKey := ⟨"key", "ed25519", "public"⟩

def unixHost : Installation where
  platform := .unix
  currentTarget := some unixTarget
  app := app unixTarget
  root := [.rootDir, .normal "opt", .normal "app"]
  commandPath := [.rootDir, .normal "bin", .normal "app"]
  trustedKeys := some [key]
  foldCase := id
  aliases := fun _ => false
  target_platform := by
    intro target same
    cases same
    decide
  command_openable := by decide +kernel

def windowsRoot : FsPath := [.volume "C:", .rootDir, .normal "app"]

def windowsHost : Installation where
  platform := .windows
  currentTarget := some windowsTarget
  app := app windowsTarget
  root := windowsRoot
  commandPath := (windowsRoot.join "bin").join "app.exe"
  trustedKeys := some [key]
  foldCase := id
  aliases := fun _ => false
  target_platform := by
    intro target same
    cases same
    decide
  command_openable := by decide +kernel

/-- The randomness of one call. -/
def bytesOf (n : UInt8) : RandomBytes := ⟨List.replicate 32 n, by simp⟩

/-- An asset of a release, under the repository of the application. -/
def assetUrl (v : Edition) (name : String) : Url :=
  ⟨["app", "releases", "download", "v" ++ editionText v, name]⟩

/-- A network that serves one release. -/
def inputs (target : Target) (v : Edition) (signature : Bytes) : Inputs Edition Url where
  downloader := fun
    | 0, _, _ => .ok ⟨assetUrl v "app-release.json", assetUrl v "app-release.json", [],
        manifestBytes target v⟩
    | 1, _, _ => .ok ⟨assetUrl v "app-release.sig", assetUrl v "app-release.sig", [], signature⟩
    | _, _, _ => .ok ⟨assetUrl v "archive", assetUrl v "archive", [], archiveBytes v⟩
  nowFetched := 0
  nowChecked := 0
  nowStaged := 0
  randomness := fun
    | .installation => .ok (bytesOf 17)
    | .staging => .ok (bytesOf 34)
    | .journal => .ok (bytesOf 51)
  probe := .ok ()

/-- A host on which nothing is installed. -/
def freshDisk : Disk Edition where
  root := .absent
  lock := .absent
  install := .absent
  pending := .absent
  active := .absent
  versions := .absent
  staging := .absent
  commandParent := .absent
  command := .absent

/-- The disk after an operation has run alone, without faults. -/
@[irreducible] def after (I : Installation) (op : Operation Edition Url) (s : Disk Edition) : Disk Edition :=
  ((I.perform op).exec s).2

theorem freshDisk_quiet (I : Installation) : I.Quiet Url freshDisk := Installation.Fresh.quiet
  ⟨.inl rfl, rfl, rfl, rfl, rfl, rfl, rfl, fun _ => .inl rfl, rfl⟩

theorem quiet_after {I : Installation} {s : Disk Edition} (h : I.Quiet Url s)
    (op : Operation Edition Url) : I.Quiet Url (after I op s) := by
  rw [after]
  exact h.leaves op (exec_leaves _ s)

/-- A successful run, from its computed result. -/
theorem exec_of_toOption {α : Type} {p : Action Edition α} {s : Disk Edition} {a : α}
    (h : (p.exec s).1.toOption = some a) : p.exec s = (.ok a, (p.exec s).2) := by
  generalize p.exec s = outcome at h
  obtain ⟨r, t⟩ := outcome
  cases r with
  | ok b => cases h; rfl
  | error => cases h

theorem ok_of_isSome {ε α : Type} {r : Except ε α} (h : r.toOption.isSome = true) :
    ∃ a, r = .ok a := by
  cases r with
  | ok a => exact ⟨a, rfl⟩
  | error => cases h

def install (target : Target) (v : Edition) : Operation Edition Url :=
  .installVersion (inputs target v signatureBytes) v

/-! ## Disks -/

/-- After an installation and an update, on either host. -/
def updated (I : Installation) (target : Target) : Disk Edition :=
  after I (install target 1) (after I (install target 0) freshDisk)

theorem updated_quiet (I : Installation) (target : Target) : I.Quiet Url (updated I target) :=
  quiet_after (quiet_after (freshDisk_quiet I) _) _

def folder {α : Type} (entries : List (String × α)) : AList fun _ : String => α :=
  entries.foldr (fun entry rest => rest.insert entry.1 entry.2) ∅

def sampleId : String := hexEncode (List.replicate 32 17)

def recordOf (target : Target) (v : Edition) : VersionState Edition :=
  ⟨stateSchemaVersion, v, target, digestOf (payloadBytes v), v.val + 1, sampleId,
    if target = windowsTarget then some (launcherMetadata (launcherInfo v)) else none⟩

/-- The directory of a version as the program writes it. -/
def versionDirOf (target : Target) (v : Edition) : VersionEntry :=
  .directory ⟨true, folder [
    ("version.json", .file (encodeRecord (recordOf target v))),
    ("release.signatures.json", .file signatureBytes),
    ("release.json", .file (manifestBytes target v)),
    (target.payloadName (app target), .file (payloadBytes v))]⟩

def unixDisk : Disk Edition where
  root := .directory true
  lock := .regular
  install := .value ⟨stateSchemaVersion, some 1, some 0, sampleId, none⟩
  pending := .absent
  active := .absent
  versions := .directory true (folder [
    ("2.0.0", versionDirOf unixTarget 1), ("1.0.0", versionDirOf unixTarget 0)])
  staging := .directory true ∅
  commandParent := .directory true
  command := .symlink (unixHost.payloadPath (1 : Edition))

/-- The launcher is still that of the first release. -/
def windowsDisk : Disk Edition where
  root := .directory true
  lock := .regular
  install := .value ⟨stateSchemaVersion, some 1, some 0, sampleId,
    some (windowsHost.ownershipOf (launcherMetadata (launcherInfo 0)))⟩
  pending := .absent
  active := .file (encodeUtf8 (editionText 1))
  versions := .directory true (folder [
    ("2.0.0", versionDirOf windowsTarget 1), ("1.0.0", versionDirOf windowsTarget 0)])
  staging := .directory true ∅
  commandParent := .directory true
  command := .file (launcherBytes 0)

theorem updated_unix : updated unixHost unixTarget = unixDisk := by decide +kernel

theorem unixDisk_quiet : unixHost.Quiet Url unixDisk :=
  updated_unix ▸ updated_quiet unixHost unixTarget

theorem updated_windows : updated windowsHost windowsTarget = windowsDisk := by decide +kernel

theorem windowsDisk_quiet : windowsHost.Quiet Url windowsDisk :=
  updated_windows ▸ updated_quiet windowsHost windowsTarget

end Relswap.Sample
