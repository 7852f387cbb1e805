import Relswap.Release.Target

/-!
# The signed release manifest

Schema and canonical validation. The map from targets to assets is a function
on the fixed target matrix, so a target occurs at most once.
-/

namespace Relswap

open Durable

/-- Metadata for the executable member selected from an archive. -/
structure PayloadInfo where
  path : String
  sha256 : String
  size : Nat
  deriving DecidableEq, Repr

/-- Metadata for the launcher member of a Windows archive. -/
structure LauncherInfo where
  path : String
  sha256 : String
  size : Nat
  protocol : Nat
  deriving DecidableEq, Repr

/-- One target's signed release asset record. -/
structure ReleaseAsset where
  archive : String
  archiveSha256 : String
  archiveSize : Nat
  payload : PayloadInfo
  launcher : Option LauncherInfo
  deriving DecidableEq, Repr

/-- Schema-versioned release metadata. -/
structure ReleaseManifest (V : Type) where
  schemaVersion : Nat
  version : V
  publishedAt : String
  expiresAt : String
  targets : Target → Option ReleaseAsset

def manifestSchemaVersion : Nat := 2

/-- Instants are counted in nanoseconds. -/
def expiryClockSkew : Int := 12 * 3600 * 1000000000

/-- Parse an RFC 3339 timestamp to the instant it denotes. -/
abbrev TimestampReader := String → Except String Int

def validateSize (size maximum : Nat) (label : String) : Except ReleaseError Unit := do
  check (size ≠ 0) (.invalid s!"{label} size must be nonzero")
  check (size ≤ maximum) (.invalid s!"{label} size {size} exceeds maximum {maximum}")

def validateSha256 (value label : String) : Except ReleaseError Unit :=
  check (lowerSha256 value = true)
    (.invalid s!"invalid {label} SHA-256: expected 64 lowercase hexadecimal characters")

def validateBasename (value label : String) : Except ReleaseError Unit :=
  check (value ≠ "" ∧ value ≠ "." ∧ value ≠ ".." ∧
      value.toList.all (fun c => !(['/', '\\', '\x00', ':'].contains c)) = true)
    (.invalid s!"noncanonical {label}: {value}")

/-- Split at every slash, keeping empty parts. -/
def splitSlash : List Char → List (List Char)
  | [] => [[]]
  | c :: rest =>
    if c = '/' then [] :: splitSlash rest
    else match splitSlash rest with
      | [] => [[c]]
      | part :: parts => (c :: part) :: parts

def validateMemberPath (value label : String) : Except ReleaseError Unit := do
  let parts := splitSlash value.toList
  check (value ≠ "" ∧ value.toList.head? ≠ some '/' ∧
      value.toList.all (fun c => !(['\\', '\x00'].contains c)) = true ∧
      parts.all (fun part => !(part == [] || part == ['.'] || part == ['.', '.'])) = true)
    (.invalid s!"noncanonical {label}: {value}")
  check ((parts.headD []).all (fun c => c != ':') = true)
    (.invalid s!"noncanonical {label}: {value}")

namespace ReleaseAsset

variable {V : Type} [SemVer V]

/-- An asset with canonical names and no launcher. -/
def new (app : App) (version : V) (target : Target) (archiveSize : Nat) (archiveSha256 : String)
    (payloadSize : Nat) (payloadSha256 : String) : ReleaseAsset where
  archive := target.archiveName app version
  archiveSha256 := archiveSha256
  archiveSize := archiveSize
  payload := ⟨target.payloadPath app version, payloadSha256, payloadSize⟩
  launcher := none

def withLauncher (asset : ReleaseAsset) (app : App) (version : V) (target : Target)
    (protocol launcherSize : Nat) (launcherSha256 : String) : ReleaseAsset :=
  match target.launcherPath app version with
  | some path => { asset with launcher := some ⟨path, launcherSha256, launcherSize, protocol⟩ }
  | none => asset

/-- The launcher part of an asset's validation. -/
def validateLauncher (asset : ReleaseAsset) (app : App) (version : V) (target : Target) :
    Except ReleaseError Unit :=
  match target.isWindows, asset.launcher with
  | true, some launcher => do
    let targetText := target.asStr
    let expected ← orError (target.launcherPath app version)
      (.invalid s!"app does not configure a Windows launcher required by {targetText}")
    let got := launcher.path
    let protocol := launcher.protocol
    check (launcher.path = expected)
      (.invalid s!"noncanonical launcher path for {targetText}: expected {expected}, got {got}")
    check (launcher.protocol = (target.launcherProtocol app).getD 0)
      (.invalid s!"unsupported launcher protocol {protocol} for {targetText}")
    validateMemberPath launcher.path "launcher path"
    validateSize launcher.size maxMemberSize "launcher"
    validateSha256 launcher.sha256 "launcher"
    check (launcher.path ≠ asset.payload.path)
      (.invalid "payload and launcher paths must be distinct")
  | true, none =>
    .error (.invalid "Windows release asset is missing its protocol-1 launcher")
  | false, some _ =>
    let targetText := target.asStr
    .error (.invalid s!"non-Windows release asset {targetText} must not contain a launcher")
  | false, none => .ok ()

def validate (asset : ReleaseAsset) (app : App) (version : V) (target : Target) :
    Except ReleaseError Unit := do
  let targetText := target.asStr
  let expectedArchive := target.archiveName app version
  let archive := asset.archive
  check (asset.archive = expectedArchive)
    (.invalid s!"noncanonical archive name for {targetText}: expected {expectedArchive}, got {archive}")
  validateBasename asset.archive "archive name"
  validateSize asset.archiveSize maxArchiveSize "archive"
  validateSha256 asset.archiveSha256 "archive"
  let expectedPayload := target.payloadPath app version
  let payload := asset.payload.path
  check (asset.payload.path = expectedPayload)
    (.invalid s!"noncanonical payload path for {targetText}: expected {expectedPayload}, got {payload}")
  validateMemberPath asset.payload.path "payload path"
  validateSize asset.payload.size maxMemberSize "payload"
  validateSha256 asset.payload.sha256 "payload"
  asset.validateLauncher app version target

end ReleaseAsset

/-- An asset together with the authenticated map key it was selected by. -/
structure SelectedAsset where
  target : Target
  asset : ReleaseAsset
  deriving DecidableEq

def SelectedAsset.launcher (selected : SelectedAsset) : Option LauncherInfo :=
  selected.asset.launcher

namespace ReleaseManifest

variable {V : Type} [SemVer V]

instance [DecidableEq V] : DecidableEq (ReleaseManifest V) := fun a b =>
  decidable_of_iff
    (a.schemaVersion = b.schemaVersion ∧ a.version = b.version ∧
      a.publishedAt = b.publishedAt ∧ a.expiresAt = b.expiresAt ∧
      ∀ target ∈ Target.all, a.targets target = b.targets target)
    ⟨fun ⟨h1, h2, h3, h4, h5⟩ => by
      cases a
      cases b
      simp only at h1 h2 h3 h4
      subst h1 h2 h3 h4
      exact congrArg _ (funext fun target => h5 target (Target.mem_all target)),
     fun same => by subst same; exact ⟨rfl, rfl, rfl, rfl, fun _ _ => rfl⟩⟩

/-- The targets a manifest lists, in order. -/
def listedTargets (manifest : ReleaseManifest V) : List Target :=
  Target.all.filter fun target => (manifest.targets target).isSome

/-- Validate the asset of every listed target. -/
def validateTargets (manifest : ReleaseManifest V) (app : App) :
    List Target → Except ReleaseError Unit
  | [] => .ok ()
  | target :: rest => do
    match manifest.targets target with
    | some asset => asset.validate app manifest.version target
    | none => .ok ()
    validateTargets manifest app rest

/-- The map has one entry for each key, so the size bound and the duplicate
check of the source can never fail and are left out. -/
def validate (manifest : ReleaseManifest V) (readTime : TimestampReader) (app : App) :
    Except ReleaseError Unit := do
  let schema := manifest.schemaVersion
  check (manifest.schemaVersion = manifestSchemaVersion)
    (.invalid s!"unsupported release manifest schema_version {schema}")
  check (SemVer.toText manifest.version ≠ "") (.invalid "release manifest version is empty")
  let _ ← (readTime manifest.publishedAt).mapError fun error =>
    .invalid s!"invalid published_at RFC3339 timestamp: {error}"
  let _ ← (readTime manifest.expiresAt).mapError fun error =>
    .invalid s!"invalid expires_at RFC3339 timestamp: {error}"
  check (manifest.listedTargets ≠ [])
    (.invalid "release manifest must contain at least one target")
  manifest.validateTargets app Target.all

def new (readTime : TimestampReader) (app : App) (version : V) (publishedAt expiresAt : String)
    (targets : Target → Option ReleaseAsset) : Except ReleaseError (ReleaseManifest V) := do
  let manifest : ReleaseManifest V :=
    ⟨manifestSchemaVersion, version, publishedAt, expiresAt, targets⟩
  manifest.validate readTime app
  return manifest

/-- Reject a manifest whose validity window has closed. -/
def ensureNotExpired (manifest : ReleaseManifest V) (readTime : TimestampReader) (now : Int) :
    Except ReleaseError Unit := do
  let expiresAt ← (readTime manifest.expiresAt).mapError fun error =>
    .invalid s!"invalid expires_at RFC3339 timestamp: {error}"
  check (now - expiryClockSkew ≤ expiresAt) (.invalid "release manifest has expired")

/-- Select metadata using the authenticated map key as the target authority. -/
def assetFor (manifest : ReleaseManifest V) (readTime : TimestampReader) (app : App)
    (target : Target) : Except ReleaseError SelectedAsset := do
  manifest.validate readTime app
  let targetText := target.asStr
  let asset ← orError (manifest.targets target)
    (.invalid s!"release has no asset for {targetText}")
  return ⟨target, asset⟩

end ReleaseManifest

end Relswap
