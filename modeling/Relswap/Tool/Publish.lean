import Relswap.Tool.Probe
import Relswap.Tool.Sign

/-!
# The manifest command

Probe the archives of a release, write their checksum files and write a manifest that
lists them.
-/

namespace Relswap.Tool

open Durable Checked

/-- Paths are ordered by their components. -/
def PathOrder (left right : String) : Prop :=
  (splitSlash left.toList).map (fun part => textKey (String.ofList part)) ≤
    (splitSlash right.toList).map fun part => textKey (String.ofList part)

instance : DecidableRel PathOrder := fun _ _ => inferInstanceAs (Decidable (_ ≤ _))

/-- What the tool uses besides to write manifests. -/
class PublishingCrates (V : Type) [SemVer V] [Crates V] [JsonText] where
  /-- Write an instant in UTC with seconds. -/
  formatTime : Int → String
  decodeManifest_eq : ∀ bytes, Crates.decodeManifest bytes =
    JsonText.parse bytes >>= (Codecs.releaseManifest (V := V)).decode

/-- The archives in the directory of artifacts, if there is one. -/
def directoryArchives (args : Arguments) (app : App) : Command (List String) := do
  match ← args.optionalOne "artifacts-dir" with
  | some directory =>
    let entries ← readDir directory
    let files ← get
    return entries.filter fun path => (files.read path).isSome && isArchiveName app path
  | none => return []

def collectArchives (args : Arguments) (app : App) : Command (List String) := do
  let listed ← directoryArchives args app
  let sorted := (listed ++ args.many "archive" ++ args.positionals).insertionSort PathOrder
  let paths := sorted.destutter (· ≠ ·)
  check (paths ≠ []) "no archives supplied; use --artifacts-dir or --archive"
  return paths

def writeChecksum (path digest : String) : Command Unit :=
  let name := fileName path
  writeFile (withFileName path s!"{name}.sha256") (encodeUtf8 s!"{digest}  {name}\n")

/-- The tool reports the errors of the release layer by their texts. -/
def reported {α : Type} (result : Except ReleaseError α) : Except String α :=
  result.mapError releaseErrorText

section

variable (V : Type) [SemVer V]

def parseVersion (version : String) : Except ReleaseError V := do
  let parsed ← (SemVer.parse version : Except String V).mapError fun error =>
    .invalid s!"invalid release version: {error}"
  check (SemVer.toText parsed = version)
    (.invalid s!"release version is not canonical: {version}")
  return parsed

variable {V} in
/-- The asset of a probed archive. -/
def probedAsset (app : App) (version : V) (target : Target) (probe : ArtifactProbe) :
    Except String ReleaseAsset := do
  let asset := ReleaseAsset.new app version target probe.size probe.sha256 probe.payload.size
    probe.payload.sha256
  if target.isWindows then
    let launcher ← orError probe.launcher "Windows archive lacks launcher metadata"
    let protocol ← orError (target.launcherProtocol app) "Windows target has no launcher protocol"
    return asset.withLauncher app version target protocol launcher.size launcher.sha256
  else return asset

variable [Crates V] [ContainerCrates]

variable {V} in
/-- Probe one archive and add its asset to the targets. -/
def publishArchive (app : App) (versionText : String) (version : V)
    (targets : Target → Option ReleaseAsset) (archive : String) :
    Command (Target → Option ReleaseAsset) := do
  let probe ← probeArchive V app archive versionText
  let target ← Target.fromStr probe.target
  let asset ← probedAsset app version target probe
  let bytes ← readFile "" archive
  let _ ← reported (inspectArchive V app bytes asset)
  writeChecksum archive probe.sha256
  let targetText := target.asStr
  check (targets target = none) s!"duplicate release target {targetText}"
  return Function.update targets target (some asset)

variable {V} in
def publishArchives (app : App) (versionText : String) (version : V)
    (targets : Target → Option ReleaseAsset) : List String → Command (Target → Option ReleaseAsset)
  | [] => pure targets
  | archive :: rest => do
    let targets ← publishArchive app versionText version targets archive
    publishArchives app versionText version targets rest

variable [JsonText] [SigningCrates V] [PublishingCrates V]

/-- A year of nanoseconds. -/
def manifestLifetime : Int := 365 * 24 * 3600 * 1000000000

def expiresAtOf (run : Invocation) : Except String String := do
  match ← run.args.optionalOne "expires-at" with
  | some value =>
    validateTimestamp V value "expires_at"
    return value
  | none => return PublishingCrates.formatTime V (run.now + manifestLifetime)

def generateManifest (run : Invocation) : Command Unit := do
  let app ← appFromArgs run.args
  let versionText ← run.args.one "version"
  let version ← reported (parseVersion V versionText)
  let output ← run.args.one "output"
  let archives ← collectArchives run.args app
  let targets ← publishArchives app versionText version (fun _ => none) archives
  let expiresAt ← expiresAtOf V run
  let manifest ← reported (ReleaseManifest.new (Crates.readTime V) app version
    (PublishingCrates.formatTime V run.now) expiresAt targets)
  let bytes ← reported (ManifestJson.toBytes (Crates.readTime V) app manifest)
  writeFile output bytes

end

end Relswap.Tool
