import Relswap.Tool.Publish

/-!
# The verify command

Check a published release: names, signatures, trusted keys, the listed archives with
their checksum files, and that no other archive lies beside them.
-/

namespace Relswap.Tool

open Durable Checked

variable (V : Type) [SemVer V] [Crates V]

/-- The parts of a text between white space. -/
def splitWhitespace (text : String) : List String :=
  ((text.toList.splitOnP whiteSpace).filter fun part => part != []).map String.ofList

/-- A text without stars in front. -/
def trimStartStars (text : String) : String :=
  String.ofList (text.toList.dropWhile fun c => c == '*')

def checkKeys : List TrustedKey → Except String Unit
  | [] => .ok ()
  | key :: rest => do
    let id := key.id
    let algorithm := key.algorithm
    validateKeyId key.id
    check (key.algorithm = ed25519Algorithm)
      s!"key {id} uses unsupported algorithm {algorithm}"
    checkKeys rest

def readKeys (path : String) (requireNonempty : Bool) : Command TrustedKeySet := do
  let bytes ← readFile "" path
  let document ← parsed "public key document " path (TrustedKeySet.fromBytes V bytes)
  check (requireNonempty = true →
      document.keys.any (fun key => key.algorithm == ed25519Algorithm) = true)
    s!"public key document {path} contains no trusted keys"
  checkKeys document.keys
  return document

/-- A checksum text lists one name with its digest. -/
def checkListing (checksumPath text name expected : String) : Except String Unit := do
  let fields := splitWhitespace text
  let actual ← orError fields[0]? s!"empty checksum {checksumPath}"
  let listed ← orError fields[1]? s!"malformed checksum {checksumPath}"
  check (fields[2]? = none ∧ lowerSha256 actual = true ∧ trimStartStars listed = name ∧
      actual = expected)
    s!"checksum {checksumPath} does not match {name}"

def verifyChecksumFile (archive expected : String) : Command Unit := do
  let name := fileName archive
  let checksumPath := withFileName archive s!"{name}.sha256"
  let bytes ← readFile "" checksumPath
  let text ← orError (decodeUtf8 bytes) s!"read {checksumPath}: stream did not contain valid UTF-8"
  checkListing checksumPath text name expected
  let content ← readFile "" archive
  check (Crates.sha256 V content = expected) s!"archive {name} changed after manifest generation"

/-- Verify the archives of the given targets, and collect their names. -/
def verifyTargets (app : App) (manifest : ReleaseManifest V) (directory : String)
    (expected : List String) : List Target → Command (List String)
  | [] => pure expected
  | target :: rest =>
    match manifest.targets target with
    | none => verifyTargets app manifest directory expected rest
    | some asset => do
      let archive := asset.archive
      check (archive ∉ expected) s!"manifest repeats archive {archive}"
      let path := joinPath directory archive
      let bytes ← readFile "" path
      let _ ← (inspectArchive V app bytes asset).mapError fun error =>
        let message := releaseErrorText error
        s!"verify {path}: {message}"
      let targetText := target.asStr
      check (bytes.length = asset.archiveSize)
        s!"manifest size does not match final archive {path} ({targetText})"
      verifyChecksumFile V path asset.archiveSha256
      verifyTargets app manifest directory (archive :: expected) rest

def verifyArtifacts (app : App) (manifest : ReleaseManifest V) (directory : String) :
    Command Unit := do
  let files ← get
  check (files.lookup directory = some .directory)
    s!"artifacts directory {directory} does not exist"
  let expected ← verifyTargets V app manifest directory [] Target.all
  let entries ← readDir directory
  match entries.find? fun path => isArchiveName app path && !expected.contains (fileName path) with
  | none => pure ()
  | some path =>
    let name := fileName path
    Except.error s!"unlisted archive in artifacts directory: {name}"

variable [JsonText] [SigningCrates V]

def verifyRelease (run : Invocation) : Command Unit := do
  let app ← appFromArgs run.args
  let manifestPath ← run.args.one "manifest"
  let signaturesPath ← run.args.one "signatures"
  let keysPath ← run.args.one "keys"
  let artifactsDir ← run.args.one "artifacts-dir"
  let manifestName := app.metadataFilename
  let signaturesName := app.signatureFilename
  check (fileName manifestPath = manifestName) s!"manifest must be named {manifestName}"
  check (fileName signaturesPath = signaturesName) s!"signatures must be named {signaturesName}"
  let manifestBytes ← readFile "" manifestPath
  let manifest : ReleaseManifest V ←
    parsed "manifest " manifestPath (ReleaseManifest.fromBytes app manifestBytes)
  validatePublishedAt V manifest.publishedAt
  validateTimestamp V manifest.expiresAt "expires_at"
  let signaturesBytes ← readFile "" signaturesPath
  let _ ← parsed "signatures " signaturesPath (SignatureEnvelope.fromBytes V signaturesBytes)
  let keys ← readKeys V keysPath true
  let _ ← reported (verifyManifestWithKeys V manifestBytes signaturesBytes keys.keys)
  reported (manifest.ensureNotExpired (Crates.readTime V) run.now)
  verifyArtifacts V app manifest artifactsDir

end Relswap.Tool
