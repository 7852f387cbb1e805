import Relswap.Sample.Signing
import Relswap.Tool.Verify

/-!
# A published release

The releases of the concrete world with all documents read as JSON, and a directory
with the Windows archive of the first release.
-/

namespace Relswap.Sample

open Durable

/-- The releases, with JSON manifests. -/
def Printed : Type := Edition

instance : SemVer Printed := inferInstanceAs (SemVer Edition)

def firstPrinted : Printed := firstRelease

abbrev printedCrates : Crates Printed := inferInstanceAs (Crates Signed)

/-- The two instants that the sample documents name. -/
def readInstant : TimestampReader
  | "1970-01-01T00:00:00Z" => .ok 0
  | "1971-01-01T00:00:00Z" => .ok Tool.manifestLifetime
  | _ => .error "unknown instant"

instance : Crates Printed :=
  { printedCrates with
    readTime := readInstant
    decodeManifest := ManifestJson.decode
    decodeKeySet := fun bytes => JsonText.parse bytes >>= Codecs.trustedKeySet.decode }

theorem printedKey_valid (key : SigningKey) : Crates.validPublicKey Printed key.1 = true := rfl

theorem printedEnvelope (bytes : Bytes) : Crates.decodeEnvelope Printed bytes =
    JsonText.parse bytes >>= Codecs.signatureEnvelope.decode := rfl

instance : SigningCrates Printed where
  verifyingKey key := key.1
  sign key _ := key.1 ++ key.1
  encodeBase64 := encodeBase64
  canonicalTime value := .ok value
  verifyingKey_length := firstHalf_length
  verifyingKey_valid := printedKey_valid
  sign_length := repeated_length
  verify_sign := repeated_verifies
  decode_encodeBase64 := decode_encodeBase64
  decodeEnvelope_eq := printedEnvelope

instance : Tool.PublishingCrates Printed where
  formatTime time := if time = 0 then "1970-01-01T00:00:00Z" else "1971-01-01T00:00:00Z"
  decodeManifest_eq _ := rfl

def zipEntry (name : String) (directory : Bool) (data : Bytes) : Except String Tool.ContainerEntry :=
  .ok ⟨.ok name, directory, !directory, false, false, .ok data⟩

instance : Tool.ContainerCrates where
  tarEntries := fun _ => .error "invalid gzip header"
  zipEntries := fun bytes =>
    if bytes = archiveBytes firstRelease then .ok
      [zipEntry (windowsTarget.rootName (app windowsTarget) firstRelease ++ "/") true [],
        zipEntry (windowsTarget.payloadPath (app windowsTarget) firstRelease) false (payloadBytes firstRelease),
        zipEntry (launcherInfo firstRelease).path false (launcherBytes firstRelease)]
    else .error "invalid Zip archive"

/-! ## Three runs over one directory -/

def options (given : List (String × String)) : Tool.Arguments where
  values name := (given.lookup name).map fun value => [value]
  flags := []
  positionals := []

def generator : Tool.Invocation := ⟨options [("name", "app"), ("launcher-name", "launcher.exe"),
  ("version", "1.0.0"), ("output", "out/app-release.json"), ("artifacts-dir", "out")], none, 0⟩

def signer : Tool.Invocation := ⟨options [("name", "app"), ("launcher-name", "launcher.exe"),
  ("manifest", "out/app-release.json"), ("output", "out/app-release.signatures.json"),
  ("key-id", "a"), ("private-key", "first.key")], none, 0⟩

def verifier : Tool.Invocation := ⟨options [("name", "app"), ("launcher-name", "launcher.exe"),
  ("manifest", "out/app-release.json"), ("signatures", "out/app-release.signatures.json"),
  ("keys", "keys.json"), ("artifacts-dir", "out")], none, 0⟩

def zipPath : String := "out/app-1.0.0-x86_64-pc-windows-msvc.zip"

def signerKeys : TrustedKeySet := ⟨1, [TrustedKey.ed25519 Printed "a" firstKey.1]⟩

/-- The directory before the release, with more entries. -/
def artifacts (more : List (String × Tool.Node)) : Tool.Files := folder ([
  ("out", .directory), (zipPath, .file (archiveBytes firstRelease)),
  ("first.key", .file (encodeUtf8 (encodeBase64 firstKey.1))),
  ("keys.json", .file (printJson (Codecs.trustedKeySet.encode signerKeys)))] ++ more)

def printedManifest : ReleaseManifest Printed :=
  ⟨manifestSchemaVersion, firstPrinted, "1970-01-01T00:00:00Z", "1971-01-01T00:00:00Z", fun other =>
    if other = windowsTarget then some (asset windowsTarget firstRelease) else none⟩

@[irreducible] def printedBytes : Bytes := printJson (Codecs.releaseManifest.encode printedManifest)

/-- What the probe finds in the archive. -/
def zipProbe : Tool.ArtifactProbe :=
  ⟨windowsTarget.asStr, 1, digestOf (archiveBytes firstRelease), ⟨1, digestOf (payloadBytes firstRelease)⟩,
    some ⟨1, digestOf (launcherBytes firstRelease)⟩⟩

end Relswap.Sample
