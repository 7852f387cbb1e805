import Relswap.Crates

/-!
# Detached Ed25519 signatures over the exact manifest bytes

Verification reads the bytes as received, never a parsed or reserialized value.
-/

namespace Relswap

open Durable

def signatureSchemaVersion : Nat := 1
def ed25519Algorithm : String := "ed25519"

section

variable {V : Type} [SemVer V] [Crates V]

/-- Parse and validate a manifest document. -/
def ReleaseManifest.fromBytes (app : App) (bytes : Bytes) :
    Except ReleaseError (ReleaseManifest V) := do
  check (bytes.length ≤ maxMetadataSize)
    (.invalid s!"release manifest exceeds {maxMetadataSize} bytes")
  let manifest ← (Crates.decodeManifest bytes).mapError .json
  manifest.validate (Crates.readTime V) app
  return manifest

/-- Entries need unique nonempty key ids and a nonempty algorithm. -/
def validEntries (seen : List String) : List SignatureEntry → Bool
  | [] => true
  | entry :: rest =>
    entry.keyId ≠ "" && entry.algorithm ≠ "" && !seen.contains entry.keyId &&
      validEntries (entry.keyId :: seen) rest

variable (V) in
def SignatureEnvelope.fromBytes (bytes : Bytes) : Except ReleaseError SignatureEnvelope := do
  check (bytes.length ≤ maxMetadataSize)
    (.invalid s!"release signature envelope exceeds {maxMetadataSize} bytes")
  let envelope ← (Crates.decodeEnvelope V bytes).mapError .json
  let schema := envelope.schemaVersion
  check (envelope.schemaVersion = signatureSchemaVersion)
    (.invalid s!"unsupported release signature schema_version {schema}")
  check (envelope.signatures ≠ [])
    (.invalid "release signature envelope contains no signatures")
  check (validEntries [] envelope.signatures = true)
    (.invalid "signature entries must have unique nonempty key ids and values")
  return envelope

variable (V) in
def decodePublicKey (key : TrustedKey) : Except ReleaseError Bytes := do
  let id := key.id
  let bytes ← (Crates.decodeBase64 V key.publicKey).mapError fun error =>
    .invalid s!"invalid trusted key {id}: {error}"
  check (bytes.length = 32) (.invalid s!"trusted Ed25519 key {id} is not 32 bytes")
  check (Crates.validPublicKey V bytes = true) (.invalid s!"invalid trusted Ed25519 key {id}")
  return bytes

variable (V) in
/-- Validate the keys of a key set one by one. -/
def validateKeys (seen : List String) : List TrustedKey → Except ReleaseError Unit
  | [] => .ok ()
  | key :: rest => do
    check (key.id ≠ "" ∧ seen.contains key.id = false)
      (.invalid "trusted release key ids must be nonempty and unique")
    if key.algorithm = ed25519Algorithm then
      let _ ← decodePublicKey V key
      validateKeys (key.id :: seen) rest
    else
      validateKeys (key.id :: seen) rest

variable (V) in
def TrustedKeySet.fromBytes (bytes : Bytes) : Except ReleaseError TrustedKeySet := do
  let keySet ← (Crates.decodeKeySet V bytes).mapError .json
  let schema := keySet.schemaVersion
  check (keySet.schemaVersion = signatureSchemaVersion)
    (.invalid s!"unsupported trusted-key schema_version {schema}")
  validateKeys V [] keySet.keys
  return keySet

variable (V) in
/-- The key id of an entry that validates the manifest under the trusted keys. -/
def entryVerifies (manifestBytes : Bytes) (trustedKeys : List TrustedKey)
    (entry : SignatureEntry) : Bool :=
  if entry.algorithm ≠ ed25519Algorithm then false
  else
    match trustedKeys.find? fun key =>
        key.id == entry.keyId && key.algorithm == ed25519Algorithm with
    | none => false
    | some key =>
      match decodePublicKey V key, Crates.decodeBase64 V entry.signature with
      | .ok publicKey, .ok signature =>
        signature.length == 64 && Crates.verifyStrict V publicKey manifestBytes signature
      | _, _ => false

variable (V) in
/-- Verify using explicitly supplied trusted keys. -/
def verifyManifestWithKeys (manifestBytes signatureBytes : Bytes)
    (trustedKeys : List TrustedKey) : Except ReleaseError VerifiedSignature := do
  check (trustedKeys.any (fun key => key.algorithm == ed25519Algorithm) = true)
    .trustAnchorNotConfigured
  let envelope ← SignatureEnvelope.fromBytes V signatureBytes
  match envelope.signatures.find? (entryVerifies V manifestBytes trustedKeys) with
  | some entry => return ⟨entry.keyId⟩
  | none => .error (.invalid "no trusted Ed25519 signature validates the release manifest")

variable (V) in
/-- Verify using the consumer's trust anchor. -/
def verifyManifest (app : App) (manifestBytes signatureBytes : Bytes) :
    Except ReleaseError VerifiedSignature := do
  let keys ← TrustedKeySet.fromBytes V app.trustAnchor
  verifyManifestWithKeys V manifestBytes signatureBytes keys.keys

variable (V) in
/-- Compare bytes with the size and digest a manifest lists for them. -/
def verifyBytes (bytes : Bytes) (expectedSize : Nat) (expectedSha256 label : String) :
    Except ReleaseError Unit := do
  let got := bytes.length
  check (bytes.length = expectedSize)
    (.invalid s!"{label} size mismatch: expected {expectedSize}, got {got}")
  let actual := Crates.sha256 V bytes
  check (actual = expectedSha256)
    (.invalid s!"{label} SHA-256 mismatch: expected {expectedSha256}, got {actual}")

end

end Relswap
