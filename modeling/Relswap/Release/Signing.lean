import Relswap.Release.ManifestJson
import Relswap.Release.Signature

/-!
# Signing manifests

The release tool signs the exact manifest bytes and writes envelopes as compact JSON.
-/

namespace Relswap

open Durable

namespace Codecs

open Json Json.Fields

def signatureEntry : Codec SignatureEntry :=
  .record (((required "key_id" .string).and
      ((required "algorithm" .string).and (required "signature" .string))).map
    { toFun := fun fields => ⟨fields.1, fields.2.1, fields.2.2⟩
      invFun := fun entry => (entry.keyId, entry.algorithm, entry.signature)
      left_inv := fun _ => rfl
      right_inv := fun _ => rfl }) (by decide)

def signatureEnvelope : Codec SignatureEnvelope :=
  .record (((required "schema_version" u32).and (required "signatures" (.list signatureEntry))).map
    { toFun := fun fields => ⟨fields.1, fields.2⟩
      invFun := fun envelope => (envelope.schemaVersion, envelope.signatures)
      left_inv := fun _ => rfl
      right_inv := fun _ => rfl }) (by decide)

def trustedKey : Codec TrustedKey :=
  .record (((required "id" .string).and
      ((required "algorithm" .string).and (required "public_key" .string))).map
    { toFun := fun fields => ⟨fields.1, fields.2.1, fields.2.2⟩
      invFun := fun key => (key.id, key.algorithm, key.publicKey)
      left_inv := fun _ => rfl
      right_inv := fun _ => rfl }) (by decide)

def trustedKeySet : Codec TrustedKeySet :=
  .record (((required "schema_version" u32).and (required "keys" (.list trustedKey))).map
    { toFun := fun fields => ⟨fields.1, fields.2⟩
      invFun := fun keySet => (keySet.schemaVersion, keySet.keys)
      left_inv := fun _ => rfl
      right_inv := fun _ => rfl }) (by decide)

theorem signatureEnvelope_inRange {envelope : SignatureEnvelope}
    (schema : envelope.schemaVersion < 2 ^ 32) : signatureEnvelope.InRange envelope :=
  ⟨schema, fun _ _ => ⟨trivial, trivial, trivial⟩⟩

theorem trustedKeySet_inRange {keySet : TrustedKeySet} (schema : keySet.schemaVersion < 2 ^ 32) :
    trustedKeySet.InRange keySet :=
  ⟨schema, fun _ _ => ⟨trivial, trivial, trivial⟩⟩

end Codecs

/-- The secret bytes of an Ed25519 key. -/
abbrev SigningKey := { bytes : Bytes // bytes.length = 32 }

/-- What the release tool uses of third-party code besides. Documents are read by the
JSON crate, base64 is read back, and signatures are valid under the key's public half. -/
class SigningCrates (V : Type) [SemVer V] [Crates V] [JsonText] where
  verifyingKey : SigningKey → Bytes
  sign : SigningKey → Bytes → Bytes
  encodeBase64 : Bytes → String
  /-- Parse an RFC 3339 timestamp and write it in UTC with seconds. -/
  canonicalTime : String → Except String String
  verifyingKey_length : ∀ key, (verifyingKey key).length = 32
  verifyingKey_valid : ∀ key, Crates.validPublicKey V (verifyingKey key) = true
  sign_length : ∀ key message, (sign key message).length = 64
  verify_sign : ∀ key message,
    Crates.verifyStrict V (verifyingKey key) message (sign key message) = true
  decode_encodeBase64 : ∀ bytes, Crates.decodeBase64 V (encodeBase64 bytes) = .ok bytes
  decodeEnvelope_eq : ∀ bytes, Crates.decodeEnvelope V bytes =
    JsonText.parse bytes >>= Codecs.signatureEnvelope.decode

section

variable (V : Type) [SemVer V] [Crates V] [JsonText] [SigningCrates V]

def TrustedKey.ed25519 (id : String) (publicKey : Bytes) : TrustedKey :=
  ⟨id, ed25519Algorithm, SigningCrates.encodeBase64 V publicKey⟩

def SignatureEnvelope.new (signatures : List SignatureEntry) : SignatureEnvelope :=
  ⟨signatureSchemaVersion, signatures⟩

def SignatureEnvelope.toBytes (envelope : SignatureEnvelope) : Except ReleaseError Bytes := do
  check (envelope.schemaVersion = signatureSchemaVersion ∧ envelope.signatures ≠ [])
    (.invalid "invalid release signature envelope")
  return printJson (Codecs.signatureEnvelope.encode envelope)

/-- The entry that one key makes for a manifest. -/
def signatureEntry (manifestBytes : Bytes) (keyId : String) (key : SigningKey) : SignatureEntry :=
  ⟨keyId, ed25519Algorithm,
    SigningCrates.encodeBase64 V (SigningCrates.sign V key manifestBytes)⟩

/-- Sign with each key whose id is not empty and not seen before. -/
def signEntries (manifestBytes : Bytes) (seen : List String) :
    List (String × SigningKey) → List SignatureEntry
  | [] => []
  | (keyId, key) :: rest =>
    if keyId = "" ∨ keyId ∈ seen then signEntries manifestBytes seen rest
    else signatureEntry V manifestBytes keyId key :: signEntries manifestBytes (keyId :: seen) rest

def signManifestMulti (manifestBytes : Bytes) (keys : List (String × SigningKey)) :
    SignatureEnvelope :=
  .new (signEntries V manifestBytes [] keys)

end

end Relswap
