import Relswap.Sample.Base64
import Relswap.Sample.JsonText
import Relswap.Sample.World
import Relswap.Tool.Sign

/-!
# Keys that sign

The releases of the concrete world with envelopes read as JSON, base64, and keys whose
signatures repeat the key.
-/

namespace Relswap.Sample

open Durable

/-- The releases, signed. -/
def Signed : Type := Edition

instance : SemVer Signed := inferInstanceAs (SemVer Edition)

def envelopeOf (bytes : Bytes) : Except String SignatureEnvelope :=
  JsonText.parse bytes >>= Codecs.signatureEnvelope.decode

def crates : Crates Signed := inferInstanceAs (Crates Edition)

instance : Crates Signed :=
  { crates with
    decodeEnvelope := envelopeOf
    decodeBase64 := decodeBase64
    verifyStrict := fun key _ signature => signature == key ++ key }

theorem firstHalf_length (key : SigningKey) : key.1.length = 32 := key.2

theorem repeated_length (key : SigningKey) (_ : Bytes) : (key.1 ++ key.1).length = 64 := by
  rw [List.length_append, key.2]

theorem repeated_verifies (key : SigningKey) (_ : Bytes) :
    (key.1 ++ key.1 == key.1 ++ key.1) = true := beq_self_eq_true _

instance : SigningCrates Signed where
  verifyingKey key := key.1
  sign key _ := key.1 ++ key.1
  encodeBase64 := encodeBase64
  canonicalTime value := .ok value
  verifyingKey_length := firstHalf_length
  verifyingKey_valid _ := rfl
  sign_length := repeated_length
  verify_sign := repeated_verifies
  decode_encodeBase64 := decode_encodeBase64
  decodeEnvelope_eq _ := rfl

/-! ## Two signers -/

def firstKey : SigningKey := ⟨List.replicate 32 1, rfl⟩
def secondKey : SigningKey := ⟨List.replicate 32 2, rfl⟩

/-- The options of a signer who appends. -/
def signerArguments (keyId keyPath : String) : Tool.Arguments where
  values
    | "name" => some ["app"]
    | "launcher-name" => some ["launcher.exe"]
    | "manifest" => some ["app-release.json"]
    | "output" => some ["app-release.signatures.json"]
    | "key-id" => some [keyId]
    | "private-key" => some [keyPath]
    | _ => none
  flags := ["append"]
  positionals := []

def firstSigner : Tool.Invocation := ⟨signerArguments "b" "first.key", none, 0⟩
def secondSigner : Tool.Invocation := ⟨signerArguments "a" "second.key", none, 0⟩

/-- A directory with a manifest and the private keys of both signers. -/
def signingFiles : Tool.Files := folder [
  ("app-release.json", .file (manifestBytes windowsTarget firstRelease)),
  ("first.key", .file (encodeUtf8 (encodeBase64 firstKey.1))),
  ("second.key", .file (encodeUtf8 (encodeBase64 secondKey.1)))]

def signerInput (keyId : String) (key : SigningKey) : Tool.SigningInput :=
  ⟨"app-release.signatures.json", keyId, manifestBytes windowsTarget firstRelease, key⟩

end Relswap.Sample
