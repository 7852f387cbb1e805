import Relswap.Release.Manifest

/-!
# Third-party code

Hashing, JSON, base64, timestamps, Ed25519 and the container readers come from
other crates. `Crates` collects what the program uses of them. The document types
they decode are the program's own and stand in front.
-/

namespace Relswap

/-- One signature and its claimed key and algorithm. -/
structure SignatureEntry where
  keyId : String
  algorithm : String
  signature : String
  deriving DecidableEq, Repr

/-- A detached-signature envelope. -/
structure SignatureEnvelope where
  schemaVersion : Nat
  signatures : List SignatureEntry
  deriving DecidableEq, Repr

/-- A trusted release key. -/
structure TrustedKey where
  id : String
  algorithm : String
  publicKey : String
  deriving DecidableEq, Repr

/-- The root shape of a consumer's trust anchor. -/
structure TrustedKeySet where
  schemaVersion : Nat
  keys : List TrustedKey
  deriving DecidableEq, Repr

/-- The result of a successful signature check. -/
structure VerifiedSignature where
  keyId : String
  deriving DecidableEq, Repr

/-- Signed launcher metadata copied into `version.json` on Windows. -/
structure LauncherMetadata where
  path : String
  sha256 : String
  size : Nat
  protocol : Nat
  deriving DecidableEq, Repr

/-- The state recorded beside one immutable payload. -/
structure VersionState (V : Type) where
  schemaVersion : Nat
  version : V
  target : Target
  binarySha256 : String
  size : Nat
  installationId : String
  launcher : Option LauncherMetadata
  deriving DecidableEq

/-- One member of a tar or ZIP container as its reader presents it. -/
inductive ContainerKind where
  | file
  | directory
  | unsupported
  deriving DecidableEq, Repr

structure ContainerMember where
  rawName : Bytes
  kind : ContainerKind
  /-- Set for a ZIP member that is encrypted, compressed by an unknown method,
  or whose mode disagrees with its name, with the message of the refusal. -/
  refusal : Option String
  executable : Bool
  declaredSize : Nat
  data : Bytes

/-- What the program uses of third-party code. -/
class Crates (V : Type) [SemVer V] where
  /-- SHA-256 in lowercase hexadecimal. -/
  sha256 : Bytes → String
  readTime : TimestampReader
  decodeManifest : Bytes → Except String (ReleaseManifest V)
  decodeEnvelope : Bytes → Except String SignatureEnvelope
  decodeKeySet : Bytes → Except String TrustedKeySet
  decodeBase64 : String → Except String Bytes
  /-- Whether 32 bytes are an Ed25519 public key. -/
  validPublicKey : Bytes → Bool
  /-- Strict Ed25519 verification of a 64-byte signature over a message. -/
  verifyStrict : Bytes → Bytes → Bytes → Bool
  decodeVersionState : Bytes → Except String (VersionState V)
  encodeVersionState : VersionState V → Bytes
  readTar : Bytes → List (Except ReleaseError ContainerMember)
  readZip : Bytes → List (Except ReleaseError ContainerMember)
  sha256_lower : ∀ bytes, lowerSha256 (sha256 bytes) = true

end Relswap
