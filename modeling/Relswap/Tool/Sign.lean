import Relswap.Install.Launcher
import Relswap.Release.Signing
import Relswap.Tool.Arguments

/-!
# The sign command

Sign the exact bytes of an accepted manifest and write the envelope, new or with the
entries that are already there.
-/

namespace Relswap.Tool

open Durable Checked

def keyIdChar (c : Char) : Bool := c.isAlphanum || c == '-' || c == '_' || c == '.'

def validateKeyId (id : String) : Except String Unit :=
  check (id ≠ "" ∧ (encodeUtf8 id).length ≤ 64 ∧ id.toList.head?.any Char.isAlphanum = true ∧
      ¬ ['.', '.'] <:+: id.toList ∧ id.toList.all keyIdChar = true)
    s!"invalid key id {id.quote}"

/-- Key ids are ordered by their bytes. -/
def KeyIdOrder (left right : SignatureEntry) : Prop := textKey left.keyId ≤ textKey right.keyId

instance : DecidableRel KeyIdOrder := fun _ _ => inferInstanceAs (Decidable (_ ≤ _))

def sortByKeyId (entries : List SignatureEntry) : List SignatureEntry :=
  entries.insertionSort KeyIdOrder

variable (V : Type) [SemVer V] [Crates V] [JsonText] [SigningCrates V]

def validateTimestamp (value field : String) : Except String Unit := do
  let canonical ← (SigningCrates.canonicalTime V value).mapError fun error =>
    s!"invalid {field} timestamp: {error}"
  check (canonical = value)
    s!"{field} must be canonical UTC RFC3339 with second precision: {value}"

def validatePublishedAt (value : String) : Except String Unit :=
  validateTimestamp V value "published_at"

/-- The text of the private key, from its file or else from the environment. -/
def privateKeyText (run : Invocation) : Command String := do
  match ← run.args.optionalOne "private-key" with
  | some path =>
    let bytes ← readFile "private key " path
    orError (decodeUtf8 bytes) "private key is not UTF-8 base64"
  | none =>
    orError run.privateKeyVariable
      "--private-key or RELSWAP_RELEASE_PRIVATE_KEY is required"

def parsePrivateKey (text : String) : Except String SigningKey := do
  let encoded := trim text
  check (encoded ≠ "" ∧ encoded.toList.any whiteSpace = false)
    "private key must be one base64 value"
  let bytes ← (Crates.decodeBase64 V encoded).mapError fun error =>
    s!"decode private key: {error}"
  if size : bytes.length = 32 then return ⟨bytes, size⟩
  else .error "private key must decode to exactly 32 bytes"

def loadPrivateKey (run : Invocation) : Command SigningKey := do
  let text ← privateKeyText run
  parsePrivateKey V text

/-- What a run signs, and where the envelope goes. -/
structure SigningInput where
  output : String
  keyId : String
  manifestBytes : Bytes
  privateKey : SigningKey

/-- Read and check everything but the envelope. -/
def signingInput (run : Invocation) : Command SigningInput := do
  let app ← appFromArgs run.args
  let manifestPath ← run.args.one "manifest"
  let output ← run.args.one "output"
  let keyId ← run.args.one "key-id"
  validateKeyId keyId
  let manifestBytes ← readFile "" manifestPath
  let manifest : ReleaseManifest V ←
    parsed "manifest " manifestPath (ReleaseManifest.fromBytes app manifestBytes)
  validatePublishedAt V manifest.publishedAt
  validateTimestamp V manifest.expiresAt "expires_at"
  let privateKey ← loadPrivateKey V run
  return ⟨output, keyId, manifestBytes, privateKey⟩

/-- The envelope to add to: the one that is there with `--append`, or a new one. -/
def openEnvelope (append : Bool) (output : String) : Command SignatureEnvelope := do
  let files ← get
  if append && files.pathExists output then
    let bytes ← readFile "" output
    parsed "" output (SignatureEnvelope.fromBytes V bytes)
  else return .new []

def signManifest (run : Invocation) : Command Unit := do
  let input ← signingInput V run
  let envelope ← openEnvelope V (run.args.flag "append") input.output
  let keyId := input.keyId
  let newSignature := signManifestMulti V input.manifestBytes [(keyId, input.privateKey)]
  check (envelope.signatures.any (fun record => record.keyId == keyId) = false)
    s!"signature for key {keyId} already exists"
  let signatures := sortByKeyId (envelope.signatures ++ newSignature.signatures)
  let bytes ← ({ envelope with signatures := signatures } : SignatureEnvelope).toBytes.mapError
    releaseErrorText
  writeFile input.output bytes

/-- The sign commands of several runs, one after the other. -/
def signAll : List Invocation → Command Unit
  | [] => return
  | run :: rest => do
    signManifest V run
    signAll rest

end Relswap.Tool
