import Relswap.Semver

/-!
# Product identity

The consumer of the engine supplies an `App`: names, the trust anchor, how the
stable command path is activated, and an optional probe of a staged payload.
The build itself is either a Unix or a Windows build.
-/

namespace Relswap

abbrev Bytes := List UInt8

def encodeUtf8 (text : String) : Bytes := text.toByteArray.data.toList

def decodeUtf8 (bytes : Bytes) : Option String := String.fromUTF8? ⟨bytes.toArray⟩

@[simp] theorem decodeUtf8_encodeUtf8 (text : String) :
    decodeUtf8 (encodeUtf8 text) = some text := by
  have whole : (⟨(encodeUtf8 text).toArray⟩ : ByteArray) = text.toByteArray := by
    simp [encodeUtf8]
  rw [decodeUtf8, whole, String.fromUTF8?, dif_pos text.isValidUTF8]
  rfl

theorem encodeUtf8_of_decodeUtf8 {bytes : Bytes} {text : String}
    (decoded : decodeUtf8 bytes = some text) : bytes = encodeUtf8 text := by
  unfold decodeUtf8 String.fromUTF8? at decoded
  split at decoded
  · rw [← Option.some.inj decoded]
    simp [encodeUtf8, String.fromUTF8]
  · cases decoded

theorem encodeUtf8_length (text : String) : (encodeUtf8 text).length = text.utf8ByteSize := by
  simp only [encodeUtf8, Array.length_toList]
  rfl

theorem encodeUtf8_ofList (cs : List Char) :
    encodeUtf8 (String.ofList cs) = cs.flatMap String.utf8EncodeChar := by
  simp [encodeUtf8, List.utf8Encode]

/-- ASCII characters are encoded as themselves. -/
theorem utf8EncodeChar_ofNat {n : Nat} (ascii : n < 128) :
    String.utf8EncodeChar (Char.ofNat n) = [UInt8.ofNat n] := by
  have all : ∀ k : Fin 128, String.utf8EncodeChar (Char.ofNat k) = [UInt8.ofNat k] := by decide
  exact all ⟨n, ascii⟩

theorem encodeUtf8_injective {a b : String} (same : encodeUtf8 a = encodeUtf8 b) : a = b := by
  have decoded := congrArg decodeUtf8 same
  rw [decodeUtf8_encodeUtf8, decodeUtf8_encodeUtf8] at decoded
  exact Option.some.inj decoded

/-- An ASCII byte only occurs in the encoding of its own character. -/
theorem toNat_of_byte {c : Char} {byte : UInt8} (mem : byte ∈ String.utf8EncodeChar c)
    (ascii : byte.toNat < 128) : c.toNat = byte.toNat := by
  unfold String.utf8EncodeChar at mem
  dsimp only at mem
  split at mem
  · rename_i short
    rw [List.mem_singleton.mp mem, UInt8.toNat_ofNat']
    change c.val.toNat = _
    omega
  · -- every other byte has its highest bit set
    exfalso
    split at mem
    · simp only [List.mem_cons, List.not_mem_nil, or_false] at mem
      rcases mem with rfl | rfl <;> rw [UInt8.toNat_ofNat'] at ascii <;> omega
    · split at mem
      · simp only [List.mem_cons, List.not_mem_nil, or_false] at mem
        rcases mem with rfl | rfl | rfl <;> rw [UInt8.toNat_ofNat'] at ascii <;> omega
      · simp only [List.mem_cons, List.not_mem_nil, or_false] at mem
        rcases mem with rfl | rfl | rfl | rfl <;> rw [UInt8.toNat_ofNat'] at ascii <;> omega

theorem char_of_byte {text : String} {byte : UInt8} (mem : byte ∈ encodeUtf8 text)
    (ascii : byte.toNat < 128) : ∃ c ∈ text.toList, c.toNat = byte.toNat := by
  rw [← String.ofList_toList (s := text), encodeUtf8_ofList] at mem
  obtain ⟨c, hc, here⟩ := List.mem_flatMap.mp mem
  exact ⟨c, hc, toNat_of_byte here ascii⟩

theorem mem_of_byte {text : String} {c : Char} (ascii : c.toNat < 128)
    (mem : UInt8.ofNat c.toNat ∈ encodeUtf8 text) : c ∈ text.toList := by
  have code : (UInt8.ofNat c.toNat).toNat = c.toNat := by
    rw [UInt8.toNat_ofNat']
    omega
  obtain ⟨d, hd, same⟩ := char_of_byte mem (by omega)
  have equal : d = c := Char.toNat_inj.mp (same.trans code)
  exact equal ▸ hd

/-- The two builds of the program. -/
inductive Platform where
  | unix
  | windows
  deriving DecidableEq, Repr

/-- How a managed installation exposes a stable command path. -/
inductive ActivationStrategy where
  | unixSymlink
  | windowsLauncher (launcherName : String) (protocol : Nat)
  deriving DecidableEq, Repr

/-- The probe of a staged payload before activation. The timeout is real time
and is not modelled; the outcome of the probe is an input of each operation. -/
structure SelfTest where
  args : List String
  deriving DecidableEq, Repr

/-- Consumer-supplied product and trust configuration. -/
structure App where
  name : String
  version : String
  repositoryUrl : String
  trustAnchor : Bytes
  activation : ActivationStrategy
  selfTest : Option SelfTest

namespace App

variable {V : Type} [SemVer V]

def payloadName (app : App) (windows : Bool) : String :=
  if windows then app.name ++ ".exe" else app.name

def launcherName (app : App) : Option String :=
  match app.activation with
  | .unixSymlink => none
  | .windowsLauncher launcherName _ => some launcherName

def launcherProtocol (app : App) : Option Nat :=
  match app.activation with
  | .unixSymlink => none
  | .windowsLauncher _ protocol => some protocol

def metadataFilename (app : App) : String := app.name ++ "-release.json"

def signatureFilename (app : App) : String := app.name ++ "-release.signatures.json"

def rootName (app : App) (version : V) (triple : String) : String :=
  app.name ++ "-" ++ SemVer.toText version ++ "-" ++ triple

def archivePrefix (app : App) : String := app.name ++ "-"

end App

end Relswap
