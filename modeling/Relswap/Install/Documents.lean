import Relswap.Release.Download

/-!
# State documents and the activation journal

The descriptive documents of one installation, their validation, and the errors
and named boundaries of the operations on them.
-/

namespace Relswap

open Durable

variable {V : Type} [SemVer V]

def stateSchemaVersion : Nat := 1
def manifestFile : String := "release.json"
def signatureFile : String := "release.signatures.json"
def versionFile : String := "version.json"
def launcherCreatedMarker : String := ".launcher-created"

/-- A point after which a durable activation boundary has completed. -/
inductive FaultPoint where
  | lockAcquired
  | stagingCreated
  | payloadWritten
  | verified
  | stagingSynced
  | versionRenamed
  | selfTested
  | pendingWritten
  | pointerSwitched
  | installWritten
  | pendingRemoved
  | parentsSynced
  deriving DecidableEq, Repr

/-- Errors raised by local policy or by the signed release layer. -/
inductive InstallError (V : Type) where
  | io (error : IoError)
  | release (error : ReleaseError)
  | json (message : String)
  | invalid (message : String)
  | unmanaged
  | downgrade (current requested : V)
  | fault (point : FaultPoint)
  deriving DecidableEq, Repr

/-- Launcher ownership recorded in `install.json`. -/
structure LauncherOwnership where
  owned : Bool
  path : String
  sha256 : String
  size : Nat
  protocol : Nat
  deriving DecidableEq, Repr

/-- Descriptive installation state. The selector is authoritative, not this. -/
structure InstallState (V : Type) where
  schemaVersion : Nat
  active : Option V
  previous : Option V
  installationId : String
  launcher : Option LauncherOwnership
  deriving DecidableEq

/-- The activation journal. No `fromVersion` marks a first install. -/
structure PendingActivation (V : Type) where
  schemaVersion : Nat
  fromVersion : Option V
  toVersion : V
  transactionId : String
  deriving DecidableEq

/-- Installation ids have the shape of a SHA-256 digest. -/
def validId (value : String) : Bool := lowerSha256 value

/-- A signed launcher member is always `<archive root>/<launcher name>`. -/
def canonicalLauncherPath (app : App) (path : String) : Bool :=
  match app.launcherName, splitSlash path.toList with
  | some launcherName, [root, name] =>
    root != [] && app.archivePrefix.toList.isPrefixOf root && name == launcherName.toList &&
      path.toList.all fun c => !(['\\', '\x00'].contains c)
  | _, _ => false

/-- The four values both launcher validators check. -/
def validateLauncherFields (app : App) (path sha256 : String) (size protocol : Nat) :
    Except (InstallError V) Unit :=
  check (protocol = 1 ∧ size ≠ 0 ∧ lowerSha256 sha256 = true ∧
      canonicalLauncherPath app path = true)
    (.invalid "invalid signed launcher metadata")

def validateLauncherMetadata (app : App) (launcher : LauncherMetadata) :
    Except (InstallError V) Unit :=
  validateLauncherFields app launcher.path launcher.sha256 launcher.size launcher.protocol

def validateSignedLauncher (app : App) (launcher : LauncherInfo) :
    Except (InstallError V) Unit :=
  validateLauncherFields app launcher.path launcher.sha256 launcher.size launcher.protocol

def launcherMetadata (launcher : LauncherInfo) : LauncherMetadata :=
  ⟨launcher.path, launcher.sha256, launcher.size, launcher.protocol⟩

def validateVersionState (app : App) (state : VersionState V) :
    Except (InstallError V) Unit := do
  let schema := state.schemaVersion
  check (state.schemaVersion = stateSchemaVersion)
    (.invalid s!"unsupported version state schema {schema}")
  check (SemVer.toText state.version ≠ "" ∧ validId state.installationId = true ∧
      state.size ≠ 0 ∧ lowerSha256 state.binarySha256 = true)
    (.invalid "invalid version state fields")
  if state.target.isWindows then
    let launcher ← orError state.launcher
      (.invalid "Windows version state lacks launcher metadata")
    validateLauncherMetadata app launcher
  else
    check (state.launcher = none)
      (.invalid "Unix version state contains launcher metadata")

def validateLauncherOwnership (launcher : LauncherOwnership) : Except (InstallError V) Unit :=
  check (launcher.owned = true ∧ launcher.protocol = 1 ∧ launcher.path ≠ "" ∧
      launcher.path.toList.contains '\x00' = false ∧ launcher.size ≠ 0 ∧
      lowerSha256 launcher.sha256 = true)
    (.invalid "invalid launcher ownership state")

def validateInstallState (platform : Platform) (state : InstallState V) :
    Except (InstallError V) Unit := do
  check (state.schemaVersion = stateSchemaVersion ∧ validId state.installationId = true)
    (.invalid "invalid install state schema or installation id")
  check (¬ (state.active = none ∧ state.previous ≠ none))
    (.invalid "install state has previous without active")
  check (¬ (state.active = state.previous ∧ state.active ≠ none))
    (.invalid "install state active and previous are equal")
  match platform with
  | .windows =>
    let launcher ← orError state.launcher
      (.invalid "Windows install state lacks launcher ownership")
    validateLauncherOwnership launcher
  | .unix =>
    check (state.launcher = none)
      (.invalid "Unix install state contains launcher ownership")

def validatePending (pending : PendingActivation V) : Except (InstallError V) Unit := do
  check (pending.schemaVersion = stateSchemaVersion ∧ validId pending.transactionId = true)
    (.invalid "invalid pending activation schema")
  check (pending.fromVersion ≠ some pending.toVersion)
    (.invalid "pending activation from and to are equal")

def parseCanonicalVersion (value : String) : Except (InstallError V) V := do
  let version : V ← (SemVer.parse value).mapError fun error =>
    .invalid s!"invalid managed version: {error}"
  check (SemVer.toText version = value) (.invalid "managed version is not canonical")
  return version

@[simp] theorem parseCanonicalVersion_toText (v : V) :
    (parseCanonicalVersion (SemVer.toText v) : Except (InstallError V) V) = .ok v := by
  simp [parseCanonicalVersion, SemVer.parse_toText, Except.mapError, check_pass]

/-- Canonical parsing undoes printing and accepts nothing else. -/
theorem parseCanonicalVersion_eq_ok {value : String} {v : V} :
    (parseCanonicalVersion value : Except (InstallError V) V) = .ok v ↔
      value = SemVer.toText v := by
  constructor
  · intro parsed
    simp only [parseCanonicalVersion, bind_eq_ok, check_eq_ok] at parsed
    obtain ⟨w, _, _, canonical, same⟩ := parsed
    cases same
    exact canonical.symm
  · intro same
    rw [same, parseCanonicalVersion_toText]

/-! ## Random identifiers -/

/-- The bytes one call of the operating system's generator fills. -/
abbrev RandomBytes := { bytes : List UInt8 // bytes.length = 32 }

def hexDigit (n : Nat) : Char := "0123456789abcdef".toList.getD n '0'

def hexEncode (bytes : List UInt8) : String :=
  String.ofList (bytes.flatMap fun byte =>
    [hexDigit (byte.toNat / 16), hexDigit (byte.toNat % 16)])

def randomId (label : String) (filled : Except String RandomBytes) :
    Except (InstallError V) String :=
  match filled with
  | .ok bytes => .ok (hexEncode bytes.val)
  | .error error => .error (.invalid s!"OS randomness failed while creating {label}: {error}")

theorem hexDigit_lower (n : Nat) :
    ∃ byte, String.utf8EncodeChar (hexDigit n) = [byte] ∧ lowerHexDigit byte = true := by
  by_cases h : n < 16
  · have digits : ∀ k : Fin 16,
        String.utf8EncodeChar (hexDigit k) = [(String.utf8EncodeChar (hexDigit k)).headD 0] ∧
        lowerHexDigit ((String.utf8EncodeChar (hexDigit k)).headD 0) = true := by decide
    exact ⟨_, digits ⟨n, h⟩⟩
  · have outside : hexDigit n = '0' := by
      have short : "0123456789abcdef".toList.length ≤ n := Nat.le_of_not_lt h
      rw [hexDigit, List.getD_eq_getElem?_getD, List.getElem?_eq_none short]
      rfl
    rw [outside]
    exact ⟨48, by decide, by decide⟩

/-- A random id always passes the id check. -/
theorem validId_hexEncode (bytes : RandomBytes) : validId (hexEncode bytes.val) = true := by
  obtain ⟨bytes, filled⟩ := bytes
  have shape : ∀ bytes : List UInt8,
      (encodeUtf8 (hexEncode bytes)).length = 2 * bytes.length ∧
        (encodeUtf8 (hexEncode bytes)).all lowerHexDigit = true := by
    intro bytes
    induction bytes with
    | nil => exact ⟨rfl, rfl⟩
    | cons byte bytes ih =>
      obtain ⟨high, encodedHigh, lowerHigh⟩ := hexDigit_lower (byte.toNat / 16)
      obtain ⟨low, encodedLow, lowerLow⟩ := hexDigit_lower (byte.toNat % 16)
      have here : encodeUtf8 (hexEncode (byte :: bytes)) =
          high :: low :: encodeUtf8 (hexEncode bytes) := by
        simp only [hexEncode, encodeUtf8_ofList, List.flatMap_cons,
          encodedHigh, encodedLow, List.cons_append, List.nil_append]
      rw [here]
      exact ⟨by simp only [List.length_cons, ih.1]; omega, by simp [lowerHigh, lowerLow, ih.2]⟩
  simp only [validId, lowerSha256, Bool.and_eq_true, beq_iff_eq]
  exact ⟨by rw [(shape bytes).1, filled], (shape bytes).2⟩

end Relswap
