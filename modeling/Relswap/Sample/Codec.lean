import Relswap.Crates

/-!
# A concrete record format

`version.json` needs some text before the program can be run on concrete disks. Numbers
are written in base 255 and ended by the byte 255, and strings as runs of equal characters.
-/

namespace Relswap.Sample

def packNat (n : Nat) : Bytes := (Nat.digits 255 n).map UInt8.ofNat ++ [255]

def pack (numbers : List Nat) : Bytes := numbers.flatMap packNat

/-- Read numbers, with the digits of the next one so far in reverse. -/
def unpackFrom (digits : List Nat) : Bytes → List Nat
  | [] => []
  | byte :: rest =>
    if byte = 255 then Nat.ofDigits 255 digits.reverse :: unpackFrom [] rest
    else unpackFrom (byte.toNat :: digits) rest

def unpack (bytes : Bytes) : List Nat := unpackFrom [] bytes

/-! ## Strings -/

/-- Equal neighbours of a list of bytes, counted. -/
def runs : Bytes → List (Nat × UInt8)
  | [] => []
  | c :: cs =>
    match runs cs with
    | [] => [(1, c)]
    | (n, d) :: rest => if c = d then (n + 1, d) :: rest else (1, c) :: (n, d) :: rest

def unruns (runs : List (Nat × UInt8)) : Bytes := runs.flatMap fun (n, c) => List.replicate n c

/-- Decoding bytes, with a short cut for ASCII. -/
def textOf (bytes : Bytes) : Except String String :=
  if bytes.all (· < 128) then .ok (String.ofList (bytes.map fun byte => Char.ofNat byte.toNat))
  else
    match decodeUtf8 bytes with
    | some text => .ok text
    | none => .error "not a text"

def stringNumbers (text : String) : List Nat :=
  (runs (encodeUtf8 text)).length ::
    (runs (encodeUtf8 text)).flatMap fun (n, c) => [n, c.toNat]

def pairs : Nat → List Nat → List (Nat × UInt8)
  | k + 1, n :: c :: rest => (n, UInt8.ofNat c) :: pairs k rest
  | _, _ => []

def takeString : List Nat → Except String (String × List Nat)
  | [] => .error "record ends early"
  | count :: rest => do
    let text ← textOf (unruns (pairs count rest))
    return (text, rest.drop (2 * count))

def takeNat : List Nat → Except String (Nat × List Nat)
  | [] => .error "record ends early"
  | n :: rest => .ok (n, rest)

/-! ## Records -/

/-- Versions are the numbers below four. -/
abbrev Edition := Fin 4

def targetNumber : Target → Nat
  | .x86_64UnknownLinuxGnu => 0
  | .aarch64UnknownLinuxGnu => 1
  | .x86_64AppleDarwin => 2
  | .aarch64AppleDarwin => 3
  | .x86_64PcWindowsMsvc => 4

def targetOf : Nat → Except String Target
  | 0 => .ok .x86_64UnknownLinuxGnu
  | 1 => .ok .aarch64UnknownLinuxGnu
  | 2 => .ok .x86_64AppleDarwin
  | 3 => .ok .aarch64AppleDarwin
  | 4 => .ok .x86_64PcWindowsMsvc
  | _ => .error "unknown target"

def launcherNumbers : Option LauncherMetadata → List Nat
  | none => []
  | some launcher => stringNumbers launcher.path ++ stringNumbers launcher.sha256 ++
      [launcher.size, launcher.protocol]

def recordNumbers (state : VersionState Edition) : List Nat :=
  [state.schemaVersion, state.version.val, targetNumber state.target, state.size] ++
    stringNumbers state.binarySha256 ++ stringNumbers state.installationId ++
    launcherNumbers state.launcher

def encodeRecord (state : VersionState Edition) : Bytes := pack (recordNumbers state)

def takeLauncher (numbers : List Nat) : Except String (Option LauncherMetadata) :=
  if numbers = [] then .ok none
  else do
    let (path, rest) ← takeString numbers
    let (sha256, rest) ← takeString rest
    let (size, rest) ← takeNat rest
    let (protocol, _) ← takeNat rest
    return some ⟨path, sha256, size, protocol⟩

def decodeRecord (bytes : Bytes) : Except String (VersionState Edition) := do
  let (schemaVersion, rest) ← takeNat (unpack bytes)
  let (version, rest) ← takeNat rest
  let (target, rest) ← takeNat rest
  let (size, rest) ← takeNat rest
  let (binarySha256, rest) ← takeString rest
  let (installationId, rest) ← takeString rest
  let launcher ← takeLauncher rest
  let target ← targetOf target
  if h : version < 4 then
    return ⟨schemaVersion, ⟨version, h⟩, target, binarySha256, size, installationId, launcher⟩
  else .error "unknown version"

end Relswap.Sample
