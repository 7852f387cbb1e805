import Relswap.Release.Signature

/-!
# Archive inspection

The container readers hand over one member at a time; the checks on names,
kinds, sizes and digests are the program's own. Both formats share the loop and
differ in the execute bit, which only the tar reader demands.
-/

namespace Relswap

open Durable

variable {V : Type} [SemVer V] [Crates V]

/-- A member that matched one of the manifest's exact expected paths. -/
structure VerifiedMember where
  path : String
  data : Bytes
  deriving DecidableEq

/-- The expected members of a completely inspected archive. -/
structure ExtractedRelease where
  payload : VerifiedMember
  launcher : Option VerifiedMember
  deriving DecidableEq

/-- The text without a given ending. -/
def stripSuffix (text ending : String) : Option String :=
  let stem := text.toList.take (text.toList.length - ending.toList.length)
  if stem ++ ending.toList = text.toList then some (String.ofList stem) else none

/-- The text without a given beginning. -/
def stripPrefix (text start : String) : Option String :=
  if start.toList.isPrefixOf text.toList then
    some (String.ofList (text.toList.drop start.toList.length))
  else none

variable (V) in
/-- Parse a version, falling back to `0.0.0`. -/
def versionOrZero (text : String) : Except ReleaseError V :=
  match SemVer.parse text with
  | .ok version => .ok version
  | .error _ => (SemVer.parse "0.0.0").mapError .archive

variable (V) in
def canonicalVersionFromArchiveName (app : App) (name : String) (target : Target) :
    Except ReleaseError V :=
  let stem := (stripSuffix name target.archiveSuffix).getD ""
  let version := ((stripPrefix stem app.archivePrefix).bind fun value =>
    stripSuffix value ("-" ++ target.asStr)).getD "0.0.0"
  versionOrZero V version

variable (V) in
/-- Whether the archive name is the canonical one of the target. -/
def archiveNamedFor (app : App) (asset : ReleaseAsset) (target : Target) : Bool :=
  match canonicalVersionFromArchiveName V app asset.archive target with
  | .ok version => asset.archive == target.archiveName app version
  | .error _ => false

variable (V) in
def targetFromAsset (app : App) (asset : ReleaseAsset) : Except ReleaseError Target :=
  orError (Target.all.find? (archiveNamedFor V app asset))
    (.archive "release asset has no supported target")

variable (V) in
def canonicalVersionFromAsset (app : App) (asset : ReleaseAsset) (target : Target) :
    Except ReleaseError V :=
  let root := String.ofList ((splitSlash asset.payload.path.toList).headD [])
  let version := ((stripPrefix root app.archivePrefix).bind fun rest =>
    stripSuffix rest ("-" ++ target.asStr)).getD "0.0.0"
  versionOrZero V version

variable (V) in
def verifyArchiveBytes (app : App) (bytes : Bytes) (asset : ReleaseAsset) :
    Except ReleaseError Unit := do
  let target ← targetFromAsset V app asset
  let version ← canonicalVersionFromAsset V app asset target
  asset.validate app version target
  check (bytes.length ≤ maxArchiveSize)
    (.archive s!"archive exceeds maximum size {maxArchiveSize}")
  verifyBytes V bytes asset.archiveSize asset.archiveSha256 "release archive"

variable (V) in
def validateAssetAgainstManifestShape (app : App) (asset : ReleaseAsset) :
    Except ReleaseError Unit := do
  check (asset.archiveSize ≠ 0 ∧ asset.archiveSize ≤ maxArchiveSize ∧
      asset.payload.size ≠ 0 ∧ asset.payload.size ≤ maxMemberSize)
    (.archive "invalid release asset size")
  check (asset.archiveSha256.utf8ByteSize = 64 ∧ asset.payload.sha256.utf8ByteSize = 64)
    (.archive "invalid release asset hash")
  let target ← targetFromAsset V app asset
  if target.isWindows then
    let launcher ← orError asset.launcher (.archive "Windows asset has no launcher metadata")
    check (some launcher.protocol = app.launcherProtocol ∧ launcher.size ≠ 0 ∧
        launcher.size ≤ maxMemberSize)
      (.archive "invalid Windows launcher metadata")
  else
    check (asset.launcher = none) (.archive "unexpected launcher metadata")

/-- Check a member name and return it without a trailing slash. -/
def validateMemberName (raw : Bytes) (root : String) (index : Nat) :
    Except ReleaseError String := do
  check (raw ≠ [] ∧ raw.length ≤ maxArchiveMemberName ∧ 0 ∉ raw ∧ 92 ∉ raw)
    (.archive s!"malformed archive member name at index {index}")
  let text ← orError (decodeUtf8 raw)
    (.archive s!"non-UTF-8 archive member name at index {index}")
  check (text.toList.head? ≠ some '/') (.archive s!"absolute archive member name: {text}")
  let trimmed := (stripSuffix text "/").getD text
  let parts := splitSlash trimmed.toList
  check (trimmed ≠ "" ∧
      parts.all (fun part => !(part == [] || part == ['.'] || part == ['.', '.'])) = true)
    (.archive s!"malformed archive member name: {text}")
  check (parts.headD [] = root.toList ∧
      parts.all (fun part => part.all fun c => c != ':') = true)
    (.archive s!"archive member is outside canonical root {root}: {text}")
  return trimmed

/-- What the inspection loop has seen so far. -/
structure Inspection where
  index : Nat
  names : List String
  totalUncompressed : Nat
  rootSeen : Bool
  payload : Option VerifiedMember
  launcher : Option VerifiedMember

def Inspection.start : Inspection := ⟨0, [], 0, false, none, none⟩

/-- The size and digest a regular member is expected to have, and whether it is
the payload. Unlisted members are expected by nothing. -/
def expectedMember (asset : ReleaseAsset) (expectedLauncher : Option String) (path : String) :
    Option (Nat × String × Bool) :=
  if path = asset.payload.path then
    some (asset.payload.size, asset.payload.sha256, true)
  else if expectedLauncher = some path then
    asset.launcher.map fun launcher => (launcher.size, launcher.sha256, false)
  else none

variable (V) in
/-- One pass of the inspection loop. -/
def inspectMember (asset : ReleaseAsset) (windows : Bool) (root : String)
    (expectedLauncher : Option String) (seen : Inspection) (member : ContainerMember) :
    Except ReleaseError Inspection := do
  let path ← validateMemberName member.rawName root seen.index
  check (seen.names.contains path = false) (.archive s!"duplicate archive member: {path}")
  match member.refusal with
  | some message => .error (.archive message)
  | none => .ok ()
  check (member.kind ≠ .unsupported)
    (.archive s!"unsupported or unsafe archive entry type for {path}")
  check (member.declaredSize ≤ maxMemberSize)
    (.archive s!"archive member {path} exceeds maximum size {maxMemberSize}")
  let next := { seen with index := seen.index + 1, names := path :: seen.names }
  if member.kind = .directory then
    check (member.declaredSize = 0) (.archive s!"directory member {path} has nonzero size")
    return { next with rootSeen := seen.rootSeen || path == root }
  else
    check (path ≠ root) (.archive "canonical archive root must be a directory")
    let total := seen.totalUncompressed + member.declaredSize
    check (total ≤ maxUncompressedSize)
      (.archive s!"archive contents exceed maximum uncompressed size {maxUncompressedSize}")
    let declared := member.declaredSize
    check (member.data.length = member.declaredSize)
      (.archive s!"member {path} actual size differs from declared size {declared}")
    match expectedMember asset expectedLauncher path with
    | none => return { next with totalUncompressed := total }
    | some (size, hash, isPayload) =>
      check (windows = true ∨ member.executable = true)
        (.archive s!"expected executable member is not executable: {path}")
      verifyBytes V member.data size hash path
      if isPayload then
        return { next with totalUncompressed := total, payload := some ⟨path, member.data⟩ }
      else
        return { next with totalUncompressed := total, launcher := some ⟨path, member.data⟩ }

variable (V) in
/-- Inspect every member in order, stopping at the first error. -/
def inspectMembers (asset : ReleaseAsset) (windows : Bool) (root : String)
    (expectedLauncher : Option String) (seen : Inspection) :
    List (Except ReleaseError ContainerMember) → Except ReleaseError Inspection
  | [] => .ok seen
  | next :: rest => do
    check (seen.index < maxArchiveMembers)
      (.archive s!"archive exceeds maximum member count {maxArchiveMembers}")
    let member ← next
    let seen ← inspectMember V asset windows root expectedLauncher seen member
    inspectMembers asset windows root expectedLauncher seen rest

variable (V) in
def finishMembers (app : App) (payload launcher : Option VerifiedMember)
    (asset : ReleaseAsset) : Except ReleaseError ExtractedRelease := do
  let expected := asset.payload.path
  let payload ← orError payload (.archive s!"archive did not contain exact payload {expected}")
  let target ← targetFromAsset V app asset
  check (¬ (target.isWindows = true ∧ launcher = none))
    (.archive "archive did not contain the exact Windows launcher")
  check (¬ (target.isWindows = false ∧ launcher ≠ none))
    (.archive "non-Windows archive contained an unexpected launcher")
  return ⟨payload, launcher⟩

variable (V) in
/-- Inspect an archive completely and return its expected members. -/
def inspectArchive (app : App) (bytes : Bytes) (asset : ReleaseAsset) :
    Except ReleaseError ExtractedRelease := do
  validateAssetAgainstManifestShape V app asset
  verifyArchiveBytes V app bytes asset
  let target ← targetFromAsset V app asset
  let version ← canonicalVersionFromAsset V app asset target
  let root := target.rootName app version
  let members := if target.isWindows then Crates.readZip V bytes else Crates.readTar V bytes
  let seen ← inspectMembers V asset target.isWindows root (target.launcherPath app version)
    .start members
  check (seen.rootSeen = true) (.archive s!"archive has no canonical root directory {root}")
  finishMembers V app seen.payload seen.launcher asset

end Relswap
