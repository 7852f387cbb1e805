import Relswap.Release.Archive
import Relswap.Release.ManifestJson
import Relswap.Tool.Arguments

/-!
# Probing archives

Before it publishes an archive the release tool lists the members itself, with the
readers of the container crates, and takes the digests of the payload and the launcher.
-/

namespace Relswap.Tool

open Durable Checked

/-- A member as the tar or the ZIP crate presents it. -/
structure ContainerEntry where
  /-- The name, or why there is none. -/
  member : Except String String
  isDirectory : Bool
  isFile : Bool
  /-- A symlink, or a hard link of a tar container. -/
  isLink : Bool
  executable : Bool
  data : Except String Bytes

/-- The containers as their crates read them. -/
class ContainerCrates where
  tarEntries : Bytes → Except String (List (Except String ContainerEntry))
  zipEntries : Bytes → Except String (List (Except String ContainerEntry))

structure DigestInfo where
  size : Nat
  sha256 : String
  deriving DecidableEq

structure ArchiveContents where
  payload : DigestInfo
  launcher : Option DigestInfo

structure ArtifactProbe where
  target : String
  size : Nat
  sha256 : String
  payload : DigestInfo
  launcher : Option DigestInfo
  deriving DecidableEq

/-- What the listing of a container has found so far. -/
structure Found where
  paths : List String
  rootSeen : Bool
  payload : Option DigestInfo
  launcher : Option DigestInfo

def trimEndSlashes (text : String) : String :=
  String.ofList (text.toList.reverse.dropWhile fun c => c == '/').reverse

def validateMember (member root : String) : Except String Unit := do
  let normalized := trimEndSlashes member
  let parts := splitSlash normalized.toList
  check ('\\' ∉ member.toList ∧ normalized.toList.head? ≠ some '/' ∧
      ¬ ['.', '.', '/'] <+: normalized.toList)
    s!"unsafe archive member {member.quote}"
  check (['.', '.'] ∉ parts ∧ parts.head? ≠ some ['.'])
    s!"unsafe archive member {member.quote}"
  check (normalized = root ∨ (root ++ "/").toList <+: normalized.toList)
    s!"archive member {member.quote} escapes root {root.quote}"

section

variable (V : Type) [SemVer V] [Crates V]

def digestOf (bytes : Bytes) : DigestInfo := ⟨bytes.length, Crates.sha256 V bytes⟩

/-- Note the digest of the payload or of the launcher. -/
def Found.note (found : Found) (member payload launcher : String) (digest : DigestInfo) : Found :=
  if member = payload then { found with payload := some digest }
  else if member = launcher then { found with launcher := some digest }
  else found

def inspectTarEntry (root payload launcher : String) (found : Found) (entry : ContainerEntry) :
    Except String Found := do
  let member ← entry.member
  validateMember member root
  check (member ∉ found.paths) s!"archive contains duplicate member {member}"
  check (entry.isLink = false) s!"archive contains link member {member}"
  let found := { found with
    paths := member :: found.paths
    rootSeen := found.rootSeen || trimEndSlashes member == root }
  if entry.isFile then
    let data ← entry.data
    check (member = payload → entry.executable = true) s!"payload {member} is not executable"
    check (member ≠ payload → member = launcher → entry.executable = true)
      s!"launcher {member} is not executable"
    return found.note member payload launcher (digestOf V data)
  else return found

def inspectZipEntry (root payload launcher : String) (found : Found) (entry : ContainerEntry) :
    Except String Found := do
  let member ← entry.member
  check ('\\' ∉ member.toList) s!"unsafe archive member {member.quote}"
  validateMember member root
  check (member ∉ found.paths) s!"archive contains duplicate member {member}"
  let found := { found with paths := member :: found.paths }
  if entry.isDirectory then
    return { found with rootSeen := found.rootSeen || trimEndSlashes member == root }
  else
    check (member ≠ root) s!"archive root {root} is not a directory"
    check (entry.isLink = false) s!"archive contains symlink member {member}"
    let data ← entry.data
    return found.note member payload launcher (digestOf V data)

/-- List all entries, stopping at the first error. -/
def listEntries (inspect : Found → ContainerEntry → Except String Found) (found : Found) :
    List (Except String ContainerEntry) → Except String Found
  | [] => .ok found
  | next :: rest => do
    let entry ← next
    let found ← inspect found entry
    listEntries inspect found rest

def contentsOf (root payload : String) (found : Found) : Except String ArchiveContents := do
  check (found.rootSeen = true) s!"archive has no root directory {root}"
  let digest ← orError found.payload s!"archive lacks payload {payload}"
  return ⟨digest, found.launcher⟩

variable [ContainerCrates]

def probeTar (bytes : Bytes) (root payload launcher : String) : Except String ArchiveContents := do
  let entries ← ContainerCrates.tarEntries bytes
  let found ← listEntries (inspectTarEntry V root payload launcher) ⟨[], false, none, none⟩ entries
  contentsOf root payload found

def probeZip (bytes : Bytes) (root payload launcher : String) : Except String ArchiveContents := do
  let entries ← ContainerCrates.zipEntries bytes
  let found ← listEntries (inspectZipEntry V root payload launcher) ⟨[], false, none, none⟩ entries
  contentsOf root payload found

def probeContents (windows : Bool) (bytes : Bytes) (root payload launcher : String) :
    Except String ArchiveContents :=
  if windows then probeZip V bytes root payload launcher
  else probeTar V bytes root payload launcher

def endsWith (text ending : String) : Bool := ending.toList.isSuffixOf text.toList

def startsWith (text start : String) : Bool := start.toList.isPrefixOf text.toList

def isArchiveName (app : App) (path : String) : Bool :=
  startsWith (fileName path) app.archivePrefix &&
    (endsWith (fileName path) ".tar.gz" || endsWith (fileName path) ".zip")

def targetIsWindows (target : String) : Bool :=
  match Target.fromStr target with
  | .ok target => target.isWindows
  | .error _ => false

/-- Probe the archive at a path by its name and its contents. -/
def probeArchive (app : App) (path version : String) : Command ArtifactProbe := do
  let name := fileName path
  check (isArchiveName app path = true) s!"non-canonical archive name {name.quote}"
  let suffix := if endsWith name ".zip" then ".zip" else ".tar.gz"
  let target ← orError
    ((stripSuffix name suffix).bind fun stem => stripPrefix stem (app.archivePrefix ++ version ++ "-"))
    s!"archive {name} does not match version {version}"
  let _ ← Target.fromStr target
  let windows := targetIsWindows target
  check (windows = (suffix == ".zip"))
    s!"archive {name} has the wrong format for target {target}"
  let root := (stripSuffix name suffix).getD name
  let bytes ← readFile "" path
  let launcherName ← orError app.launcherName "app does not configure a Windows launcher"
  let payload := root ++ "/" ++ app.payloadName windows
  let launcher := root ++ "/" ++ launcherName
  let contents ← probeContents V windows bytes root payload launcher
  check (windows = true → contents.launcher ≠ none) s!"Windows archive {name} lacks {launcherName}"
  check (windows = false → contents.launcher = none)
    s!"non-Windows archive {name} contains a launcher"
  return ⟨target, bytes.length, Crates.sha256 V bytes, contents.payload, contents.launcher⟩

end

end Relswap.Tool
