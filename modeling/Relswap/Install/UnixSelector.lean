import Relswap.Fs.Executable
import Relswap.Fs.UnixPath
import Relswap.Install.Documents

/-!
# The Unix selector

The managed command of a Unix installation is a symlink to the payload of the
selected version. Its text is joined from the root, the version and the name of
the payload, and read back by its components.
-/

namespace Relswap

open Durable
open Durable.Program (get mark)

/-- The installation as the selector sees it. A path text names one entry. -/
structure UnixSelector where
  app : App
  root : Bytes
  commandPath : EntryPath
  entryAt : Bytes → EntryPath

/-- The metadata of a payload, which must be a file by itself. -/
def FileHost.ensureRegularFile (H : FileHost) (path : EntryPath) : FileProgram Unit := do
  match ← FileHost.symlinkMetadata path with
  | some (.file _ _) => pure ()
  | some _ => .throw (.permissionDenied s!"{H.display path} is not a regular file")
  | none => .throw .notFound

namespace UnixSelector

variable {V : Type} [SemVer V] (I : UnixSelector)

def payloadName : Bytes := encodeUtf8 (I.app.payloadName false)

def versionsDir : Bytes := UnixPath.join I.root (encodeUtf8 "versions")

def versionDir (version : V) : Bytes :=
  UnixPath.join I.versionsDir (encodeUtf8 (SemVer.toText version))

def payloadPath (version : V) : Bytes := UnixPath.join (I.versionDir version) I.payloadName

def parsePointerVersion (pointer : Bytes) : Except (InstallError V) V := do
  let relative ← orError
    (UnixPath.stripPrefix (UnixPath.components pointer) (UnixPath.components I.versionsDir))
    (.invalid "managed command pointer is outside versions directory")
  match relative with
  | .normal version :: .normal payload :: rest => do
    check (rest = [] ∧ payload = I.payloadName)
      (.invalid "managed command pointer has a noncanonical payload")
    let version ← orError (decodeUtf8 version)
      (.invalid "managed command pointer version is not UTF-8")
    parseCanonicalVersion version
  | .normal _ :: _ => .error (.invalid "managed command pointer has no payload")
  | _ => .error (.invalid "managed command pointer has no version")

def readPointerUnlocked (H : FileHost) (s : Folders) : Except (InstallError V) (Option V) :=
  match s.entries I.commandPath with
  | none => .ok none
  | some (.symlink target) => do
    check (UnixPath.isAbsolute target = true)
      (.invalid "managed command symlink must contain an absolute payload path")
    let version ← I.parsePointerVersion target
    check (UnixPath.components target = UnixPath.components (I.payloadPath version))
      (.invalid "managed command symlink points outside the current installation")
    return some version
  | some _ => .error (.io (.invalidData s!"{H.display I.commandPath} is not a symbolic link"))

def switchPointer (H : FileHost) (version : V) : FileProgram Unit := do
  H.ensureRegularFile (I.entryAt (I.payloadPath version))
  H.atomicSwitchSymlink I.commandPath (I.payloadPath version)

end UnixSelector

end Relswap
