import Relswap.App

/-!
# Release targets and release errors

The fixed matrix of published targets with the canonical names derived from a
target, and the errors of the release layer.
-/

namespace Relswap

/-- Failures of file operations, by the cause the program distinguishes. -/
inductive IoError where
  | notFound
  | notADirectory
  | alreadyExists
  | permissionDenied (message : String)
  | invalidData (message : String)
  | invalidInput (message : String)
  | injected
  deriving DecidableEq, Repr

/-- Errors raised while handling a signed release. -/
inductive ReleaseError where
  | invalid (message : String)
  | trustAnchorNotConfigured
  | io (error : IoError)
  | json (message : String)
  | download (message : String)
  | archive (message : String)
  deriving DecidableEq, Repr

def maxArchiveSize : Nat := 256 * 1024 * 1024
def maxMemberSize : Nat := 256 * 1024 * 1024
def maxUncompressedSize : Nat := 256 * 1024 * 1024
def maxArchiveMembers : Nat := 4096
def maxArchiveMemberName : Nat := 4096
def maxMetadataSize : Nat := 1024 * 1024

/-- Targets for which signed release assets are published. -/
inductive Target where
  | x86_64UnknownLinuxGnu
  | aarch64UnknownLinuxGnu
  | x86_64AppleDarwin
  | aarch64AppleDarwin
  | x86_64PcWindowsMsvc
  deriving DecidableEq, Repr

namespace Target

variable {V : Type} [SemVer V]

/-- The complete release matrix, in the order of the target texts. -/
def all : List Target :=
  [aarch64AppleDarwin, aarch64UnknownLinuxGnu, x86_64AppleDarwin, x86_64PcWindowsMsvc,
    x86_64UnknownLinuxGnu]

theorem mem_all (target : Target) : target ∈ all := by
  cases target <;> simp [all]

def asStr : Target → String
  | x86_64UnknownLinuxGnu => "x86_64-unknown-linux-gnu"
  | aarch64UnknownLinuxGnu => "aarch64-unknown-linux-gnu"
  | x86_64AppleDarwin => "x86_64-apple-darwin"
  | aarch64AppleDarwin => "aarch64-apple-darwin"
  | x86_64PcWindowsMsvc => "x86_64-pc-windows-msvc"

def isWindows : Target → Bool
  | x86_64PcWindowsMsvc => true
  | _ => false

def archiveSuffix (target : Target) : String :=
  if target.isWindows then ".zip" else ".tar.gz"

/-- The launcher protocol this target publishes, when the app configures one. -/
def launcherProtocol (target : Target) (app : App) : Option Nat :=
  if target.isWindows then app.launcherProtocol else none

def payloadName (target : Target) (app : App) : String := app.payloadName target.isWindows

def launcherName (target : Target) (app : App) : Option String :=
  if target.isWindows then app.launcherName else none

def rootName (target : Target) (app : App) (version : V) : String :=
  app.rootName version target.asStr

def archiveName (target : Target) (app : App) (version : V) : String :=
  target.rootName app version ++ target.archiveSuffix

def payloadPath (target : Target) (app : App) (version : V) : String :=
  target.rootName app version ++ "/" ++ target.payloadName app

def launcherPath (target : Target) (app : App) (version : V) : Option String :=
  (target.launcherName app).map fun name => target.rootName app version ++ "/" ++ name

end Target

/-- The bytes of `0` to `9` and of `a` to `f`. -/
def lowerHexDigit (byte : UInt8) : Bool :=
  (decide (48 ≤ byte) && decide (byte ≤ 57)) || (decide (97 ≤ byte) && decide (byte ≤ 102))

/-- Exactly 64 lowercase hexadecimal digits. -/
def lowerSha256 (value : String) : Bool :=
  (encodeUtf8 value).length == 64 && (encodeUtf8 value).all lowerHexDigit

end Relswap
