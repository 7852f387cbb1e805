import Relswap.Tool.Files

/-!
# The command line of the release tool

The parsed arguments of a run, and what every command makes of them.
-/

namespace Relswap.Tool

open Durable Checked

/-- The options of a command with their values, and its flags. -/
structure Arguments where
  values : String → Option (List String)
  flags : List String
  positionals : List String

namespace Arguments

def flag (args : Arguments) (name : String) : Bool := args.flags.contains name

def one (args : Arguments) (name : String) : Except String String := do
  let values ← orError (args.values name) s!"--{name} is required"
  match values with
  | [value] => return value
  | _ => .error s!"--{name} must be supplied exactly once"

def optionalOne (args : Arguments) (name : String) : Except String (Option String) :=
  match args.values name with
  | none => .ok none
  | some [value] => .ok (some value)
  | some _ => .error s!"--{name} must be supplied at most once"

def many (args : Arguments) (name : String) : List String := (args.values name).getD []

end Arguments

/-- One run of the tool: its arguments, the private key of its environment, and the time. -/
structure Invocation where
  args : Arguments
  privateKeyVariable : Option String
  now : Int

/-- The trust anchor of an app that trusts nobody. -/
def emptyTrustAnchor : Bytes := encodeUtf8 "\x7b\"schema_version\":1,\"keys\":[]\x7d"

def appFromArgs (args : Arguments) : Except String App := do
  let name ← args.one "name"
  let launcherName ← args.optionalOne "launcher-name"
  return { name := name
           version := "0.0.0"
           repositoryUrl := "https://example.invalid/"
           trustAnchor := emptyTrustAnchor
           activation := .windowsLauncher (launcherName.getD s!"{name}-launcher.exe") 1
           selfTest := none }

/-- The text of a release error. -/
def releaseErrorText : ReleaseError → String
  | .invalid message => message
  | .trustAnchorNotConfigured =>
    "trust anchor not configured: no trusted release signing key"
  | .io _ => "release I/O error"
  | .json message => s!"release JSON error: {message}"
  | .download message => s!"release download error: {message}"
  | .archive message => s!"release archive error: {message}"

/-- Name the file a release error is about. -/
def parsed {α : Type} (what path : String) (result : Except ReleaseError α) : Except String α :=
  result.mapError fun error =>
    let message := releaseErrorText error
    s!"parse {what}{path}: {message}"

end Relswap.Tool
