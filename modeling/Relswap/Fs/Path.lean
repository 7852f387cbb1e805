import Relswap.App

/-!
# Paths

A path is the sequence of its components, which is how the program compares,
strips and normalizes paths. Names are compared exactly; the case folding of
Windows path comparison is a parameter of the comparison.
-/

namespace Relswap

/-- The components a path decomposes into. -/
inductive Component where
  | volume (text : String)
  | rootDir
  | curDir
  | parentDir
  | normal (name : String)
  deriving DecidableEq, Repr

abbrev FsPath := List Component

namespace FsPath

/-- Append one plain name. -/
def join (path : FsPath) (name : String) : FsPath := path ++ [.normal name]

/-- A Unix path is absolute when it starts at the root; a Windows path also
needs a volume prefix in front of it. -/
def isAbsolute (platform : Platform) : FsPath → Bool
  | .rootDir :: _ => platform == .unix
  | .volume _ :: .rootDir :: _ => platform == .windows
  | _ => false

/-- The path without its last component. The root itself has no parent. -/
def parent (path : FsPath) : Option FsPath :=
  match path.getLast? with
  | some (.normal _) | some .curDir | some .parentDir => some path.dropLast
  | _ => none

/-- The last component, when it is a plain name. -/
def fileName (path : FsPath) : Option String :=
  match path.getLast? with
  | some (.normal name) => some name
  | _ => none

/-- Component equality: exact on Unix, up to case folding on Windows. -/
def sameComponent (fold : String → String) (platform : Platform) (a b : Component) : Bool :=
  match platform, a, b with
  | .windows, .normal x, .normal y => fold x == fold y
  | .windows, .volume x, .volume y => fold x == fold y
  | _, a, b => a == b

def samePath (fold : String → String) (platform : Platform) (left right : FsPath) : Bool :=
  match left, right with
  | [], [] => true
  | a :: left, b :: right =>
    sameComponent fold platform a b && samePath fold platform left right
  | _, _ => false

def pathStartsWith (fold : String → String) (platform : Platform) (path base : FsPath) : Bool :=
  match base, path with
  | [], _ => true
  | b :: base, a :: path =>
    sameComponent fold platform a b && pathStartsWith fold platform path base
  | _ :: _, [] => false

/-- Remove an exact leading sequence of components. -/
def stripPrefix : FsPath → FsPath → Option FsPath
  | path, [] => some path
  | a :: path, b :: base => if a = b then stripPrefix path base else none
  | [], _ :: _ => none

/-- The text of a path in messages. -/
def display (platform : Platform) (path : FsPath) : String :=
  let separator := if platform = .windows then "\\" else "/"
  let text : Component → String
    | .volume text => text
    | .rootDir => ""
    | .curDir => "."
    | .parentDir => ".."
    | .normal name => name
  separator.intercalate (path.map text)

@[simp] theorem stripPrefix_append (base rest : FsPath) :
    stripPrefix (base ++ rest) base = some rest := by
  induction base with
  | nil => cases rest <;> rfl
  | cons b base ih => simpa [stripPrefix] using ih

@[simp] theorem samePath_unix (fold : String → String) (left right : FsPath) :
    samePath fold .unix left right = true ↔ left = right := by
  induction left generalizing right with
  | nil => cases right <;> simp [samePath]
  | cons a left ih =>
    cases right with
    | nil => simp [samePath]
    | cons b right => simp [samePath, sameComponent, ih]

end FsPath

/-- Names that may be used as one path component on the given platform. -/
def isSafeBasename (value : String) (windowsSemantics : Bool) : Bool :=
  let chars := value.toList
  if chars.isEmpty || value == "." || value == ".."
      || chars.any (fun c => ['/', '\\', '\x00', ':'].contains c) then false
  else if !windowsSemantics then true
  else if [' ', '.'].contains (chars.getLastD 'a')
      || chars.any (fun c => c.val < 32)
      || chars.any (fun c => ['"', '<', '>', '|', '?', '*'].contains c) then false
  else
    let stem := (String.ofList (chars.takeWhile (fun c => c != '.'))).toUpper
    !(["CON", "PRN", "AUX", "NUL", "COM1", "COM2", "COM3", "COM4", "COM5", "COM6", "COM7",
      "COM8", "COM9", "COM¹", "COM²", "COM³", "LPT1", "LPT2", "LPT3", "LPT4", "LPT5", "LPT6",
      "LPT7", "LPT8", "LPT9", "LPT¹", "LPT²", "LPT³", "CONIN$", "CONOUT$"].contains stem)

end Relswap
