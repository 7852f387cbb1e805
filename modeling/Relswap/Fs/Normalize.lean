import Relswap.Fs.Path

/-!
# Lexical normalization

A path is normalized by pushing its components onto an empty path, leaving out
dots and popping at `..`. On Windows a pushed name is read as a path of its own:
one that starts with a drive takes the place of what was pushed before. Names hold
no separators.
-/

namespace Relswap

namespace FsPath

/-- The drive at the beginning of a name such as `C:x`, and what follows it. -/
def splitDrive (name : String) : Option (String × String) :=
  match name.toList with
  | letter :: ':' :: rest =>
    if letter.isAlpha then some (String.ofList [letter, ':'], String.ofList rest) else none
  | _ => none

/-- The components of a name that is read as a path. -/
def readName (platform : Platform) (name : String) : FsPath :=
  match platform, splitDrive name with
  | .windows, some (drive, rest) =>
    .volume drive ::
      (if rest = "" ∨ rest = "." then []
      else if rest = ".." then [.parentDir]
      else [.normal rest])
  | _, _ => [.normal name]

def push (platform : Platform) (path : FsPath) : Component → FsPath
  | .volume text => [.volume text]
  | .rootDir =>
    match path with
    | .volume text :: _ => [.volume text, .rootDir]
    | _ => [.rootDir]
  | .normal name =>
    match readName platform name with
    | .volume drive :: rest => .volume drive :: rest
    | parsed => path ++ parsed
  | other => path ++ [other]

def pop (path : FsPath) : FsPath := (parent path).getD path

def normalizeStep (platform : Platform) (normalized : FsPath) : Component → FsPath
  | .curDir => normalized
  | .parentDir => pop normalized
  | other => push platform normalized other

/-- Remove `.` and resolve `..` without looking at the file system. -/
def lexicalNormalize (platform : Platform) (path : FsPath) : FsPath :=
  path.foldl (normalizeStep platform) []

/-- A path taken relative to a directory. On Windows a path with a root but no
volume keeps the volume of the directory. -/
def joinPath (directory : FsPath) (path : FsPath) : FsPath :=
  match path, directory with
  | .volume _ :: _, _ => path
  | .rootDir :: _, .volume text :: _ => .volume text :: path
  | .rootDir :: _, _ => path
  | _, _ => directory ++ path

/-- The current directory may be unknown. -/
def absolutePath (platform : Platform) (currentDir : Option FsPath) (path : FsPath) : FsPath :=
  lexicalNormalize platform
    (if path.isAbsolute platform then path
    else match currentDir with
      | some directory => joinPath directory path
      | none => path)

/-! ## Names that are read back as something else -/

/-- A component that is pushed as it is. -/
def settled (platform : Platform) : Component → Bool
  | .normal name => readName platform name == [.normal name]
  | _ => false

/-- Read a path from its end. Each `..` cancels one name before it. Whether the last
name with a drive is not cancelled and has `..` or a further drive behind its drive. -/
def driveRemains (platform : Platform) (cancelled : Nat) : List Component → Bool
  | [] | .volume _ :: _ | .rootDir :: _ => false
  | .curDir :: path => driveRemains platform cancelled path
  | .parentDir :: path => driveRemains platform (cancelled + 1) path
  | .normal name :: path =>
    match readName platform name with
    | .volume _ :: rest => cancelled == 0 && !rest.all (settled platform)
    | _ => driveRemains platform (cancelled - 1) path

variable {platform : Platform} {name : String} {path : FsPath}

theorem lexicalNormalize_concat (path : FsPath) (c : Component) :
    lexicalNormalize platform (path ++ [c]) =
      normalizeStep platform (lexicalNormalize platform path) c := by
  rw [lexicalNormalize, List.foldl_append]
  rfl

/-- A name is read as itself, or as a drive with at most one component behind it. -/
theorem readName_cases (platform : Platform) (name : String) :
    readName platform name = [.normal name] ∨
      ∃ drive rest, readName platform name = .volume drive :: rest ∧
        (rest = [] ∨ rest = [.parentDir] ∨ ∃ behind, rest = [.normal behind] ∧
          behind.toList.length < name.toList.length) := by
  cases platform with
  | unix => exact .inl rfl
  | windows =>
    cases drives : splitDrive name with
    | none =>
      left
      simp only [readName, drives]
    | some split =>
      obtain ⟨drive, rest⟩ := split
      have read : readName .windows name = .volume drive ::
          (if rest = "" ∨ rest = "." then []
          else if rest = ".." then [.parentDir]
          else [.normal rest]) := by
        simp only [readName, drives]
      right
      refine ⟨drive, _, read, ?_⟩
      have shorter : rest.toList.length < name.toList.length := by
        unfold splitDrive at drives
        split at drives
        · rename_i letter behind chars
          split at drives
          · cases drives
            rw [chars, String.toList_ofList, List.length_cons, List.length_cons]
            omega
          · cases drives
        · cases drives
      by_cases nothing : rest = "" ∨ rest = "."
      · exact .inl (if_pos nothing)
      · rw [if_neg nothing]
        by_cases dots : rest = ".."
        · exact .inr (.inl (if_pos dots))
        · exact .inr (.inr ⟨rest, if_neg dots, shorter⟩)

theorem push_settled (path : FsPath) (plain : readName platform name = [.normal name]) :
    push platform path (.normal name) = path ++ [.normal name] := by
  rw [push, plain]

theorem push_drive {drive : String} {rest : FsPath} (path : FsPath)
    (read : readName platform name = .volume drive :: rest) :
    push platform path (.normal name) = .volume drive :: rest := by
  rw [push, read]

@[simp] theorem pop_concat_normal (path : FsPath) (name : String) :
    pop (path ++ [.normal name]) = path := by
  simp [pop, parent]

/-- On Unix every name is read as itself. -/
@[simp] theorem driveRemains_unix (cancelled : Nat) (path : List Component) :
    driveRemains .unix cancelled path = false := by
  induction path generalizing cancelled with
  | nil => rfl
  | cons c path ih =>
    cases c with
    | volume | rootDir => rfl
    | curDir => exact ih cancelled
    | parentDir => exact ih (cancelled + 1)
    | normal name => exact ih (cancelled - 1)

end FsPath

end Relswap
