import Relswap.App

/-!
# Unix paths as bytes

Any byte string is a Unix path. Its components are what stands between slashes:
empty pieces and dots fall away, except for a dot at the very beginning. Joining
works on the text, comparison on the components.
-/

namespace Relswap

namespace UnixPath

/-- A component of a Unix path. -/
inductive Part where
  | rootDir
  | curDir
  | parentDir
  | normal (name : Bytes)
  deriving DecidableEq, Repr

def slash : UInt8 := 47
def dot : UInt8 := 46

/-- The component of the text between two slashes. -/
def part (piece : Bytes) : Option Part :=
  if piece = [] ∨ piece = [dot] then none
  else if piece = [dot, dot] then some .parentDir
  else some (.normal piece)

def isAbsolute (path : Bytes) : Bool := path.head? == some slash

def components (path : Bytes) : List Part :=
  let body := (path.splitOn slash).filterMap part
  if isAbsolute path then .rootDir :: body
  else if (path.splitOn slash).head? = some [dot] then .curDir :: body
  else body

/-- Append a name; an absolute one takes the place of the path. -/
def join (path name : Bytes) : Bytes :=
  if isAbsolute name then name
  else if path = [] ∨ path.getLast? = some slash then path ++ name
  else path ++ slash :: name

/-- What is left of the components after a leading sequence of them. -/
def stripPrefix : List Part → List Part → Option (List Part)
  | path, [] => some path
  | a :: path, b :: base => if a = b then stripPrefix path base else none
  | [], _ :: _ => none

theorem stripPrefix_eq_some {path base rest : List Part} :
    stripPrefix path base = some rest ↔ path = base ++ rest := by
  induction base generalizing path with
  | nil => cases path <;> simp [stripPrefix]
  | cons b base ih =>
    cases path with
    | nil => simp [stripPrefix]
    | cons a path =>
      by_cases same : a = b
      · simp [stripPrefix, same, ih]
      · simp [stripPrefix, same]

/-- A name that is one component by itself. -/
structure Plain (name : Bytes) : Prop where
  nonempty : name ≠ []
  noSlash : slash ∉ name
  noDot : name ≠ [dot]
  noDots : name ≠ [dot, dot]

theorem Plain.relative {name : Bytes} (plain : Plain name) : isAbsolute name = false := by
  obtain ⟨first, rest, rfl⟩ := List.exists_cons_of_ne_nil plain.nonempty
  have other : first ≠ slash := by
    intro same
    exact plain.noSlash (same ▸ List.mem_cons_self)
  simpa [isAbsolute] using other

theorem Plain.part {name : Bytes} (plain : Plain name) : part name = some (.normal name) := by
  rw [UnixPath.part, if_neg (by simp [plain.nonempty, plain.noDot]), if_neg plain.noDots]

theorem Plain.splitOn {name : Bytes} (plain : Plain name) : name.splitOn slash = [name] :=
  List.splitOn_eq_singleton plain.noSlash

theorem isAbsolute_append {path : Bytes} (more : Bytes) (nonempty : path ≠ []) :
    isAbsolute (path ++ more) = isAbsolute path := by
  obtain ⟨first, rest, rfl⟩ := List.exists_cons_of_ne_nil nonempty
  rfl

/-- The pieces of a path with a name after a slash. -/
theorem splitOn_slash (path : Bytes) {name : Bytes} (plain : Plain name) :
    (path ++ slash :: name).splitOn slash = path.splitOn slash ++ [name] := by
  rw [List.splitOn_append_cons_self, plain.splitOn]

/-- Joining a plain name adds one component. -/
theorem components_join (path : Bytes) {name : Bytes} (plain : Plain name) :
    components (join path name) = components path ++ [.normal name] := by
  have slashed : ∀ front : Bytes, front ≠ [] →
      components (front ++ slash :: name) = components front ++ [.normal name] := by
    intro front nonempty
    simp only [components, splitOn_slash front plain, isAbsolute_append _ nonempty,
      List.filterMap_append, List.filterMap_cons, plain.part, List.filterMap_nil,
      List.head?_append_of_ne_nil _ (List.splitOn_ne_nil slash front)]
    split
    · rfl
    · split <;> rfl
  rw [join, plain.relative, if_neg Bool.false_ne_true]
  by_cases empty : path = []
  · rw [if_pos (.inl empty), empty, List.nil_append]
    have alone : components name = [.normal name] := by
      simp only [components, plain.relative, plain.splitOn, List.filterMap_cons, plain.part,
        List.filterMap_nil, List.head?_cons, Option.some.injEq, plain.noDot]
      rfl
    rw [alone]
    rfl
  · by_cases ends : path.getLast? = some slash
    · rw [if_pos (.inr ends)]
      obtain ⟨front, rfl⟩ := List.getLast?_eq_some_iff.mp ends
      rw [List.append_assoc, List.singleton_append]
      have trailing : components (front ++ [slash]) =
          if front = [] then [.rootDir] else components front := by
        split
        · rename_i nothing
          rw [nothing]
          rfl
        · rename_i something
          simp only [components, List.splitOn_append_cons_self, List.splitOn_nil,
            isAbsolute_append _ something, List.filterMap_append, List.filterMap_cons,
            List.filterMap_nil, List.head?_append_of_ne_nil _ (List.splitOn_ne_nil slash front)]
          have nothing : part [] = none := rfl
          rw [nothing, List.append_nil]
      rw [trailing]
      split
      · rename_i nothing
        rw [nothing]
        have pieces := splitOn_slash [] plain
        rw [List.nil_append, List.splitOn_nil] at pieces
        simp [components, pieces, isAbsolute, part, plain.nonempty, plain.noDot, plain.noDots]
      · rename_i something
        exact slashed front something
    · rw [if_neg (by tauto)]
      exact slashed path empty

theorem isAbsolute_join {path name : Bytes} (absolute : isAbsolute path = true) :
    isAbsolute (join path name) = true := by
  have nonempty : path ≠ [] := by
    intro empty
    rw [empty] at absolute
    cases absolute
  rw [join]
  split
  · assumption
  · split <;> rw [isAbsolute_append _ nonempty, absolute]

end UnixPath

end Relswap
