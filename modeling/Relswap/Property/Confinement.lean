import Relswap.Fs.Normalize
import Relswap.Sample.World

/-!
# The command path stays away from internal paths

A command path that configuration accepts is no ancestor of the root and lies in
nothing the installation keeps there. Normalized paths have no dots and stay as
they are, unless the name of a drive remains in them on Windows.
-/

namespace Relswap

open Durable

namespace FsPath

variable {fold : String → String} {platform : Platform} {path base rest command : FsPath}
  {name : String}

/-! ## Paths inside each other -/

theorem sameComponent_comm (a b : Component) :
    sameComponent fold platform a b = sameComponent fold platform b a := by
  cases platform <;> cases a <;> cases b <;> simp only [sameComponent, Bool.beq_comm]

theorem pathStartsWith_of_append (inside : pathStartsWith fold platform path (base ++ rest) = true) :
    pathStartsWith fold platform path base = true := by
  induction base generalizing path with
  | nil => cases path <;> rfl
  | cons b base ih =>
    cases path with
    | nil => cases inside
    | cons a path =>
      simp only [List.cons_append, pathStartsWith, Bool.and_eq_true] at inside ⊢
      exact ⟨inside.1, ih inside.2⟩

/-- A path around something in the base lies around the base, or inside it. -/
theorem pathStartsWith_or (around : pathStartsWith fold platform (base ++ rest) command = true) :
    pathStartsWith fold platform base command = true ∨
      pathStartsWith fold platform command base = true := by
  induction base generalizing command with
  | nil => exact .inr (by cases command <;> rfl)
  | cons b base ih =>
    cases command with
    | nil => exact .inl rfl
    | cons c command =>
      simp only [List.cons_append, pathStartsWith, Bool.and_eq_true] at around ⊢
      rw [sameComponent_comm c b]
      exact (ih around.2).imp (fun h => ⟨around.1, h⟩) fun h => ⟨around.1, h⟩

theorem pathStartsWith_of_samePath (same : samePath fold platform path base = true) :
    pathStartsWith fold platform path base = true := by
  induction base generalizing path with
  | nil => cases path <;> rfl
  | cons b base ih =>
    cases path with
    | nil => cases same
    | cons a path =>
      simp only [samePath, pathStartsWith, Bool.and_eq_true] at same ⊢
      exact ⟨same.1, ih same.2⟩

theorem pathStartsWith_concat {c : Component}
    (around : pathStartsWith fold platform (base ++ [c]) command = true) :
    pathStartsWith fold platform base command = true ∨
      pathStartsWith fold platform command (base ++ [c]) = true := by
  induction base generalizing command with
  | nil =>
    match command with
    | [] => exact .inl rfl
    | [d] =>
      simp only [List.nil_append, pathStartsWith, Bool.and_true] at around ⊢
      rw [sameComponent_comm d c]
      exact .inr around
    | d :: e :: command => simp [pathStartsWith] at around
  | cons b base ih =>
    cases command with
    | nil => exact .inl rfl
    | cons d command =>
      simp only [List.cons_append, pathStartsWith, Bool.and_eq_true] at around ⊢
      rw [sameComponent_comm d b]
      exact (ih around.2).imp (fun h => ⟨around.1, h⟩) fun h => ⟨around.1, h⟩

/-- A path that is no ancestor of the root and not inside one of its entries is
apart from everything inside that entry. -/
theorem apart {root : FsPath} {c : Component}
    (outside : pathStartsWith fold platform root command = false)
    (unreserved : pathStartsWith fold platform command (root ++ [c]) = false) (rest : FsPath) :
    pathStartsWith fold platform ((root ++ [c]) ++ rest) command = false ∧
      pathStartsWith fold platform command ((root ++ [c]) ++ rest) = false := by
  rw [← Bool.not_eq_true] at outside unreserved
  constructor <;> rw [← Bool.not_eq_true]
  · intro around
    rcases pathStartsWith_or around with around | inside
    · rcases pathStartsWith_concat around with around | inside
      · exact outside around
      · exact unreserved inside
    · exact unreserved inside
  · intro inside
    exact unreserved (pathStartsWith_of_append inside)

/-! ## Normalized paths -/

/-- How a path may begin. -/
inductive Front : FsPath → Prop where
  | empty : Front []
  | root : Front [.rootDir]
  | volume (text : String) : Front [.volume text]
  | rooted (text : String) : Front [.volume text, .rootDir]

/-- What normalization arrives at. A residue stands right behind a drive. -/
inductive Shape (platform : Platform) : Bool → FsPath → Prop where
  | clean {front body : FsPath} (start : Front front)
      (plain : ∀ c ∈ body, settled platform c = true) : Shape platform false (front ++ body)
  | spoiled {drive : String} {residue : Component} {body : FsPath}
      (name : residue = .parentDir ∨ ∃ behind, residue = .normal behind)
      (unsettled : settled platform residue = false)
      (plain : ∀ c ∈ body, settled platform c = true) :
      Shape platform true (.volume drive :: residue :: body)

theorem settled_normal : settled platform (.normal name) = true ↔
    readName platform name = [.normal name] := by
  rw [settled, beq_iff_eq]

theorem Front.pop {front : FsPath} (start : Front front) : FsPath.pop front = front := by
  cases start <;> rfl

theorem Front.shape {front : FsPath} (start : Front front) : Shape platform false front := by
  have whole := @Shape.clean platform front [] start (by simp)
  rwa [List.append_nil] at whole

theorem Front.push_rootDir (platform : Platform) (path : FsPath) :
    Front (push platform path .rootDir) := by
  match path with
  | .volume text :: _ => exact .rooted text
  | [] | .rootDir :: _ | .curDir :: _ | .parentDir :: _ | .normal _ :: _ => exact .root

/-- Popping does not go below the beginning. -/
theorem Front.shape_popped {front : FsPath} (start : Front front) (n : Nat) :
    Shape platform false (FsPath.pop^[n] front) := by
  rw [Function.iterate_fixed start.pop]
  exact start.shape

theorem Shape.concat {kept : Bool} (h : Shape platform kept path)
    (plain : settled platform (.normal name) = true) :
    Shape platform kept (path ++ [.normal name]) := by
  have more : ∀ body : FsPath, (∀ c ∈ body, settled platform c = true) →
      ∀ c ∈ body ++ [.normal name], settled platform c = true := by
    intro body all c mem
    rw [List.mem_append, List.mem_singleton] at mem
    exact mem.elim (all c) fun same => same ▸ plain
  cases h with
  | clean start all =>
    rw [List.append_assoc]
    exact .clean start (more _ all)
  | spoiled residue unsettled all => exact .spoiled residue unsettled (more _ all)

theorem shape_popped (path : FsPath) (n : Nat) :
    Shape platform (driveRemains platform n path.reverse)
      (pop^[n] (lexicalNormalize platform path)) := by
  induction path using List.reverseRecOn generalizing n with
  | nil => exact Front.empty.shape_popped n
  | append_singleton path c ih =>
    rw [lexicalNormalize_concat, List.reverse_append, List.reverse_singleton, List.singleton_append]
    cases c with
    | volume text => exact (Front.volume text).shape_popped n
    | rootDir =>
      exact (Front.push_rootDir platform _).shape_popped n
    | curDir => exact ih n
    | parentDir => exact ih (n + 1)
    | normal name =>
      have step : normalizeStep platform (lexicalNormalize platform path) (.normal name) =
          push platform (lexicalNormalize platform path) (.normal name) := rfl
      rw [step, driveRemains]
      obtain plain | ⟨drive, rest, read, behind⟩ := readName_cases platform name
      · rw [plain, push_settled _ plain]
        cases n with
        | zero => exact (ih 0).concat (settled_normal.mpr plain)
        | succ n =>
          rw [Function.iterate_succ_apply, pop_concat_normal]
          exact ih n
      · rw [read, push_drive _ read]
        cases n with
        | zero =>
          obtain rfl | rfl | ⟨name', rfl, _⟩ := behind
          · exact (Front.volume drive).shape
          · exact @Shape.spoiled platform drive .parentDir [] (.inl rfl) rfl (by simp)
          · cases unsettled : settled platform (.normal name') with
            | false =>
              simpa [unsettled] using
                @Shape.spoiled platform drive (.normal name') [] (.inr ⟨name', rfl⟩) unsettled (by simp)
            | true =>
              simpa [unsettled] using
                @Shape.clean platform _ [.normal name'] (Front.volume drive) (by simpa using unsettled)
        | succ n =>
          have absorbed : pop (.volume drive :: rest) = [.volume drive] := by
            obtain rfl | rfl | ⟨_, rfl, _⟩ := behind <;> rfl
          rw [Function.iterate_succ_apply, absorbed]
          exact (Front.volume drive).shape_popped n

theorem foldl_settled {body : FsPath} (plain : ∀ c ∈ body, settled platform c = true)
    (path : FsPath) : body.foldl (normalizeStep platform) path = path ++ body := by
  induction body generalizing path with
  | nil => exact (List.append_nil path).symm
  | cons c body ih =>
    have first := plain c List.mem_cons_self
    cases c with
    | normal name =>
      have step : normalizeStep platform path (.normal name) = path ++ [.normal name] :=
        push_settled path (settled_normal.mp first)
      rw [List.foldl_cons, step, ih (fun c mem => plain c (List.mem_cons_of_mem _ mem)),
        List.append_assoc, List.singleton_append]
    | volume | rootDir | curDir | parentDir => cases first

/-- A settled path stays as it is. -/
theorem Shape.normalize (h : Shape platform false path) : lexicalNormalize platform path = path := by
  cases h with
  | clean start plain =>
    rw [lexicalNormalize, List.foldl_append, foldl_settled plain]
    cases start <;> rfl

theorem Shape.dotless (h : Shape platform false path) :
    Component.curDir ∉ path ∧ Component.parentDir ∉ path := by
  cases h with
  | clean start plain =>
    constructor <;> intro mem <;> rcases List.mem_append.mp mem with first | later
    · cases start <;> simp at first
    · cases plain _ later
    · cases start <;> simp at first
    · cases plain _ later

/-- A residue does not survive another pass. -/
theorem Shape.changes (h : Shape platform true path) : lexicalNormalize platform path ≠ path := by
  cases h with
  | @spoiled drive residue body name unsettled plain =>
    intro same
    have whole : lexicalNormalize platform (.volume drive :: residue :: body) =
        normalizeStep platform [.volume drive] residue ++ body := foldl_settled plain _
    rw [whole] at same
    obtain rfl | ⟨behind, rfl⟩ := name
    · have lengths := congrArg List.length same
      have popped : normalizeStep platform [.volume drive] .parentDir = [.volume drive] := rfl
      rw [popped] at lengths
      simp at lengths
    · obtain plain | ⟨drive', rest, read, short⟩ := readName_cases platform behind
      · rw [settled_normal.mpr plain] at unsettled
        cases unsettled
      · have pushed : normalizeStep platform [.volume drive] (.normal behind) =
            .volume drive' :: rest := push_drive _ read
        rw [pushed, List.cons_append] at same
        have tails := (List.cons.inj same).2
        obtain rfl | rfl | ⟨name', rfl, shorter⟩ := short
        · have lengths := congrArg List.length tails
          simp at lengths
        · cases tails
        · cases tails
          omega

/-- Normalizing twice is normalizing once, and leaves no dots in an absolute path. -/
structure NormalForm (platform : Platform) (path : FsPath) : Prop where
  idempotent : lexicalNormalize platform (lexicalNormalize platform path) =
    lexicalNormalize platform path
  dotless : path.isAbsolute platform = true →
    Component.curDir ∉ lexicalNormalize platform path ∧
      Component.parentDir ∉ lexicalNormalize platform path

theorem normalForm_iff :
    NormalForm platform path ↔ driveRemains platform 0 path.reverse = false := by
  have shape := @shape_popped platform path 0
  constructor
  · intro normal
    by_contra remains
    rw [Bool.not_eq_false] at remains
    rw [remains] at shape
    exact shape.changes normal.idempotent
  · intro settled
    rw [settled] at shape
    exact ⟨shape.normalize, fun _ => shape.dotless⟩

end FsPath

namespace Layout

variable {V : Type} [SemVer V] {L : Layout}

/-! ## Configuration -/

/-- The paths that the installation keeps for itself: the root, and everything that
is or lies inside one of its entries. -/
inductive Internal (L : Layout) : FsPath → Prop where
  | root : Internal L L.root
  | active (rest : FsPath) : Internal L (L.activePath ++ rest)
  | lock (rest : FsPath) : Internal L (L.lockPath ++ rest)
  | staging (rest : FsPath) : Internal L (L.stagingDir ++ rest)
  | versions (rest : FsPath) : Internal L (L.versionsDir ++ rest)
  | install (rest : FsPath) : Internal L (L.installStatePath ++ rest)
  | pending (rest : FsPath) : Internal L (L.pendingPath ++ rest)

/-- The command path is a file with a safe name right inside the `bin` directory. -/
def DirectChild (L : Layout) : Prop :=
  ∃ parent name, L.commandPath = FsPath.join parent name ∧
    FsPath.samePath L.foldCase L.platform parent L.binDir = true ∧ isSafeBasename name true = true

/-- The command path neither contains an internal path nor lies inside one. The root
may contain it. -/
structure Confined (L : Layout) : Prop where
  contains : ∀ path, L.Internal path →
    FsPath.pathStartsWith L.foldCase L.platform path L.commandPath = false
  inside : ∀ path, L.Internal path → path ≠ L.root →
    FsPath.pathStartsWith L.foldCase L.platform L.commandPath path = false
  differs : ∀ path, L.Internal path →
    FsPath.samePath L.foldCase L.platform path L.commandPath = false
  child : L.platform = .windows → L.DirectChild

omit [SemVer V] in
theorem validateReserved_eq_ok {paths : List FsPath} {done : Unit} :
    (L.validateReserved paths : Except (InstallError V) Unit) = .ok done ↔ ∀ path ∈ paths,
      FsPath.pathStartsWith L.foldCase L.platform L.commandPath path = false := by
  induction paths with
  | nil => simp [validateReserved]
  | cons path paths ih =>
    simp [validateReserved, bind_eq_ok, check_eq_ok, ih]

omit [SemVer V] in
theorem validateWindowsCommand_directChild {launcherName : String}
    (accepted : (L.validateWindowsCommand launcherName : Except (InstallError V) Unit) = .ok ()) :
    L.DirectChild := by
  simp only [validateWindowsCommand, bind_eq_ok, check_eq_ok, orError_eq_ok] at accepted
  obtain ⟨_, _, parent, above, _, same, name, last, safe⟩ := accepted
  refine ⟨parent, name, ?_, same, safe⟩
  unfold FsPath.fileName at last
  split at last
  · rename_i named ending
    cases last
    rw [FsPath.parent, ending] at above
    cases above
    exact (List.dropLast_append_getLast? _ ending).symm
  · cases last

omit [SemVer V] in
theorem validateCommandPath_confined {launcherName : Option String}
    (accepted : (L.validateCommandPath launcherName : Except (InstallError V) Unit) = .ok ())
    (launcher : L.platform = .windows → launcherName.isSome = true) : Confined L := by
  simp only [validateCommandPath, bind_eq_ok, check_eq_ok, validateReserved_eq_ok,
    List.forall_mem_cons] at accepted
  obtain ⟨_, ⟨differs, outside⟩, _, ⟨active, lock, staging, versions, install, pending, _⟩, named⟩ :=
    accepted
  have entry : ∀ path, L.Internal path → path = L.root ∨
      FsPath.pathStartsWith L.foldCase L.platform path L.commandPath = false ∧
        FsPath.pathStartsWith L.foldCase L.platform L.commandPath path = false := by
    intro path internal
    cases internal with
    | root => exact .inl rfl
    | active rest => exact .inr (FsPath.apart outside active rest)
    | lock rest => exact .inr (FsPath.apart outside lock rest)
    | staging rest => exact .inr (FsPath.apart outside staging rest)
    | versions rest => exact .inr (FsPath.apart outside versions rest)
    | install rest => exact .inr (FsPath.apart outside install rest)
    | pending rest => exact .inr (FsPath.apart outside pending rest)
  have contains : ∀ path, L.Internal path →
      FsPath.pathStartsWith L.foldCase L.platform path L.commandPath = false := by
    intro path internal
    obtain rfl | ⟨contains, _⟩ := entry path internal
    · exact outside
    · exact contains
  refine ⟨contains, ?_, ?_, ?_⟩
  · intro path internal other
    obtain same | ⟨_, inside⟩ := entry path internal
    · exact absurd same other
    · exact inside
  · intro path internal
    rw [← Bool.not_eq_true]
    intro same
    have around := FsPath.pathStartsWith_of_samePath same
    rw [contains path internal] at around
    cases around
  · intro windows
    cases launcherName with
    | none => cases launcher windows
    | some launcherName => exact validateWindowsCommand_directChild named

omit [SemVer V] in
/-- What configuration accepts is confined. -/
theorem validateConfiguration_confined
    (accepted : (L.validateConfiguration : Except (InstallError V) Unit) = .ok ()) : Confined L := by
  simp only [validateConfiguration, bind_eq_ok, check_eq_ok] at accepted
  obtain ⟨_, _, accepted⟩ := accepted
  split at accepted
  · rename_i unix
    exact validateCommandPath_confined accepted (by simp [unix])
  · simp only [bind_eq_ok, check_eq_ok, orError_eq_ok] at accepted
    obtain ⟨_, _, launcherName, _, accepted⟩ := accepted
    exact validateCommandPath_confined accepted fun _ => rfl

/-- An accepted command path is confined. Normalization reaches its normal form
exactly when no residue of a name with a drive remains; on Unix this is always so. -/
theorem command_path_confined {V : Type} [SemVer V] (L : Layout) :
    ((L.validateConfiguration : Except (InstallError V) Unit) = .ok () → Confined L) ∧
    (∀ path, FsPath.NormalForm L.platform path ↔
      FsPath.driveRemains L.platform 0 path.reverse = false) ∧
    ∀ path, FsPath.NormalForm .unix path := by
  refine ⟨validateConfiguration_confined, fun path => FsPath.normalForm_iff, fun path => ?_⟩
  exact FsPath.normalForm_iff.mpr (FsPath.driveRemains_unix 0 _)

/-! ## A drive in the middle of a path -/

section Sample

open Sample

theorem command_path_confined_unix :
    (unixHost.validateConfiguration : Except (InstallError Edition) Unit) = .ok () ∧
      Confined unixHost.toLayout := by
  have accepted : (unixHost.validateConfiguration : Except (InstallError Edition) Unit) = .ok () := by
    decide +kernel
  exact ⟨accepted, (command_path_confined unixHost.toLayout).1 accepted⟩

/-- The path `D:\foo\C:..` is absolute and is normalized to `C:..`, which is not
normalized. -/
theorem drive_is_not_normalized :
    FsPath.isAbsolute .windows [.volume "D:", .rootDir, .normal "foo", .normal "C:.."] = true ∧
      (∀ currentDir, FsPath.absolutePath .windows currentDir
        [.volume "D:", .rootDir, .normal "foo", .normal "C:.."] = [.volume "C:", .parentDir]) ∧
      ¬ FsPath.NormalForm .windows [.volume "D:", .rootDir, .normal "foo", .normal "C:.."] := by
  have normalized : FsPath.lexicalNormalize .windows
      [.volume "D:", .rootDir, .normal "foo", .normal "C:.."] = [.volume "C:", .parentDir] := by
    decide +kernel
  refine ⟨rfl, fun currentDir => normalized, fun normal => ?_⟩
  have dotless := (normal.dotless rfl).2
  rw [normalized] at dotless
  exact dotless (by simp)

end Sample

end Layout

end Relswap
