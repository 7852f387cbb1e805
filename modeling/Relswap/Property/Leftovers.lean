import Relswap.Proof.Temporary

/-!
# Leftovers of crashed runs

A crash between the creation of a temporary entry and its rename leaves the entry
behind, and its name may come up again. The replacement of a file tries further
names; the switch of the selector has one attempt, which a leftover of that name
blocks.
-/

namespace Relswap

open Durable
open Durable.Program (get write require attempt mark onlyIf forEach Succeeds)

namespace FileHost

variable {H : FileHost} {path temporary : EntryPath} {s t : Folders} {bytes target : Bytes}

/-- The temporary entries beside a path, of any kind, process and counter, are among
the given ones. -/
def Leftovers (s : Folders) (path : EntryPath) (leftovers : List EntryPath) : Prop :=
  ∀ kind pid counter, s.entries ⟨path.parent, temporaryName path.name kind pid counter⟩ ≠ none →
    ⟨path.parent, temporaryName path.name kind pid counter⟩ ∈ leftovers

/-! ## Operations that succeed -/

theorem operate_succeeds {effect : Folders → Except IoError Folders} (done : effect s = .ok t) :
    Succeeds (operate effect) s () t := Succeeds.mark.bind (.write done)

theorem ensureDirectory_succeeds {parent : Nat} (real : s.parents parent = .real) :
    Succeeds (H.ensureDirectory parent) s () s := by
  refine Succeeds.mark.bind (Succeeds.get.bind ?_)
  rw [real]
  exact .pure

theorem symlinkMetadata_succeeds : Succeeds (symlinkMetadata path) s (s.entries path) s :=
  Succeeds.mark.bind (Succeeds.get.bind .pure)

theorem syncDir_succeeds : Succeeds H.syncDir s () s := .onlyIf (fun _ => .mark) fun _ => rfl

theorem temporaryPath_succeeds {kind : String} :
    Succeeds (H.temporaryPath path kind) s (H.temporaryBeside path kind s.counter)
      (s.setCounter (s.counter + 1)) :=
  Succeeds.get.bind (Succeeds.bind (.write rfl) .pure)

/-- Creation goes on over taken names to the first free one. -/
theorem createTemporaryLoop_succeeds {tries : Nat}
    (free : ∃ i < tries, s.entries (H.temporaryBeside path "file" (later s.counter i)) = none) :
    ∃ temporary counter, temporary ≠ path ∧ s.entries temporary = none ∧
      Succeeds (H.createTemporaryLoop path tries) s temporary
        ((s.setCounter counter).set temporary (some (.file [] false))) := by
  induction tries generalizing s with
  | zero =>
    obtain ⟨i, small, _⟩ := free
    omega
  | succ tries ih =>
    by_cases here : s.entries (H.temporaryBeside path "file" s.counter) = none
    · refine ⟨H.temporaryBeside path "file" s.counter, s.counter + 1, temporaryBeside_ne, here, ?_⟩
      have created : Folders.createNew (H.temporaryBeside path "file" s.counter)
          (s.setCounter (s.counter + 1)) =
          .ok ((s.setCounter (s.counter + 1)).set (H.temporaryBeside path "file" s.counter)
            (some (.file [] false))) := by
        simp only [Folders.createNew, Folders.setCounter_entries, here]
      exact temporaryPath_succeeds.bind ((operate_succeeds created).attempt.bind .pure)
    · obtain ⟨i, small, open_⟩ := free
      cases i with
      | zero =>
        rw [later_zero] at open_
        exact absurd open_ here
      | succ i =>
        have next : ∃ i < tries, (s.setCounter (s.counter + 1)).entries
            (H.temporaryBeside path "file" (later (s.setCounter (s.counter + 1)).counter i)) =
              none := by
          refine ⟨i, by omega, ?_⟩
          rw [Folders.setCounter_counter, later_succ]
          exact open_
        obtain ⟨temporary, counter, other, fresh, run⟩ := ih next
        refine ⟨temporary, counter, other, fresh, ?_⟩
        obtain ⟨node, present⟩ := Option.ne_none_iff_exists'.mp here
        have taken : (attempt (operate (Folders.createNew
            (H.temporaryBeside path "file" s.counter)))).exec (s.setCounter (s.counter + 1)) =
            (.ok (.error .alreadyExists), s.setCounter (s.counter + 1)) := by
          rw [Program.exec_attempt]
          simp only [operate, Program.exec_bind, Program.exec_mark, Program.exec_write,
            Folders.createNew, Folders.setCounter_entries, present]
        exact temporaryPath_succeeds.bind (Succeeds.bind taken run)

/-- All pieces of a file end up in it. -/
theorem writeAll_succeeds {old : Bytes} {synced : Bool}
    (created : s.entries temporary = some (.file old synced)) :
    ∃ synced', Succeeds (H.writeAll temporary bytes) s ()
      (s.set temporary (some (.file (old ++ bytes) synced'))) := by
  have pieces : ∀ chunks : List Bytes, ∀ (s : Folders) (old : Bytes) (synced : Bool),
      s.entries temporary = some (.file old synced) →
      ∃ synced', Succeeds (forEach chunks fun chunk => operate (Folders.append temporary chunk))
        s () (s.set temporary (some (.file (old ++ chunks.flatten) synced'))) := by
    intro chunks
    induction chunks with
    | nil =>
      intro s old synced created
      refine ⟨synced, ?_⟩
      have same : s.set temporary (some (.file (old ++ [].flatten) synced)) = s := by
        rw [List.flatten_nil, List.append_nil, ← created, Folders.set, Function.update_eq_self]
      rw [same]
      exact .pure
    | cons chunk rest ih =>
      intro s old synced created
      have first : Folders.append temporary chunk s =
          .ok (s.set temporary (some (.file (old ++ chunk) false))) := by
        simp only [Folders.append, created]
      obtain ⟨synced', run⟩ := ih (s.set temporary (some (.file (old ++ chunk) false)))
        (old ++ chunk) false (Function.update_self ..)
      refine ⟨synced', Succeeds.bind (operate_succeeds first) ?_⟩
      have last : (s.set temporary (some (.file (old ++ chunk) false))).set temporary
          (some (.file (old ++ chunk ++ rest.flatten) synced')) =
          s.set temporary (some (.file (old ++ (chunk :: rest).flatten) synced')) := by
        rw [Folders.set, Folders.set, Function.update_idem, List.flatten_cons, List.append_assoc]
        rfl
      rw [← last]
      exact run
  obtain ⟨synced', run⟩ := pieces (H.chunks bytes) s old synced created
  rw [H.chunks_flatten] at run
  exact ⟨synced', run⟩

/-- The rename of a file or a link over anything but a directory. -/
theorem replaceExisting_succeeds {node : FsNode} (source : s.entries temporary = some node)
    (plain : ∀ id, node ≠ .directory id) (destination : ∀ id, s.entries path ≠ some (.directory id)) :
    Succeeds (replaceExisting temporary path) s () (s.move temporary path node) := by
  apply operate_succeeds
  rw [Folders.rename]
  rw [source]
  match old : s.entries path with
  | none => cases node <;> rfl
  | some (.directory id) => exact absurd old (destination id)
  | some (.file _ _) | some (.symlink _) =>
    cases node with
    | directory id => exact absurd rfl (plain id)
    | file _ _ => rfl
    | symlink _ => rfl

/-- The replacement of a file succeeds beside fewer than 32 leftovers. -/
theorem atomicReplaceFile_succeeds {leftovers : List EntryPath} (real : s.parents path.parent = .real)
    (plain : ∀ node, s.entries path = some node → ∃ old synced, node = .file old synced)
    (listed : Leftovers s path leftovers) (few : leftovers.length < 32) :
    ∃ t, Succeeds (H.atomicReplaceFile path bytes) s () t ∧
      t.entries path = some (.file bytes true) := by
  obtain ⟨temporary, counter, other, _, created⟩ :=
    createTemporaryLoop_succeeds (H := H) (exists_free s.counter leftovers few
      fun c present => listed "file" H.pid c.toNat present)
  obtain ⟨synced, written⟩ : ∃ synced, Succeeds (H.writeAll temporary bytes)
      ((s.setCounter counter).set temporary (some (.file [] false))) ()
      (((s.setCounter counter).set temporary (some (.file [] false))).set temporary
        (some (.file ([] ++ bytes) synced))) := writeAll_succeeds (Function.update_self ..)
  rw [List.nil_append] at written
  generalize writtenState : ((s.setCounter counter).set temporary (some (.file [] false))).set
    temporary (some (.file bytes synced)) = w at written
  have held : w.entries temporary = some (.file bytes synced) := by
    rw [← writtenState]
    exact Function.update_self ..
  have sync : Folders.sync temporary w = .ok (w.set temporary (some (.file bytes true))) := by
    simp only [Folders.sync, held]
  have replaced : Succeeds (replaceExisting temporary path)
      (w.set temporary (some (.file bytes true))) ()
      ((w.set temporary (some (.file bytes true))).move temporary path (.file bytes true)) := by
    apply replaceExisting_succeeds (Function.update_self ..) (by intro id; simp)
    intro id
    rw [Folders.set_entries, Function.update_of_ne other.symm, ← writtenState,
      Folders.set_entries, Function.update_of_ne other.symm, Folders.set_entries,
      Function.update_of_ne other.symm, Folders.setCounter_entries]
    intro directory
    obtain ⟨old, synced, same⟩ := plain _ directory
    cases same
  refine ⟨(w.set temporary (some (.file bytes true))).move temporary path (.file bytes true),
    ?_, Function.update_self ..⟩
  apply (ensureDirectory_succeeds real).bind
  have accepted : Succeeds (H.rejectReparse path) s () s := by
    apply symlinkMetadata_succeeds.bind
    match old : s.entries path with
    | none => exact .pure
    | some (.file _ _) => exact .pure
    | some (.directory _) => exact .pure
    | some (.symlink link) =>
      obtain ⟨_, _, same⟩ := plain _ old
      cases same
  have flushed : Succeeds (mark IoError.injected : FileProgram Unit) w () w := .mark
  refine accepted.bind (created.bind ?_)
  exact (written.bind (flushed.bind ((operate_succeeds sync).bind
    (replaced.bind syncDir_succeeds)))).attempt.bind .pure

section Switch

variable (real : s.parents path.parent = .real)
  (selector : ∀ node, s.entries path = some node → ∃ old, node = .symlink old)
  (absolute : absoluteText target = true)

include real selector absolute

/-- What the switch does up to the creation of its temporary link. -/
theorem atomicSwitchSymlink_starts :
    (H.atomicSwitchSymlink path target).exec s =
      (do
        operate (Folders.createSymlink (H.temporaryBeside path "symlink" s.counter) target)
        let result ← attempt do
          replaceExisting (H.temporaryBeside path "symlink" s.counter) path
          H.syncDir
        H.settle (H.temporaryBeside path "symlink" s.counter) result : FileProgram Unit).exec
      (s.setCounter (s.counter + 1)) := by
  rw [atomicSwitchSymlink]
  rw [(Succeeds.require absolute).exec_bind, (ensureDirectory_succeeds real).exec_bind,
    symlinkMetadata_succeeds.exec_bind]
  match old : s.entries path with
  | none => exact temporaryPath_succeeds.exec_bind
  | some (.symlink link) => exact temporaryPath_succeeds.exec_bind
  | some (.file _ _) | some (.directory _) =>
    obtain ⟨_, same⟩ := selector _ old
    cases same

/-- The switch succeeds when the one name it tries is free. -/
theorem atomicSwitchSymlink_free
    (free : s.entries (H.temporaryBeside path "symlink" s.counter) = none) :
    ∃ t, Succeeds (H.atomicSwitchSymlink path target) s () t ∧
      t.entries path = some (.symlink target) := by
  have start := atomicSwitchSymlink_starts (H := H) real selector absolute
  have other : H.temporaryBeside path "symlink" s.counter ≠ path := temporaryBeside_ne
  generalize H.temporaryBeside path "symlink" s.counter = temporary at start free other
  have created : Folders.createSymlink temporary target (s.setCounter (s.counter + 1)) =
      .ok ((s.setCounter (s.counter + 1)).set temporary (some (.symlink target))) := by
    simp only [Folders.createSymlink, Folders.setCounter_entries, free]
  have replaced : Succeeds (replaceExisting temporary path)
      ((s.setCounter (s.counter + 1)).set temporary (some (.symlink target))) ()
      (((s.setCounter (s.counter + 1)).set temporary (some (.symlink target))).move temporary
        path (.symlink target)) := by
    apply replaceExisting_succeeds (Function.update_self ..) (by intro id; simp)
    intro id
    rw [Folders.set_entries, Function.update_of_ne other.symm, Folders.setCounter_entries]
    intro directory
    obtain ⟨_, same⟩ := selector _ directory
    cases same
  refine ⟨((s.setCounter (s.counter + 1)).set temporary (some (.symlink target))).move temporary
    path (.symlink target), ?_, Function.update_self ..⟩
  rw [Succeeds, start]
  exact (operate_succeeds created).bind ((replaced.bind syncDir_succeeds).attempt.bind .pure)

/-- A leftover of that name makes it fail, and nothing but the counter changes. -/
theorem atomicSwitchSymlink_taken
    (taken : s.entries (H.temporaryBeside path "symlink" s.counter) ≠ none) :
    (H.atomicSwitchSymlink path target).exec s =
      (.error .alreadyExists, s.setCounter (s.counter + 1)) := by
  obtain ⟨node, present⟩ := Option.ne_none_iff_exists'.mp taken
  rw [atomicSwitchSymlink_starts real selector absolute]
  simp only [Program.exec_bind, operate, Program.exec_mark, Program.exec_write,
    Folders.createSymlink, Folders.setCounter_entries, present]

end Switch

/-- Beside fewer than 32 leftovers of crashed runs, the switch of the selector
succeeds exactly when none of them has the name that the process and its counter
give next. The replacement of a file always succeeds there. -/
theorem selector_switch_beside_leftovers (H : FileHost) (s : Folders) (path : EntryPath)
    (target : Bytes) (leftovers : List EntryPath) (real : s.parents path.parent = .real)
    (selector : ∀ node, s.entries path = some node → ∃ old, node = .symlink old)
    (absolute : absoluteText target = true) (listed : Leftovers s path leftovers)
    (few : leftovers.length < 32) :
    ((∃ t, (H.atomicSwitchSymlink path target).exec s = (.ok (), t) ∧
        t.entries path = some (.symlink target)) ↔
      s.entries (H.temporaryBeside path "symlink" s.counter) = none) ∧
    ∀ file bytes leftovers, s.parents file.parent = .real →
      (∀ node, s.entries file = some node → ∃ old synced, node = .file old synced) →
      Leftovers s file leftovers → leftovers.length < 32 →
      ∃ t, (H.atomicReplaceFile file bytes).exec s = (.ok (), t) ∧
        t.entries file = some (.file bytes true) := by
  constructor
  · constructor
    · intro switched
      obtain ⟨t, run, _⟩ := switched
      by_contra taken
      rw [atomicSwitchSymlink_taken real selector absolute taken] at run
      cases run
    · intro free
      exact atomicSwitchSymlink_free real selector absolute free
  · intro file bytes leftovers real plain listed few
    exact atomicReplaceFile_succeeds real plain listed few

/-! ## A container that crashed -/

/-- Process 1 of a Unix container, which writes a file in one piece. -/
def container : FileHost where
  platform := .unix
  pid := 1
  chunks bytes := [bytes]
  chunks_flatten _ := List.flatten_singleton
  removes := true
  display _ := "/usr/local/bin/app"
  displayParent _ := "/usr/local/bin"

def commandPath : EntryPath := ⟨0, encodeUtf8 "app"⟩

/-- The link that a crash of process 1 with counter 0 left beside the command path. -/
def crashedLink : EntryPath := container.temporaryBeside commandPath "symlink" 0

/-- The directory after the crash, as a process finds it with the given counter. -/
def afterCrash (counter : UInt64) : Folders where
  entries := Function.update (Function.update (fun _ => none) commandPath
    (some (.symlink [47, 97]))) crashedLink (some (.symlink [47, 98]))
  parents _ := .real
  counter := counter

theorem afterCrash_entries (counter : UInt64) :
    (afterCrash counter).entries = Function.update (Function.update (fun _ => none) commandPath
      (some (.symlink [47, 97]))) crashedLink (some (.symlink [47, 98])) := rfl

theorem crashedLink_ne : crashedLink ≠ commandPath := temporaryBeside_ne

theorem afterCrash_selector (counter : UInt64) :
    (afterCrash counter).entries commandPath = some (.symlink [47, 97]) := by
  rw [afterCrash_entries, Function.update_of_ne crashedLink_ne.symm, Function.update_self]

theorem afterCrash_leftovers (counter : UInt64) :
    Leftovers (afterCrash counter) commandPath [crashedLink] := by
  intro kind pid c present
  rw [List.mem_singleton]
  by_contra other
  apply present
  rw [afterCrash_entries, Function.update_of_ne other, Function.update_of_ne]
  intro same
  exact temporaryName_ne (congrArg EntryPath.name same)

/-- With another counter the switch succeeds beside the leftover. -/
theorem selector_switch_beside_other_leftover :
    ∃ t, (container.atomicSwitchSymlink commandPath [47, 98]).exec (afterCrash 1) =
      (.ok (), t) ∧ t.entries commandPath = some (.symlink [47, 98]) := by
  refine (selector_switch_beside_leftovers container (afterCrash 1) commandPath [47, 98]
    [crashedLink] rfl ?_ (by decide) (afterCrash_leftovers 1) (by decide)).1.mpr ?_
  · intro node present
    rw [afterCrash_selector] at present
    exact ⟨_, (Option.some.inj present).symm⟩
  · have other : container.temporaryBeside commandPath "symlink" 1 ≠ crashedLink := by
      intro same
      exact absurd (temporaryBeside_inj same) (by decide)
    have counter : (afterCrash 1).counter = 1 := rfl
    rw [counter, afterCrash_entries, Function.update_of_ne other,
      Function.update_of_ne temporaryBeside_ne]

/-- A restarted process 1 has the same counter, and its switch fails. -/
theorem leftover_blocks_switch :
    Leftovers (afterCrash 0) commandPath [crashedLink] ∧
    (afterCrash 0).parents commandPath.parent = .real ∧
    (afterCrash 0).entries commandPath = some (.symlink [47, 97]) ∧
    (container.atomicSwitchSymlink commandPath [47, 98]).exec (afterCrash 0) =
      (.error .alreadyExists, (afterCrash 0).setCounter 1) := by
  refine ⟨afterCrash_leftovers 0, rfl, afterCrash_selector 0, ?_⟩
  apply atomicSwitchSymlink_taken rfl _ (by decide)
  · intro free
    have present : (afterCrash 0).entries crashedLink = some (.symlink [47, 98]) := by
      rw [afterCrash_entries, Function.update_self]
    exact absurd (present.symm.trans free) (by simp)
  · intro node present
    rw [afterCrash_selector] at present
    exact ⟨_, (Option.some.inj present).symm⟩

end FileHost

end Relswap
