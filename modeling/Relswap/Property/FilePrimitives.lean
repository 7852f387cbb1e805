import Relswap.Durable.Interference
import Relswap.Proof.Temporary

/-!
# The file primitives are crash-atomic

A call goes through three phases: nothing has changed, a temporary file is held
beside the destination, or the new content is in place. Every operation keeps to
them or leads to the next, and after an error the temporary file is removed, so
that a crash or a failure shows the destination complete in all of them.
-/

namespace Relswap

open Durable
open Durable.Program (get write require attempt mark onlyIf forEach WP wp_bind_of wp_write Always)

namespace FileHost

variable {H : FileHost} {path temporary source destination : EntryPath} {s₀ s t : Folders}
  {bytes : Bytes} {mode : Option Nat} {new node : FsNode} {allowed : Prop}
  {G : Folders → Folders → Prop} {Q : Except IoError Unit → Folders → Prop}

/-- What a call that places a new node may leave at any moment. -/
structure Placing (s₀ : Folders) (path : EntryPath) (allowed : Prop) (new : FsNode)
    (t : Folders) : Prop where
  others : ∀ p, p ≠ path → s₀.entries p ≠ none → t.entries p = s₀.entries p
  destination : t.entries path = s₀.entries path ∨ (allowed ∧ t.entries path = some new)

/-- A temporary path that was free when the call began. -/
structure Fresh (s₀ : Folders) (path temporary : EntryPath) : Prop where
  free : s₀.entries temporary = none
  other : temporary ≠ path

/-! ## Phases -/

def Idle (s₀ t : Folders) : Prop := t.entries = s₀.entries

def Held (s₀ : Folders) (temporary : EntryPath) (node : FsNode) (t : Folders) : Prop :=
  t.entries = Function.update s₀.entries temporary (some node)

def Done (s₀ : Folders) (path : EntryPath) (new : FsNode) (t : Folders) : Prop :=
  t.entries = Function.update s₀.entries path (some new)

theorem Idle.placing (idle : Idle s₀ t) : Placing s₀ path allowed new t where
  others p _ _ := congrFun idle p
  destination := .inl (congrFun idle path)

theorem Held.placing (held : Held s₀ temporary node t) (fresh : Fresh s₀ path temporary) :
    Placing s₀ path allowed new t where
  others := by
    intro p _ present
    rw [held, Function.update_of_ne]
    intro same
    exact present (same ▸ fresh.free)
  destination := by
    left
    rw [held, Function.update_of_ne fresh.other.symm]

theorem Done.placing (done : Done s₀ path new t) (permitted : allowed) :
    Placing s₀ path allowed new t where
  others p other _ := by rw [done, Function.update_of_ne other]
  destination := by
    right
    rw [done, Function.update_self]
    exact ⟨permitted, rfl⟩

/-- Moving what is held into place ends the call's changes. -/
theorem Held.move (held : Held s₀ temporary new t) (fresh : Fresh s₀ path temporary) :
    Done s₀ path new (t.move temporary path new) := by
  rw [Done, Folders.move, Folders.set_entries, Folders.set_entries, held, Function.update_idem,
    ← fresh.free, Function.update_eq_self]

theorem Held.set (held : Held s₀ temporary node t) :
    Held s₀ temporary new (t.set temporary (some new)) := by
  rw [Held, Folders.set_entries, held, Function.update_idem]

theorem Held.entry (held : Held s₀ temporary node t) : t.entries temporary = some node := by
  rw [held, Function.update_self]

/-- Taking away what is held leaves everything as it was. -/
theorem Held.remove (held : Held s₀ temporary node t) (fresh : Fresh s₀ path temporary) :
    Idle s₀ (t.set temporary none) := by
  rw [Idle, Folders.set_entries, held, Function.update_idem, ← fresh.free,
    Function.update_eq_self]

/-! ## Single operations -/

theorem wp_operate {effect : Folders → Except IoError Folders}
    (fails : ∀ e, Q (.error e) s) (done : ∀ t, effect s = .ok t → G s t ∧ Q (.ok ()) t) :
    WP true G Q (operate effect) s := by
  rw [operate, Program.wp_bind]
  exact ⟨(wp_write effect Q).mpr ⟨done, fun e _ => fails e⟩, fails _⟩

theorem wp_mark (returns : Q (.ok ()) s) (fails : ∀ e, Q (.error e) s) :
    WP true G Q (mark IoError.injected) s := ⟨returns, fails _⟩

theorem wp_ensureDirectory {parent : Nat} (returns : Q (.ok ()) s)
    (fails : ∀ e, Q (.error e) s) : WP true G Q (H.ensureDirectory parent) s := by
  rw [ensureDirectory, Program.wp_bind]
  refine wp_mark ?_ fails
  rw [Program.andThen_ok, Program.wp_bind, Program.wp_get, Program.andThen_ok]
  cases s.parents parent with
  | real => exact returns
  | indirect => exact fails _
  | missing => exact fails _

theorem wp_symlinkMetadata {Q : Except IoError (Option FsNode) → Folders → Prop}
    (returns : Q (.ok (s.entries path)) s) (fails : ∀ e, Q (.error e) s) :
    WP true G Q (symlinkMetadata path) s := by
  rw [symlinkMetadata, Program.wp_bind]
  exact ⟨returns, fails _⟩

theorem wp_rejectReparse (returns : Q (.ok ()) s) (fails : ∀ e, Q (.error e) s) :
    WP true G Q (H.rejectReparse path) s := by
  rw [rejectReparse, Program.wp_bind]
  refine wp_symlinkMetadata ?_ fails
  rw [Program.andThen_ok]
  match s.entries path with
  | some (.symlink _) => exact fails _
  | none | some (.file _ _) | some (.directory _) => exact returns

theorem wp_onlyIf {condition : Prop} [Decidable condition] {p : FileProgram Unit}
    (yes : WP true G Q p s) (no : Q (.ok ()) s) : WP true G Q (onlyIf condition p) s := by
  rw [onlyIf]
  split
  · exact yes
  · exact no

theorem wp_syncDir (returns : Q (.ok ()) s) (fails : ∀ e, Q (.error e) s) :
    WP true G Q H.syncDir s := wp_onlyIf (wp_mark returns fails) returns

/-! ## The temporary file -/

/-- The outcome of the creation of a temporary file. -/
def Created (s₀ : Folders) (path : EntryPath) : Except IoError EntryPath → Folders → Prop
  | .ok temporary, t => Fresh s₀ path temporary ∧ Held s₀ temporary (.file [] false) t
  | .error _, t => Idle s₀ t

theorem wp_createTemporaryLoop {tries : Nat} (idle : Idle s₀ s) :
    WP true (fun _ t => Placing s₀ path allowed new t) (Created s₀ path)
      (H.createTemporaryLoop path tries) s := by
  induction tries generalizing s with
  | zero => exact idle
  | succ tries ih =>
    have counted : Idle s₀ (s.setCounter (s.counter + 1)) := idle
    have named : WP true (fun _ t => Placing s₀ path allowed new t)
        (fun r t => r = .ok (H.temporaryBeside path "file" s.counter) ∧ Idle s₀ t)
        (H.temporaryPath path "file") s := by
      rw [temporaryPath, Program.wp_bind, Program.wp_get, Program.andThen_ok, Program.wp_bind,
        wp_write]
      constructor
      · intro t advanced
        cases advanced
        exact ⟨counted.placing, rfl, counted⟩
      · intro e failed
        cases failed
    refine wp_bind_of named ?_ (by simp)
    rintro _ t ⟨same, idle⟩
    cases same
    have opened : WP true (fun _ t => Placing s₀ path allowed new t)
        (fun r t => r = .ok (.ok ()) ∧ Fresh s₀ path (H.temporaryBeside path "file" s.counter) ∧
            Held s₀ (H.temporaryBeside path "file" s.counter) (.file [] false) t ∨
          (∃ e, r = .ok (.error e)) ∧ Idle s₀ t)
        (attempt (operate (Folders.createNew (H.temporaryBeside path "file" s.counter)))) t := by
      rw [Program.wp_attempt]
      refine wp_operate (fun e => .inr ⟨⟨e, rfl⟩, idle⟩) ?_
      intro u created
      unfold Folders.createNew at created
      split at created
      · cases created
      · rename_i free
        cases created
        have fresh : Fresh s₀ path (H.temporaryBeside path "file" s.counter) :=
          ⟨by rw [← idle]; exact free, temporaryBeside_ne⟩
        have held : Held s₀ (H.temporaryBeside path "file" s.counter) (.file [] false)
            (t.set (H.temporaryBeside path "file" s.counter) (some (.file [] false))) := by
          rw [Held, Folders.set_entries, idle]
        exact ⟨held.placing fresh, .inl ⟨rfl, fresh, held⟩⟩
    refine wp_bind_of opened ?_ (by simp)
    rintro result u (⟨same, fresh, held⟩ | ⟨⟨e, same⟩, idle⟩)
    · cases same
      exact ⟨fresh, held⟩
    · cases same
      cases e with
      | alreadyExists => exact ih idle
      | _ => exact idle

/-- The outcome of writing content to the temporary file. -/
def Written (s₀ : Folders) (temporary : EntryPath) (content : Bytes) :
    Except IoError Unit → Folders → Prop
  | .ok _, t => ∃ synced, Held s₀ temporary (.file content synced) t
  | .error _, t => ∃ piece synced, Held s₀ temporary (.file piece synced) t

theorem wp_writeAll {synced : Bool} (fresh : Fresh s₀ path temporary)
    (held : Held s₀ temporary (.file [] synced) s) :
    WP true (fun _ t => Placing s₀ path allowed new t) (Written s₀ temporary bytes)
      (H.writeAll temporary bytes) s := by
  have pieces : ∀ chunks : List Bytes, ∀ (s : Folders) (old : Bytes) (synced : Bool),
      Held s₀ temporary (.file old synced) s →
      WP true (fun _ t => Placing s₀ path allowed new t)
        (Written s₀ temporary (old ++ chunks.flatten))
        (forEach chunks fun chunk => operate (Folders.append temporary chunk)) s := by
    intro chunks
    induction chunks with
    | nil =>
      intro s old synced held
      rw [List.flatten_nil, List.append_nil]
      exact ⟨synced, held⟩
    | cons chunk rest ih =>
      intro s old synced held
      have first : WP true (fun _ t => Placing s₀ path allowed new t)
          (Written s₀ temporary (old ++ chunk)) (operate (Folders.append temporary chunk)) s := by
        refine wp_operate (fun e => ⟨old, synced, held⟩) ?_
        intro t appended
        simp only [Folders.append, held.entry] at appended
        cases appended
        exact ⟨held.set.placing fresh, false, held.set⟩
      refine wp_bind_of first ?_ fun e t failed => failed
      intro _ t appended
      obtain ⟨synced', held'⟩ := appended
      have more := ih t (old ++ chunk) synced' held'
      rwa [List.append_assoc, ← List.flatten_cons] at more
  have all := pieces (H.chunks bytes) s [] synced held
  rwa [List.nil_append, H.chunks_flatten] at all

/-! ## The end of a call -/

/-- The outcome of what follows the creation of the temporary file. -/
def Placed (s₀ : Folders) (path temporary : EntryPath) (allowed : Prop) (new : FsNode) :
    Except IoError Unit → Folders → Prop
  | .ok _, t => allowed ∧ Done s₀ path new t
  | .error _, t => (∃ piece synced, Held s₀ temporary (.file piece synced) t) ∨
      (allowed ∧ Done s₀ path new t)

/-- The outcome of a call: after an error nothing but the destination has
changed, provided that the removal of the temporary file is not refused. -/
def Ended (H : FileHost) (s₀ : Folders) (path : EntryPath) (allowed : Prop) (new : FsNode) :
    Except IoError Unit → Folders → Prop
  | .ok _, t => allowed ∧ Done s₀ path new t
  | .error _, t => Placing s₀ path allowed new t ∧
      (H.removes = true → ∀ p, p ≠ path → t.entries p = s₀.entries p)

theorem Idle.ended (idle : Idle s₀ t) (e : IoError) : Ended H s₀ path allowed new (.error e) t :=
  ⟨idle.placing, fun _ p _ => congrFun idle p⟩

/-- Removing the temporary file, or failing to, leaves the phase as it is or goes
back to the first. -/
theorem wp_settle {result : Except IoError Unit} (fresh : Fresh s₀ path temporary)
    (placed : Placed s₀ path temporary allowed new result s) :
    WP true (fun _ t => Placing s₀ path allowed new t) (Ended H s₀ path allowed new)
      (H.settle temporary result) s := by
  cases result with
  | ok => exact placed
  | error e =>
    have removal : WP true (fun _ t => Placing s₀ path allowed new t)
        (fun _ t => Ended H s₀ path allowed new (.error e) t) (attempt (H.removeFile temporary))
        s := by
      rw [Program.wp_attempt, removeFile, Program.wp_bind, Program.wp_require]
      rcases placed with ⟨piece, synced, held⟩ | ⟨permitted, done⟩
      · constructor
        · intro _
          rw [Program.andThen_ok, wp_write]
          constructor
          · intro t removed
            simp only [Folders.remove, held.entry] at removed
            cases removed
            exact ⟨(held.remove fresh).placing, (held.remove fresh).ended e⟩
          · intro e' failed
            simp only [Folders.remove, held.entry] at failed
            cases failed
        · intro refused
          exact ⟨held.placing fresh, fun removes => absurd removes refused⟩
      · have ended : Ended H s₀ path allowed new (.error e) s := by
          refine ⟨done.placing permitted, ?_⟩
          intro _ p other
          rw [done, Function.update_of_ne other]
        constructor
        · intro _
          rw [Program.andThen_ok, wp_write]
          have gone : s.entries temporary = none := by
            rw [done, Function.update_of_ne fresh.other, fresh.free]
          constructor
          · intro t removed
            simp only [Folders.remove, gone] at removed
            cases removed
          · intro _ _
            exact ended
        · intro _
          exact ended
    exact wp_bind_of removal (fun _ _ ended => ended) fun _ _ ended => ended

/-- A replacement in place of what is held. -/
theorem wp_replaceExisting (fresh : Fresh s₀ path temporary) (held : Held s₀ temporary new s)
    (file : ∃ content synced, new = .file content synced) :
    WP true (fun _ t => Placing s₀ path True new t) (Placed s₀ path temporary True new)
      (replaceExisting temporary path) s := by
  obtain ⟨content, synced, rfl⟩ := file
  refine wp_operate (fun e => .inl ⟨content, synced, held⟩) ?_
  intro t renamed
  have moved : t = s.move temporary path (.file content synced) := by
    simp only [Folders.rename, held.entry] at renamed
    split at renamed <;> cases renamed
    rename_i node same _ _
    cases same
    rfl
  subst moved
  exact ⟨(held.move fresh).placing trivial, trivial, held.move fresh⟩

/-- Syncing what is held. -/
theorem wp_sync {content : Bytes} {synced : Bool} (fresh : Fresh s₀ path temporary)
    (held : Held s₀ temporary (.file content synced) s)
    (next : ∀ t, Held s₀ temporary (.file content true) t → Q (.ok ()) t)
    (fails : ∀ e, Q (.error e) s) :
    WP true (fun _ t => Placing s₀ path allowed new t) Q
      (operate (Folders.sync temporary)) s := by
  apply wp_operate fails
  intro t done
  simp only [Folders.sync, held.entry] at done
  cases done
  exact ⟨held.set.placing fresh, next _ held.set⟩

/-- A call that fills a temporary file and puts it in place keeps to the phases when
its body does. -/
theorem wp_withTemporary {place : EntryPath → FileProgram Unit} (idle : Idle s₀ s)
    (body : ∀ temporary t, Fresh s₀ path temporary → Held s₀ temporary (.file [] false) t →
      WP true (fun _ t => Placing s₀ path allowed new t) (Placed s₀ path temporary allowed new)
        (place temporary) t) :
    WP true (fun _ t => Placing s₀ path allowed new t) (Ended H s₀ path allowed new)
      (do
        let temporary ← H.createTemporaryFile path
        let result ← attempt (place temporary)
        H.settle temporary result : FileProgram Unit) s := by
  refine wp_bind_of (wp_createTemporaryLoop idle) ?_ fun e t idle => idle.ended e
  intro temporary t created
  obtain ⟨fresh, held⟩ := created
  have attempted := (Program.wp_attempt _ (fun r t => ∃ result, r = .ok result ∧
    Placed s₀ path temporary allowed new result t)).mpr
      ((body temporary t fresh held).mono_post fun r t placed => ⟨r, rfl, placed⟩)
  refine wp_bind_of attempted ?_ ?_
  · rintro result u ⟨_, same, placed⟩
    cases same
    exact wp_settle fresh placed
  · rintro e u ⟨_, same, _⟩
    cases same

/-! ## The primitives -/

/-- The replacement of a file, from any content of the directory. -/
theorem wp_atomicReplaceFile :
    WP true (fun _ t => Placing s₀ path True (.file bytes true) t)
      (Ended H s₀ path True (.file bytes true)) (H.atomicReplaceFile path bytes) s₀ := by
  have idle : Idle s₀ s₀ := rfl
  rw [atomicReplaceFile, Program.wp_bind]
  refine wp_ensureDirectory ?_ fun e => idle.ended e
  rw [Program.andThen_ok, Program.wp_bind]
  refine wp_rejectReparse ?_ fun e => idle.ended e
  rw [Program.andThen_ok]
  apply wp_withTemporary idle
  intro temporary t fresh held
  refine wp_bind_of (wp_writeAll fresh held) ?_ fun e u failed => .inl failed
  intro _ u written
  obtain ⟨synced, held⟩ := written
  have kept : ∀ e : IoError, Placed s₀ path temporary True (.file bytes true) (.error e) u :=
    fun e => .inl ⟨bytes, synced, held⟩
  rw [Program.wp_bind]
  refine wp_mark ?_ kept
  rw [Program.andThen_ok, Program.wp_bind]
  refine wp_sync fresh held ?_ kept
  intro v held
  rw [Program.andThen_ok]
  refine wp_bind_of (wp_replaceExisting fresh held ⟨bytes, true, rfl⟩) ?_
    fun e w failed => failed
  intro _ w done
  exact wp_syncDir done fun e => .inr done

/-- The move of a new entry into place changes nothing or puts it where nothing was. -/
theorem wp_renameNew (fails : ∀ e, Q (.error e) s)
    (moves : ∀ node, s.entries source = some node → s.entries destination = none →
      G s (s.move source destination node) ∧
        ∀ r, Q r (s.move source destination node)) :
    WP true G Q (H.renameNew source destination) s := by
  rw [renameNew, Program.wp_bind]
  refine wp_ensureDirectory ?_ fails
  rw [Program.andThen_ok, Program.wp_bind]
  refine wp_rejectReparse ?_ fails
  rw [Program.andThen_ok, Program.wp_bind]
  refine wp_rejectReparse ?_ fails
  rw [Program.andThen_ok, Program.wp_bind]
  refine wp_operate fails ?_
  intro t renamed
  have moved : ∃ node, s.entries source = some node ∧ s.entries destination = none ∧
      t = s.move source destination node := by
    unfold Folders.renameNoReplace at renamed
    split at renamed
    · cases renamed
    · cases renamed
    · rename_i node present absent
      cases renamed
      exact ⟨node, present, absent, rfl⟩
  obtain ⟨node, present, absent, rfl⟩ := moved
  obtain ⟨within, returns⟩ := moves node present absent
  refine ⟨within, ?_⟩
  rw [Program.andThen_ok, Program.wp_bind]
  refine wp_syncDir ?_ fun e => returns _
  rw [Program.andThen_ok]
  exact wp_onlyIf (wp_syncDir (returns _) fun e => returns _) (returns _)

/-- The creation of a file, from any content of the directory. -/
theorem wp_createNewFile (permitted : s₀.entries path = none → allowed) :
    WP true (fun _ t => Placing s₀ path allowed (.file bytes true) t)
      (Ended H s₀ path allowed (.file bytes true)) (H.createNewFile path bytes mode) s₀ := by
  have idle : Idle s₀ s₀ := rfl
  rw [createNewFile, Program.wp_bind]
  refine wp_ensureDirectory ?_ fun e => idle.ended e
  rw [Program.andThen_ok, Program.wp_bind]
  refine wp_symlinkMetadata ?_ fun e => idle.ended e
  rw [Program.andThen_ok]
  cases absent : s₀.entries path with
  | some node => exact idle.ended _
  | none =>
    apply wp_withTemporary idle
    intro temporary t fresh held
    refine wp_bind_of (wp_writeAll fresh held) ?_ fun e u failed => .inl failed
    intro _ u written
    obtain ⟨synced, held⟩ := written
    have kept : ∀ e : IoError, Placed s₀ path temporary allowed (.file bytes true) (.error e) u :=
      fun e => .inl ⟨bytes, synced, held⟩
    rw [Program.wp_bind]
    refine wp_mark ?_ kept
    rw [Program.andThen_ok, Program.wp_bind]
    have rest : WP true (fun _ t => Placing s₀ path allowed (.file bytes true) t)
        (Placed s₀ path temporary allowed (.file bytes true)) (do
          operate (Folders.sync temporary)
          H.renameNew temporary path : FileProgram Unit) u := by
      rw [Program.wp_bind]
      refine wp_sync fresh held ?_ kept
      intro v held
      rw [Program.andThen_ok]
      refine wp_renameNew (fun e => .inl ⟨bytes, true, held⟩) ?_
      intro node present _
      rw [held.entry] at present
      cases present
      have done := held.move fresh
      refine ⟨done.placing (permitted absent), ?_⟩
      intro r
      cases r with
      | ok => exact ⟨permitted absent, done⟩
      | error e => exact .inr ⟨permitted absent, done⟩
    exact wp_onlyIf (wp_mark rest kept) rest

/-! ## Among other processes -/

/-- A step leaves a path alone, or moves an entry to it where nothing was. -/
def Appears (path : EntryPath) (s t : Folders) : Prop :=
  t.entries path = s.entries path ∨
    (s.entries path = none ∧ ∃ source, t.entries path = s.entries source)

theorem Appears.set (other : temporary ≠ path) (node : Option FsNode) :
    Appears path s (s.set temporary node) :=
  .inl (Function.update_of_ne other.symm _ _)

section Always

variable {R : Folders → Folders → Prop}

theorem always_operate {effect : Folders → Except IoError Folders}
    (h : ∀ s t, effect s = .ok t → R s t) : Always R (fun _ => True) (operate effect) :=
  (Always.mark _).bind fun _ _ => .write h

theorem always_ensureDirectory {parent : Nat} :
    Always R (fun _ => True) (H.ensureDirectory parent) := by
  refine (Always.mark _).bind fun _ _ => Always.get.bind fun s _ => ?_
  cases s.parents parent with
  | real => exact .pure trivial
  | indirect => exact .throw _
  | missing => exact .throw _

theorem always_symlinkMetadata : Always R (fun _ => True) (symlinkMetadata path) :=
  (Always.mark _).bind fun _ _ => Always.get.bind fun _ _ => .pure trivial

theorem always_rejectReparse : Always R (fun _ => True) (H.rejectReparse path) := by
  refine always_symlinkMetadata.bind fun node _ => ?_
  match node with
  | some (.symlink _) => exact .throw _
  | none | some (.file _ _) | some (.directory _) => exact .pure trivial

theorem always_syncDir : Always R (fun _ => True) H.syncDir := .onlyIf (.mark _)

end Always

/-- Nothing but the temporary path is touched, and it is not the destination. -/
theorem always_createTemporaryLoop {tries : Nat} :
    Always (Appears path) (fun temporary => temporary ≠ path)
      (H.createTemporaryLoop path tries) := by
  induction tries with
  | zero => exact .throw _
  | succ tries ih =>
    have named : Always (Appears path) (fun temporary => temporary ≠ path)
        (H.temporaryPath path "file") := by
      refine Always.get.bind fun s _ => Always.bind (M := fun _ => True) (.write ?_) fun _ _ =>
        .pure temporaryBeside_ne
      intro t u counted
      cases counted
      exact .inl rfl
    refine named.bind fun temporary other => (Always.attempt (always_operate ?_)).bind
      fun result _ => ?_
    · intro s t created
      unfold Folders.createNew at created
      split at created <;> cases created
      exact .set other _
    · match result with
      | .ok () => exact .pure other
      | .error e =>
        cases e with
        | alreadyExists => exact ih
        | _ => exact .throw _

theorem always_writeAll (other : temporary ≠ path) :
    Always (Appears path) (fun _ => True) (H.writeAll temporary bytes) := by
  refine Always.forEach fun chunk => always_operate ?_
  intro s t appended
  unfold Folders.append at appended
  split at appended <;> cases appended
  exact .set other _

theorem always_settle {result : Except IoError Unit} (other : temporary ≠ path) :
    Always (Appears path) (fun _ => True) (H.settle temporary result) := by
  cases result with
  | ok => exact .pure trivial
  | error e =>
    have removal : Always (Appears path) (fun _ => True) (H.removeFile temporary) := by
      refine (Always.require _).bind fun _ _ => .write ?_
      intro s t removed
      unfold Folders.remove at removed
      split at removed <;> cases removed
      exact .set other _
    exact removal.attempt.bind fun _ _ => .throw _

/-- No step of a no-replace rename changes an existing destination. -/
theorem always_renameNew :
    Always (Appears destination) (fun _ => True) (H.renameNew source destination) := by
  refine always_ensureDirectory.bind fun _ _ => always_rejectReparse.bind fun _ _ =>
    always_rejectReparse.bind fun _ _ => (always_operate ?_).bind fun _ _ =>
      always_syncDir.bind fun _ _ => .onlyIf always_syncDir
  intro s t renamed
  unfold Folders.renameNoReplace at renamed
  split at renamed
  · cases renamed
  · cases renamed
  · rename_i node present absent
    cases renamed
    exact .inr ⟨absent, source, (Function.update_self ..).trans present.symm⟩

/-- Nor does any step of the creation of a file. -/
theorem always_createNewFile :
    Always (Appears path) (fun _ => True) (H.createNewFile path bytes mode) := by
  refine always_ensureDirectory.bind fun _ _ => always_symlinkMetadata.bind fun node _ => ?_
  cases node with
  | some node => exact .throw _
  | none =>
    refine always_createTemporaryLoop.bind fun temporary other => ?_
    have body : Always (Appears path) (fun _ => True) (do
        H.writeAll temporary bytes
        mark .injected
        onlyIf (H.platform = .unix ∧ mode.isSome) (mark .injected)
        operate (Folders.sync temporary)
        H.renameNew temporary path : FileProgram Unit) := by
      refine (always_writeAll other).bind fun _ _ => (Always.mark _).bind fun _ _ =>
        (Always.onlyIf (.mark _)).bind fun _ _ => (always_operate ?_).bind fun _ _ =>
          always_renameNew
      intro s t synced
      unfold Folders.sync at synced
      split at synced <;> cases synced
      exact .set other _
    exact body.attempt.bind fun _ _ => always_settle other

/-! ## The result -/

/-- A program that returns an error, at the end of a run. -/
def Fails (p : FileProgram Unit) (s t : Folders) : Prop :=
  ∃ e, p.Reaches s (.throw e) t

/-- From any content of the directory, a crash or a failing operation at any point
of a replacement leaves the destination as it was or with the complete synced
content, and no other entry that was there changed; after an error the temporary
file is gone unless its removal was refused. The same holds of a creation and of a
no-replace rename, which in addition never change a destination that is there when
they rename, whatever other processes do in between. -/
theorem file_primitives_crash_atomic (H : FileHost) (s₀ : Folders) (path source : EntryPath)
    (bytes : Bytes) (mode : Option Nat) :
    (∀ t, (H.atomicReplaceFile path bytes).Leaves s₀ t →
      Placing s₀ path True (.file bytes true) t) ∧
    (∀ t, Fails (H.atomicReplaceFile path bytes) s₀ t → H.removes = true →
      ∀ p, p ≠ path → t.entries p = s₀.entries p) ∧
    (∀ t, (H.createNewFile path bytes mode).Leaves s₀ t →
      Placing s₀ path (s₀.entries path = none) (.file bytes true) t) ∧
    (∀ t, Fails (H.createNewFile path bytes mode) s₀ t → H.removes = true →
      ∀ p, p ≠ path → t.entries p = s₀.entries p) ∧
    (∀ t, (H.renameNew source path).Leaves s₀ t →
      t = s₀ ∨ ∃ node, s₀.entries source = some node ∧ s₀.entries path = none ∧
        t = s₀.move source path node) ∧
    (∀ p ∈ [H.createNewFile path bytes mode, H.renameNew source path],
      ∀ q t q' u, p.Among s₀ q t → Program.Step (q, t) (q', u) → Appears path t u) := by
  have refl : ∀ s : Folders, Appears path s s := fun s => .inl rfl
  refine ⟨?_, ?_, ?_, ?_, ?_, ?_⟩
  · intro t left
    apply wp_atomicReplaceFile.invariant (I := Placing s₀ path True (.file bytes true)) _ _ left
    · exact fun _ _ _ placing => placing
    · exact Idle.placing rfl
  · intro t fails removes
    obtain ⟨e, run⟩ := fails
    exact ((wp_atomicReplaceFile (H := H)).reaches run).1.2 removes
  · intro t left
    apply (wp_createNewFile fun absent => absent).invariant
      (I := Placing s₀ path (s₀.entries path = none) (.file bytes true)) _ _ left
    · exact fun _ _ _ placing => placing
    · exact Idle.placing rfl
  · intro t fails removes
    obtain ⟨e, run⟩ := fails
    exact ((wp_createNewFile (H := H) fun absent => absent).reaches run).1.2 removes
  · intro t left
    have contract : WP true (fun _ t => t = s₀ ∨ ∃ node, s₀.entries source = some node ∧
        s₀.entries path = none ∧ t = s₀.move source path node) (fun _ _ => True)
        (H.renameNew source path) s₀ := by
      refine wp_renameNew (fun _ => trivial) ?_
      intro node present absent
      exact ⟨.inr ⟨node, present, absent, rfl⟩, fun _ => trivial⟩
    apply contract.invariant (I := fun t => t = s₀ ∨ ∃ node, s₀.entries source = some node ∧
      s₀.entries path = none ∧ t = s₀.move source path node) _ _ left
    · exact fun _ _ _ moved => moved
    · exact .inl rfl
  · intro p member q t q' u run action
    rw [List.mem_cons, List.mem_singleton] at member
    rcases member with rfl | rfl
    · exact always_createNewFile.every refl run action
    · exact always_renameNew.every refl run action

end FileHost

end Relswap
