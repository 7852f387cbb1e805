import Relswap.Proof.Extraction
import Relswap.Sample.World

/-!
# Extraction is all or nothing

A run of the extraction either adds exactly the verified members to the opened
directory or leaves its entries as they were, unless a removal fails. The one
exception is a new file that Windows cannot inspect, which stays behind.
-/

namespace Relswap

open Durable Durable.Program

namespace ExtractionHost

variable {H : ExtractionHost} {s t : Destination} {name payloadName : String} {role : MemberRole}
variable {bytes : Bytes} {payload member : VerifiedMember}
variable {launcher : Option (VerifiedMember × String)}

/-! ## The two members -/

/-- The entries that a complete extraction adds. -/
def memberEntries (payload : VerifiedMember) (payloadName : String) :
    Option (VerifiedMember × String) → List (String × FolderEntry)
  | none => [(payloadName, .file payload.data)]
  | some (member, name) => [(payloadName, .file payload.data), (name, .file member.data)]

variable (H) in
/-- The run reaches a creation on Windows whose new file cannot be inspected, and the
payload, if it was complete by then, is removed. -/
def StrandsMember (payload : VerifiedMember) (payloadName : String)
    (launcher : Option (VerifiedMember × String)) (s : Destination) : Prop :=
  H.Strands .payload payloadName s ∨ ∃ member name, launcher = some (member, name) ∧
    H.Creates .payload payloadName payload.data s ∧
    H.Strands .launcher name (added payloadName payload.data s) ∧ H.Removes .payload payloadName

/-- What a failed run leaves. -/
structure Failed (strands : Prop) (s t : Destination) : Prop where
  kept : s.entries <+: t.entries
  clean : ¬ strands → t.failedRemovals = s.failedRemovals → t.entries = s.entries
  stranded : strands → t.failedRemovals = s.failedRemovals ∧ t.entries ≠ s.entries

theorem ends_writeMember (role : MemberRole) (member : VerifiedMember) (name : String)
    (s : Destination) :
    Ends (H.Abandoned role name member.data s)
      (fun path t => path = H.destination.join name ∧ t = added name member.data s ∧
        H.Creates role name member.data s)
      (H.writeMember role member name) s := by
  rw [writeMember]
  refine Ends.bind_attempt (ends_createNewFile role name member.data s) (fun _ t h => ?_)
    fun _ t h => ?_
  · exact Ends.throw h
  · exact Ends.pure ⟨rfl, h⟩

/-- A state in which one more removal has failed. -/
def noted (name : String) (s : Destination) : Destination :=
  { s with failedRemovals := name :: s.failedRemovals }

theorem ends_removal {E : Destination → Prop} {Q : Unit → Destination → Prop}
    {p : Extraction Unit} (name : String) (h : Ends E Q p s) :
    Ends (fun u => ∃ t, E t ∧ u = noted name t) Q (removal name p) s := by
  rw [removal]
  refine Ends.bind_attempt h (fun _ t failed => ?_) fun _ t done => ?_
  · exact Ends.bind_succeeds (Succeeds.write rfl) (Ends.throw ⟨t, failed, rfl⟩)
  · exact Ends.pure done

/-- A removal erases the entry, or is noted as failed. -/
theorem ends_removeFile (role : MemberRole) (name : String) {s t : Destination}
    (erases : H.eraseEntry name s = .ok t) :
    Ends (fun u => ∃ v, ((v = s ∨ v = t) ∧ ¬ H.Removes role name) ∧ u = noted name v)
      (fun _ u => u = t ∧ H.Removes role name) (H.removeFile role name) s := by
  rw [removeFile]
  apply ends_removal
  by_cases safe : isSafeBasename name (H.platform = .windows) = true
  · apply Ends.bind_succeeds (Succeeds.require safe)
    refine Ends.bind ((ends_perform _ _).mono (fun u h => ?_) fun _ _ h => h) fun _ u h => ?_
    · exact ⟨.inl h.1, fun removes => h.2 removes.remove⟩
    obtain ⟨rfl, remove⟩ := h
    apply Ends.bind_succeeds (Succeeds.write erases)
    by_cases unix : H.platform = .unix
    · rw [onlyIf]
      rw [if_pos unix]
      refine (ends_perform _ _).mono (fun u h => ?_) fun _ u h => ?_
      · exact ⟨.inr h.1, fun removes => h.2 (removes.sync unix)⟩
      · exact ⟨h.1, safe, remove, fun _ => h.2⟩
    · rw [onlyIf]
      rw [if_neg unix]
      exact Ends.pure ⟨rfl, safe, remove, fun same => absurd same unix⟩
  · rw [require]
    rw [if_neg safe]
    exact Ends.throw ⟨.inl rfl, fun removes => safe removes.safe⟩

/-! ## Rolling back -/

/-- A failed removal leaves a note, so that nothing is claimed about the entries. -/
theorem Failed.noted {strands : Prop} (none : ¬ strands) (kept : s.entries <+: t.entries)
    (failed : t.failedRemovals.length > s.failedRemovals.length) : Failed strands s t := by
  refine ⟨kept, fun _ same => ?_, fun h => absurd h none⟩
  rw [same] at failed
  exact absurd failed (lt_irrefl _)

theorem Failed.same {strands : Prop} (none : ¬ strands) : Failed strands s s :=
  ⟨List.prefix_rfl, fun _ _ => rfl, fun h => absurd h none⟩

/-- A launcher that could not be written takes the payload with it. -/
theorem ends_rollback (creates : H.Creates .payload payloadName payload.data s)
    (abandoned : H.Abandoned .launcher name member.data
      (added payloadName payload.data s) t) (error : ExtractError) :
    Ends (Failed (H.Strands .launcher name (added payloadName payload.data s) ∧
        H.Removes .payload payloadName) s) (fun _ _ => False) (do
      match ← Program.attempt (H.removeFile .payload payloadName) with
      | .ok _ => Program.throw error
      | .error failure =>
        Program.throw (.release (.archive
          (H.errorText error ++ "; payload rollback failed: " ++ H.errorText failure))) :
        Extraction (Option FsPath)) t := by
  have free := creates.free
  obtain ⟨_, ⟨noStrand, rfl | ⟨free', x, rfl⟩⟩ | ⟨strands, rfl⟩⟩ := abandoned
  · -- nothing is left of the launcher
    have none : ¬ (H.Strands .launcher name (added payloadName payload.data s) ∧
        H.Removes .payload payloadName) := fun both => noStrand both.1
    refine Ends.bind_attempt (ends_removeFile .payload payloadName
      (free.eraseEntry_added payload.data)) (fun _ u h => ?_) fun _ u h => ?_
    · obtain ⟨v, ⟨rfl | rfl, _⟩, rfl⟩ := h
      · exact Ends.throw (.noted none (List.prefix_append _ _) (Nat.lt_succ_self _))
      · exact Ends.throw (.noted none List.prefix_rfl (Nat.lt_succ_self _))
    · rw [h.1]
      exact Ends.throw (.same none)
  · -- the launcher could not be removed, which is noted already
    have none : ¬ (H.Strands .launcher name (added payloadName payload.data s) ∧
        H.Removes .payload payloadName) := fun both => noStrand both.1
    have erases := free.eraseEntry payload.data [(name, .file x)] (by simpa using free'.symm)
      (name :: s.failedRemovals)
    have shape : { added name x (added payloadName payload.data s) with
        failedRemovals := name :: (added payloadName payload.data s).failedRemovals } =
        (⟨s.entries ++ (payloadName, .file payload.data) :: [(name, .file x)],
          name :: s.failedRemovals⟩ : Destination) := by
      simp [added]
    rw [shape]
    refine Ends.bind_attempt (ends_removeFile .payload payloadName erases) (fun _ u h => ?_)
      fun _ u h => ?_
    · obtain ⟨v, ⟨rfl | rfl, _⟩, rfl⟩ := h
      · exact Ends.throw (.noted none (List.prefix_append _ _) (by simp [noted]))
      · exact Ends.throw (.noted none (List.prefix_append _ _) (by simp [noted]))
    · rw [h.1]
      exact Ends.throw (.noted none (List.prefix_append _ _) (Nat.lt_succ_self _))
  · -- the launcher stays, and the payload goes if it can be removed
    have erases := free.eraseEntry payload.data [(name, .file [])]
      (by simpa using strands.free.symm) s.failedRemovals
    have shape : added name [] (added payloadName payload.data s) =
        (⟨s.entries ++ (payloadName, .file payload.data) :: [(name, .file [])],
          s.failedRemovals⟩ : Destination) := by
      simp [added]
    rw [shape]
    refine Ends.bind_attempt (ends_removeFile .payload payloadName erases) (fun _ u h => ?_)
      fun _ u h => ?_
    · obtain ⟨v, ⟨same, stays⟩, rfl⟩ := h
      have none : ¬ (H.Strands .launcher name (added payloadName payload.data s) ∧
        H.Removes .payload payloadName) := fun both => stays both.2
      obtain rfl | rfl := same
      · exact Ends.throw (.noted none (List.prefix_append _ _) (Nat.lt_succ_self _))
      · exact Ends.throw (.noted none (List.prefix_append _ _) (Nat.lt_succ_self _))
    · rw [h.1]
      refine Ends.throw ⟨List.prefix_append _ _, fun none => ?_, fun _ => ⟨rfl, by simp⟩⟩
      exact absurd ⟨strands, h.2⟩ none

/-- The directory with both members. -/
def written (payload : VerifiedMember) (payloadName : String)
    (launcher : Option (VerifiedMember × String)) (s : Destination) : Destination :=
  { s with entries := s.entries ++ memberEntries payload payloadName launcher }

variable (H) in
/-- Every member has been created completely. -/
structure Written (payload : VerifiedMember) (payloadName : String)
    (launcher : Option (VerifiedMember × String)) (s : Destination) : Prop where
  first : H.Creates .payload payloadName payload.data s
  second : ∀ member name, launcher = some (member, name) →
    H.Creates .launcher name member.data (added payloadName payload.data s)

theorem ends_writeLauncher (creates : H.Creates .payload payloadName payload.data s)
    (launcher : Option (VerifiedMember × String)) :
    Ends (Failed (H.StrandsMember payload payloadName launcher s) s)
      (fun path t => path = launcher.map (fun named => H.destination.join named.2) ∧
        t = written payload payloadName launcher s ∧ H.Written payload payloadName launcher s)
      (H.writeLauncher payloadName launcher) (added payloadName payload.data s) := by
  simp only [writeLauncher]
  cases launcher with
  | none => exact Ends.pure ⟨rfl, rfl, creates, by simp⟩
  | some named =>
    obtain ⟨member, name⟩ := named
    have strands : H.StrandsMember payload payloadName (some (member, name)) s ↔
        H.Strands .launcher name (added payloadName payload.data s) ∧
          H.Removes .payload payloadName := by
      constructor
      · intro h
        obtain stranded | ⟨member', name', same, _, stranded, removes⟩ := h
        · exact absurd creates.inspect stranded.inspect
        · cases same
          exact ⟨stranded, removes⟩
      · intro h
        exact .inr ⟨member, name, rfl, creates, h⟩
    rw [strands]
    refine Ends.bind_attempt (ends_writeMember .launcher member name _) (fun error t h => ?_)
      fun path t h => ?_
    · exact (ends_rollback creates h error).mono (fun _ failed => failed) fun _ _ never => never.elim
    · obtain ⟨rfl, rfl, launches⟩ := h
      refine Ends.pure ⟨rfl, ?_, creates, ?_⟩
      · simp [written, added, memberEntries]
      · intro member' name' same
        cases same
        exact launches

/-- Cleaning up one member always ends, with the entry erased or a failure noted. -/
theorem Free.ends_cleanup (free : H.Free name s) (role : MemberRole) (bytes : Bytes)
    (later : List (String × FolderEntry))
    (distinct : ∀ entry ∈ later, H.sameName entry.1 name = false) (failed : List String) :
    Ends (fun _ => False)
      (fun _ u => u = ⟨s.entries ++ later, failed⟩ ∨
        u = ⟨s.entries ++ later, name :: failed⟩ ∨
        u = ⟨s.entries ++ (name, .file bytes) :: later, name :: failed⟩)
      (H.cleanup role name) ⟨s.entries ++ (name, .file bytes) :: later, failed⟩ := by
  rw [cleanup]
  refine Ends.bind_attempt (ends_removeFile role name (free.eraseEntry bytes later distinct failed))
    (fun _ u h => ?_) fun _ u h => ?_
  · obtain ⟨v, ⟨rfl | rfl, _⟩, rfl⟩ := h
    · exact Ends.pure (.inr (.inr rfl))
    · exact Ends.pure (.inr (.inl rfl))
  · exact Ends.pure (.inl h.1)

/-- Both members are taken out again. -/
theorem ends_takeBack (complete : H.Written payload payloadName launcher s) (reason : String) :
    Ends (Failed False s) (fun _ _ => False)
      (H.takeBack payloadName (launcher.map (·.2)) reason)
      (written payload payloadName launcher s) := by
  have free := complete.first.free
  simp only [takeBack]
  -- the payload goes last, after any number of failures
  have last : ∀ later failed errors, (∀ entry ∈ later, H.sameName entry.1 payloadName = false) →
      (failed = s.failedRemovals ∧ later = [] ∨ failed.length > s.failedRemovals.length) →
      Ends (Failed False s) (fun _ _ => False) (do
        let payloadErrors ← H.cleanup .payload payloadName
        let errors := errors ++ payloadErrors
        Program.throw (.release (.archive
          (if errors = [] then reason else reason ++ "; " ++ "; ".intercalate errors))) :
          Extraction Unit)
        ⟨s.entries ++ (payloadName, .file payload.data) :: later, failed⟩ := by
    intro later failed errors distinct noted
    refine Ends.bind ((free.ends_cleanup .payload payload.data later distinct failed).mono
      (fun _ never => never.elim) fun _ _ h => h) fun _ u h => Ends.throw ?_
    obtain rfl | rfl | rfl := h
    · obtain ⟨rfl, rfl⟩ | more := noted
      · rw [List.append_nil]
        exact .same not_false
      · exact .noted not_false (List.prefix_append _ _) more
    · apply Failed.noted not_false (List.prefix_append _ _)
      obtain ⟨rfl, _⟩ | more := noted
      · exact Nat.lt_succ_self _
      · exact Nat.lt_succ_of_lt more
    · apply Failed.noted not_false (List.prefix_append _ _)
      obtain ⟨rfl, _⟩ | more := noted
      · exact Nat.lt_succ_self _
      · exact Nat.lt_succ_of_lt more
  cases launcher with
  | none => exact last [] s.failedRemovals [] (by simp) (.inl ⟨rfl, rfl⟩)
  | some named =>
    obtain ⟨member, name⟩ := named
    have launches := complete.second member name rfl
    have both : written payload payloadName (some (member, name)) s =
        ⟨(added payloadName payload.data s).entries ++ [(name, .file member.data)],
          s.failedRemovals⟩ := by
      simp [written, memberEntries, added]
    rw [both]
    refine Ends.bind ((launches.free.ends_cleanup .launcher member.data [] (by simp)
      s.failedRemovals).mono (fun _ never => never.elim) fun _ _ h => h) fun errors u h => ?_
    have distinct : H.sameName name payloadName = false := launches.free.symm
    obtain rfl | rfl | rfl := h
    · rw [List.append_nil]
      exact last [] s.failedRemovals errors (by simp) (.inl ⟨rfl, rfl⟩)
    · rw [List.append_nil]
      exact last [] (name :: s.failedRemovals) errors (by simp) (.inr (Nat.lt_succ_self _))
    · have shape : (added payloadName payload.data s).entries ++ [(name, .file member.data)] =
          s.entries ++ (payloadName, .file payload.data) :: [(name, .file member.data)] := by
        simp [added]
      rw [shape]
      exact last [(name, .file member.data)] (name :: s.failedRemovals) errors
        (by simpa using distinct) (.inr (Nat.lt_succ_self _))

theorem ends_revalidate (complete : H.Written payload payloadName launcher s) :
    Ends (Failed False s) (fun _ t => t = written payload payloadName launcher s)
      (H.revalidate payloadName (launcher.map (·.2))) (written payload payloadName launcher s) := by
  rw [revalidate]
  split
  · exact (ends_takeBack complete _).mono (fun _ h => h) fun _ _ never => never.elim
  · split
    · exact Ends.pure rfl
    · exact (ends_takeBack complete _).mono (fun _ h => h) fun _ _ never => never.elim

theorem Written.not_strands (complete : H.Written payload payloadName launcher s) :
    ¬ H.StrandsMember payload payloadName launcher s := by
  intro strands
  obtain stranded | ⟨member, name, same, _, stranded, _⟩ := strands
  · exact stranded.inspect complete.first.inspect
  · exact stranded.inspect (complete.second member name same).inspect

/-- A payload that could not be written ends the run. -/
theorem Abandoned.failed (abandoned : H.Abandoned .payload payloadName payload.data s t)
    (launcher : Option (VerifiedMember × String)) :
    Failed (H.StrandsMember payload payloadName launcher s) s t := by
  obtain ⟨incomplete, ⟨noStrand, undone⟩ | ⟨strands, rfl⟩⟩ := abandoned
  · have none : ¬ H.StrandsMember payload payloadName launcher s := by
      intro h
      obtain stranded | ⟨_, _, _, creates, _⟩ := h
      · exact noStrand stranded
      · exact incomplete creates
    obtain rfl | ⟨_, x, rfl⟩ := undone
    · exact .same none
    · exact .noted none (List.prefix_append _ _) (Nat.lt_succ_self _)
  · refine ⟨List.prefix_append _ _, fun none => absurd (.inl strands) none, fun _ => ⟨rfl, ?_⟩⟩
    simp [added]

theorem ends_writeMembers (payload : VerifiedMember) (payloadName : String)
    (launcher : Option (VerifiedMember × String)) (s : Destination) :
    Ends (Failed (H.StrandsMember payload payloadName launcher s) s)
      (fun paths t => paths = ⟨H.destination.join payloadName,
          launcher.map fun named => H.destination.join named.2⟩ ∧
        t = written payload payloadName launcher s ∧
        ¬ H.StrandsMember payload payloadName launcher s)
      (H.writeMembers payload payloadName launcher) s := by
  rw [writeMembers]
  refine Ends.bind ((ends_writeMember .payload payload payloadName s).mono
    (fun t h => h.failed launcher) fun _ _ h => h) fun path t h => ?_
  obtain ⟨rfl, rfl, creates⟩ := h
  refine Ends.bind (ends_writeLauncher creates launcher) fun launcherPath t h => ?_
  obtain ⟨rfl, rfl, complete⟩ := h
  have none := complete.not_strands
  refine Ends.bind ((ends_revalidate complete).mono (fun t h => ?_) fun _ _ h => h) fun _ t h => ?_
  · exact ⟨h.kept, fun _ => h.clean not_false, fun strands => absurd strands none⟩
  · exact Ends.pure ⟨rfl, h, none⟩

/-! ## The whole extraction -/

variable {V : Type} [SemVer V] [Crates V]

variable (V) in
/-- What the extraction promises about the directory it opened. -/
structure AllOrNothing (H : ExtractionHost) (app : App) (bytes : Bytes) (asset : ReleaseAsset)
    (before : Destination) (outcome : Except ExtractError ExtractedPaths × Destination) :
    Prop where
  /-- Success adds exactly the members, under their fixed names. -/
  all : ∀ paths, outcome.1 = .ok paths → ∃ release target launcher,
    inspectArchive V app bytes asset = .ok release ∧ targetFromAsset V app asset = .ok target ∧
    namedLauncher app target release.launcher = .ok launcher ∧
    paths = ⟨H.destination.join (target.payloadName app),
      launcher.map fun named => H.destination.join named.2⟩ ∧
    outcome.2.entries =
      before.entries ++ memberEntries release.payload (target.payloadName app) launcher
  /-- Failure changes nothing, unless a removal has failed. -/
  nothing : ∀ error, outcome.1 = .error error →
    outcome.2.failedRemovals = before.failedRemovals → outcome.2.entries = before.entries
  kept : before.entries <+: outcome.2.entries

variable (V H) in
/-- Windows creates the payload or the launcher and cannot inspect the new file. -/
def StrandsFile (app : App) (bytes : Bytes) (asset : ReleaseAsset) (before : Destination) : Prop :=
  ∃ release target launcher, inspectArchive V app bytes asset = .ok release ∧
    targetFromAsset V app asset = .ok target ∧ H.fails .openDestination = none ∧
    namedLauncher app target release.launcher = .ok launcher ∧
    H.StrandsMember release.payload (target.payloadName app) launcher before

theorem ends_openDestination (s : Destination) :
    Ends (fun t => t = s ∧ H.fails .openDestination ≠ none)
      (fun _ t => t = s ∧ H.fails .openDestination = none) H.openDestination s := by
  rw [openDestination]
  exact Ends.bind_attempt (ends_perform _ s) (fun _ _ h => Ends.throw h) fun _ _ h => Ends.pure h

theorem ends_extractArchive (app : App) (bytes : Bytes) (asset : ReleaseAsset)
    (before : Destination) :
    Ends (Failed (H.StrandsFile V app bytes asset before) before)
      (fun paths t => ¬ H.StrandsFile V app bytes asset before ∧ ∃ release target launcher,
        inspectArchive V app bytes asset = .ok release ∧ targetFromAsset V app asset = .ok target ∧
        namedLauncher app target release.launcher = .ok launcher ∧
        paths = ⟨H.destination.join (target.payloadName app),
          launcher.map fun named => H.destination.join named.2⟩ ∧
        t = written release.payload (target.payloadName app) launcher before)
      (H.extractArchive V app bytes asset) before := by
  rw [extractArchive]
  cases inspected : inspectArchive V app bytes asset with
  | error e =>
    apply Ends.throw
    apply Failed.same
    intro strands
    obtain ⟨release, _, _, ok, _⟩ := strands
    rw [inspected] at ok
    cases ok
  | ok release =>
    apply Ends.bind_succeeds (Succeeds.ofExcept rfl)
    cases targeted : targetFromAsset V app asset with
    | error e =>
      apply Ends.throw
      apply Failed.same
      intro strands
      obtain ⟨_, target, _, _, ok, _⟩ := strands
      rw [targeted] at ok
      cases ok
    | ok target =>
      apply Ends.bind_succeeds (Succeeds.ofExcept rfl)
      refine Ends.bind ((ends_openDestination before).mono (fun t h => ?_) fun _ _ h => h)
        fun _ t h => ?_
      · rw [h.1]
        apply Failed.same
        intro strands
        obtain ⟨_, _, _, _, _, opened, _⟩ := strands
        exact h.2 opened
      obtain ⟨rfl, opened⟩ := h
      cases named : namedLauncher app target release.launcher with
      | error e =>
        apply Ends.throw
        apply Failed.same
        intro strands
        obtain ⟨release', target', launcher, ok, ok', _, ok'', _⟩ := strands
        cases inspected.symm.trans ok
        cases targeted.symm.trans ok'
        rw [named] at ok''
        cases ok''
      | ok launcher =>
        have strands : H.StrandsFile V app bytes asset t ↔
            H.StrandsMember release.payload (target.payloadName app) launcher t := by
          constructor
          · intro h
            obtain ⟨release', target', launcher', ok, ok', _, ok'', strands⟩ := h
            cases inspected.symm.trans ok
            cases targeted.symm.trans ok'
            cases named.symm.trans ok''
            exact strands
          · intro h
            exact ⟨release, target, launcher, inspected, targeted, opened, named, h⟩
        rw [strands]
        apply Ends.bind_succeeds (Succeeds.ofExcept rfl)
        refine (ends_writeMembers _ _ _ _).mono (fun _ h => h) fun paths u h => ?_
        exact ⟨h.2.2, release, target, launcher, rfl, rfl, named, h.1, h.2.1⟩

/-- Extraction is all or nothing, whatever operation fails, exactly when it does not come
to a new file on Windows that cannot be inspected. In every case the entries that were
there before are kept. -/
theorem extraction_all_or_nothing (H : ExtractionHost) (app : App) (bytes : Bytes)
    (asset : ReleaseAsset) (before : Destination) :
    (AllOrNothing V H app bytes asset before ((H.extractArchive V app bytes asset).exec before) ↔
        ¬ H.StrandsFile V app bytes asset before) ∧
      before.entries <+: ((H.extractArchive V app bytes asset).exec before).2.entries := by
  have ends := ends_extractArchive (V := V) (H := H) app bytes asset before
  rw [Ends] at ends
  generalize (H.extractArchive V app bytes asset).exec before = outcome at ends ⊢
  obtain ⟨r, t⟩ := outcome
  cases r with
  | ok paths =>
    obtain ⟨none, release, target, launcher, inspected, targeted, named, rfl, rfl⟩ := ends
    refine ⟨⟨fun _ => none, fun _ => ⟨?_, ?_, List.prefix_append _ _⟩⟩, List.prefix_append _ _⟩
    · intro paths same
      cases same
      exact ⟨release, target, launcher, inspected, targeted, named, rfl, rfl⟩
    · intro error same
      cases same
  | error e =>
    refine ⟨⟨fun promised strands => ?_, fun none => ⟨?_, ?_, ends.kept⟩⟩, ends.kept⟩
    · obtain ⟨same, changed⟩ := ends.stranded strands
      exact changed (promised.nothing e rfl same)
    · intro paths same
      cases same
    · intro _ _ same
      exact ends.clean none same

end ExtractionHost

section Sample

open Sample

/-- A Windows file system that refuses one operation. -/
def refusing (refused : FileStep) : ExtractionHost where
  platform := .windows
  destination := windowsRoot
  fails step := if step = refused then some ⟨.injected, "device error"⟩ else none
  sameDirectory := true
  foldCase := id
  chunks bytes := if bytes = [] then [] else [bytes]
  ioText _ := "I/O error"
  chunks_flatten bytes := by
    split
    · rename_i empty
      rw [empty]
      rfl
    · simp

/-- A directory with one file of the user. -/
def userFolder : Destination := ⟨[("notes.txt", .file [7])], []⟩

/-- The payload stays behind when its metadata cannot be read after it was created. -/
theorem uninspected_payload_stays :
    ¬ ExtractionHost.AllOrNothing Edition (refusing (.inspect .payload)) (Sample.app windowsTarget)
      (archiveBytes secondRelease) (Sample.asset windowsTarget secondRelease) userFolder
      (((refusing (.inspect .payload)).extractArchive Edition (Sample.app windowsTarget)
        (archiveBytes secondRelease) (Sample.asset windowsTarget secondRelease)).exec
        userFolder) := by
  intro promised
  have failed : (((refusing (.inspect .payload)).extractArchive Edition (Sample.app windowsTarget)
      (archiveBytes secondRelease) (Sample.asset windowsTarget secondRelease)).exec
      userFolder).1.toOption = none := by decide +kernel
  have left : (((refusing (.inspect .payload)).extractArchive Edition (Sample.app windowsTarget)
      (archiveBytes secondRelease) (Sample.asset windowsTarget secondRelease)).exec
      userFolder).2 = ⟨[("notes.txt", .file [7]), ("app.exe", .file [])], []⟩ := by decide +kernel
  generalize ((refusing (.inspect .payload)).extractArchive Edition (Sample.app windowsTarget)
    (archiveBytes secondRelease) (Sample.asset windowsTarget secondRelease)).exec
    userFolder = outcome at promised failed left
  obtain ⟨r, t⟩ := outcome
  cases r with
  | ok paths => cases failed
  | error e =>
    obtain rfl := left
    have same := promised.nothing e rfl rfl
    have length := congrArg List.length same
    simp [userFolder] at length

end Sample

end Relswap
