import Relswap.Release.Extraction

/-!
# Creating and removing one file

What each file operation of an extraction leaves in the opened directory,
whichever of its steps fails.
-/

namespace Relswap

open Durable Durable.Program

namespace ExtractionHost

variable (H : ExtractionHost) {s t : Destination} {name : String} {role : MemberRole}
variable {bytes : Bytes} {e : FolderEntry}

/-- No entry has the name. -/
def Free (name : String) (s : Destination) : Prop := H.find name s.entries = none

/-- One more entry. -/
def added (name : String) (bytes : Bytes) (s : Destination) : Destination :=
  { s with entries := s.entries ++ [(name, .file bytes)] }

/-! ## One entry -/

variable {H}

theorem sameName_self (name : String) : H.sameName name name = true := beq_self_eq_true _

theorem Free.distinct (free : H.Free name s) : ∀ entry ∈ s.entries, H.sameName entry.1 name = false := by
  intro entry member
  have missed := List.find?_eq_none.mp free entry member
  simpa using missed

theorem Free.find_added (free : H.Free name s) :
    H.find name (added name bytes s).entries = some (name, .file bytes) := by
  change List.find? _ (s.entries ++ _) = _
  rw [List.find?_append]
  have none : s.entries.find? (fun entry => H.sameName entry.1 name) = none := free
  rw [none, Option.none_or, List.find?_cons_of_pos (by exact sameName_self name)]

theorem Free.createEntry (free : H.Free name s) :
    H.createEntry name s = .ok (added name [] s) := by
  rw [ExtractionHost.createEntry]
  have none : H.find name s.entries = none := free
  rw [none]
  rfl

theorem createEntry_error (taken : ¬ H.Free name s) :
    H.createEntry name s = .error (H.ioError .alreadyExists) := by
  rw [ExtractionHost.createEntry]
  cases found : H.find name s.entries with
  | none => exact absurd found taken
  | some entry => rfl

theorem Free.contents_added (free : H.Free name s) : H.contents name (added name bytes s) = bytes := by
  rw [contents]
  rw [free.find_added]

theorem Free.appendEntry (free : H.Free name s) (chunk : Bytes) :
    H.appendEntry name chunk (added name bytes s) = .ok (added name (bytes ++ chunk) s) := by
  rw [ExtractionHost.appendEntry]
  rw [free.contents_added]
  have kept : s.entries.map (fun entry => if H.sameName entry.1 name then
      (entry.1, FolderEntry.file (bytes ++ chunk)) else entry) = s.entries := by
    refine (List.map_congr_left fun entry member => ?_).trans (List.map_id' _)
    rw [free.distinct entry member]
    rfl
  simp only [added, List.map_append, kept, List.map_cons, List.map_nil, sameName_self, if_true]

/-- A file is removed from between the entries before and after it. -/
theorem Free.eraseEntry (free : H.Free name s) (bytes : Bytes)
    (later : List (String × FolderEntry))
    (distinct : ∀ entry ∈ later, H.sameName entry.1 name = false) (failed : List String) :
    H.eraseEntry name ⟨s.entries ++ (name, .file bytes) :: later, failed⟩ =
      .ok ⟨s.entries ++ later, failed⟩ := by
  have found : H.find name (s.entries ++ (name, .file bytes) :: later) =
      some (name, .file bytes) := by
    have none : s.entries.find? (fun entry => H.sameName entry.1 name) = none := free
    rw [find, List.find?_append, none, Option.none_or,
      List.find?_cons_of_pos (by exact sameName_self name)]
  have before : s.entries.filter (fun entry => !(H.sameName entry.1 name)) = s.entries := by
    apply List.filter_eq_self.mpr
    intro entry member
    rw [free.distinct entry member]
    rfl
  have after : later.filter (fun entry => !(H.sameName entry.1 name)) = later := by
    apply List.filter_eq_self.mpr
    intro entry member
    rw [distinct entry member]
    rfl
  simp only [ExtractionHost.eraseEntry, found, List.filter_append, before]
  rw [List.filter_cons_of_neg (by simp [sameName_self]), after]

/-- Two names in one directory are different. -/
theorem Free.symm {other : String} (free : H.Free other (added name bytes s)) :
    H.sameName other name = false := by
  have different := free.distinct (name, .file bytes) (by simp [added])
  rw [sameName, beq_eq_false_iff_ne] at different ⊢
  exact different.symm

theorem Free.eraseEntry_added (free : H.Free name s) (bytes : Bytes) :
    H.eraseEntry name (added name bytes s) = .ok s := by
  have erased := free.eraseEntry bytes [] (by simp) s.failedRemovals
  rw [List.append_nil] at erased
  exact erased

/-! ## Steps and removals -/

theorem exec_perform_ok {step : FileStep} (works : H.fails step = none) (s : Destination) :
    (H.perform step).exec s = (.ok (), s) := by
  rw [perform]
  rw [works]
  rfl

theorem exec_perform_error {step : FileStep} {failure : FileFailure}
    (fails : H.fails step = some failure) (s : Destination) :
    (H.perform step).exec s = (.error (.file failure), s) := by
  rw [perform]
  rw [fails]
  rfl

/-- A step changes nothing, and succeeds when the system allows it. -/
theorem ends_perform (step : FileStep) (s : Destination) :
    Ends (fun t => t = s ∧ H.fails step ≠ none) (fun _ t => t = s ∧ H.fails step = none)
      (H.perform step) s := by
  cases fails : H.fails step with
  | none =>
    rw [Ends, exec_perform_ok fails]
    exact ⟨rfl, rfl⟩
  | some failure =>
    rw [Ends, exec_perform_error fails]
    exact ⟨rfl, by simp⟩

theorem exec_removal {p : Extraction Unit} (name : String) (s : Destination) :
    (removal name p).exec s = match p.exec s with
      | (.ok _, t) => (.ok (), t)
      | (.error error, t) => (.error error, { t with failedRemovals := name :: t.failedRemovals }) := by
  rw [removal]
  rw [exec_bind, exec_attempt]
  generalize p.exec s = outcome
  obtain ⟨r, t⟩ := outcome
  cases r with
  | ok => rfl
  | error e => rfl

/-! ## Writing and reading back -/

variable (H) in
/-- No operation on the open file fails after its creation and inspection. -/
structure Verifies (role : MemberRole) (bytes : Bytes) : Prop where
  write : ∀ k < (H.chunks bytes).length, H.fails (.write role k) = none
  flush : H.fails (.flush role) = none
  sync : H.fails (.syncFile role) = none
  measure : H.fails (.measure role) = none
  rewind : H.fails (.rewind role) = none
  readBack : ∀ k < (H.chunks bytes).length + 1, H.fails (.readBack role k) = none

theorem forall_lt_succ {p : Nat → Prop} {n : Nat} :
    (∀ k < n + 1, p k) ↔ p 0 ∧ ∀ k < n, p (k + 1) := by
  constructor
  · intro h
    exact ⟨h 0 (Nat.succ_pos n), fun k less => h (k + 1) (Nat.succ_lt_succ less)⟩
  · intro h k less
    cases k with
    | zero => exact h.1
    | succ k => exact h.2 k (Nat.lt_of_succ_lt_succ less)

/-- Whatever fails, the new file holds some of the bytes. -/
theorem Free.ends_writeChunks (free : H.Free name s) (role : MemberRole) (pieces : List Bytes)
    (i : Nat) (written : Bytes) :
    Ends (fun t => (∃ x, t = added name x s) ∧
        ¬ ∀ k < pieces.length, H.fails (.write role (i + k)) = none)
      (fun _ t => t = added name (written ++ pieces.flatten) s ∧
        ∀ k < pieces.length, H.fails (.write role (i + k)) = none)
      (H.writeChunks role name i pieces) (added name written s) := by
  induction pieces generalizing i written with
  | nil =>
    apply Ends.pure
    simp
  | cons chunk rest ih =>
    rw [writeChunks]
    rw [List.length_cons]
    simp only [forall_lt_succ, Nat.add_zero]
    refine Ends.bind ((ends_perform _ _).mono (fun t h => ?_) fun _ _ h => h) fun _ t h => ?_
    · exact ⟨⟨written, h.1⟩, fun all => h.2 all.1⟩
    obtain ⟨rfl, works⟩ := h
    apply Ends.bind_succeeds (Succeeds.write (free.appendEntry chunk))
    refine (ih (i + 1) (written ++ chunk)).mono (fun t h => ?_) fun _ t h => ?_
    · refine ⟨h.1, fun all => h.2 fun k less => ?_⟩
      rw [Nat.add_right_comm]
      exact all.2 k less
    · refine ⟨?_, works, fun k less => ?_⟩
      · rw [h.1, List.flatten_cons, List.append_assoc]
      · have next := h.2 k less
        rw [Nat.add_right_comm] at next
        exact next

/-- Reading back what was written finds no difference. -/
theorem ends_compareChunks (role : MemberRole) (bytes : Bytes) (pieces : List Bytes) (i : Nat)
    (offset : Nat) (rest : pieces.flatten = bytes.drop offset) (inside : offset ≤ bytes.length)
    (s : Destination) :
    Ends (fun t => t = s ∧ ¬ ∀ k < pieces.length + 1, H.fails (.readBack role (i + k)) = none)
      (fun _ t => t = s ∧ ∀ k < pieces.length + 1, H.fails (.readBack role (i + k)) = none)
      (H.compareChunks role bytes i offset pieces) s := by
  induction pieces generalizing i offset with
  | nil =>
    have whole : offset = bytes.length := by
      have none : bytes.drop offset = [] := rest.symm
      rw [List.drop_eq_nil_iff] at none
      omega
    rw [compareChunks]
    refine Ends.bind ((ends_perform _ _).mono (fun t h => ?_) fun _ _ h => h) fun _ t h => ?_
    · exact ⟨h.1, fun all => h.2 (all 0 (by simp))⟩
    obtain ⟨rfl, works⟩ := h
    refine Ends.succeeds (Succeeds.require whole) ⟨rfl, fun k less => ?_⟩
    obtain rfl : k = 0 := by simpa using less
    exact works
  | cons chunk pieces ih =>
    have here : (bytes.drop offset).take chunk.length = chunk := by
      rw [← rest, List.flatten_cons, List.take_left']
      rfl
    have next : pieces.flatten = bytes.drop (offset + chunk.length) := by
      rw [← List.drop_drop, ← rest, List.flatten_cons, List.drop_left']
      rfl
    have fits : offset + chunk.length ≤ bytes.length := by
      have length := congrArg List.length here
      rw [List.length_take, List.length_drop] at length
      omega
    rw [compareChunks]
    rw [List.length_cons, forall_lt_succ, Nat.add_zero]
    refine Ends.bind ((ends_perform _ _).mono (fun t h => ?_) fun _ _ h => h) fun _ t h => ?_
    · exact ⟨h.1, fun all => h.2 all.1⟩
    obtain ⟨rfl, works⟩ := h
    apply Ends.bind_succeeds (Succeeds.require here)
    refine (ih (i + 1) _ next fits).mono (fun t h => ?_) fun _ t h => ?_
    · refine ⟨h.1, fun all => h.2 fun k less => ?_⟩
      rw [Nat.add_right_comm]
      exact all.2 k less
    · refine ⟨h.1, works, fun k less => ?_⟩
      have later := h.2 k less
      rw [Nat.add_right_comm] at later
      exact later

theorem Free.ends_verify (free : H.Free name s) (role : MemberRole) (bytes : Bytes) :
    Ends (fun t => (∃ x, t = added name x s) ∧ ¬ H.Verifies role bytes)
      (fun _ t => t = added name bytes s ∧ H.Verifies role bytes)
      (H.verifyNewFileContents role name bytes) (added name [] s) := by
  rw [verifyNewFileContents]
  have step : ∀ (step : FileStep), (H.Verifies role bytes → H.fails step = none) →
      Ends (fun t => (∃ x, t = added name x s) ∧ ¬ H.Verifies role bytes)
        (fun _ t => t = added name bytes s ∧ H.fails step = none) (H.perform step)
        (added name bytes s) := by
    intro step needed
    exact (ends_perform step _).mono
      (fun t h => ⟨⟨bytes, h.1⟩, fun all => h.2 (needed all)⟩) fun _ _ h => h
  refine Ends.bind ((free.ends_writeChunks role (H.chunks bytes) 0 []).mono (fun t h => ?_)
    fun _ _ h => h) fun _ t written => ?_
  · refine ⟨h.1, fun all => h.2 fun k less => ?_⟩
    rw [Nat.zero_add]
    exact all.write k less
  rw [List.nil_append, H.chunks_flatten] at written
  obtain ⟨rfl, write⟩ := written
  refine Ends.bind (step _ Verifies.flush) fun _ t flush => ?_
  obtain ⟨rfl, flush⟩ := flush
  refine Ends.bind (step _ Verifies.sync) fun _ t sync => ?_
  obtain ⟨rfl, sync⟩ := sync
  refine Ends.bind (step _ Verifies.measure) fun _ t measure => ?_
  obtain ⟨rfl, measure⟩ := measure
  apply Ends.bind_succeeds Succeeds.get
  rw [free.contents_added]
  apply Ends.bind_succeeds (Succeeds.require rfl)
  refine Ends.bind (step _ Verifies.rewind) fun _ t rewind => ?_
  obtain ⟨rfl, rewind⟩ := rewind
  refine (ends_compareChunks role bytes (H.chunks bytes) 0 0 (H.chunks_flatten bytes)
    (Nat.zero_le _) _).mono (fun t h => ?_) fun _ t h => ?_
  · refine ⟨⟨bytes, h.1⟩, fun all => h.2 fun k less => ?_⟩
    rw [Nat.zero_add]
    exact all.readBack k less
  · simp only [Nat.zero_add] at write h
    exact ⟨h.1, write, flush, sync, measure, rewind, h.2⟩

/-! ## Creating and removing -/

variable (H) in
/-- A file can be created under the name, and written completely. -/
structure Creates (role : MemberRole) (name : String) (bytes : Bytes) (s : Destination) : Prop where
  safe : isSafeBasename name (H.platform = .windows) = true
  free : H.Free name s
  create : H.fails (.create role) = none
  inspect : H.fails (.inspect role) = none
  setMode : H.platform = .unix → H.fails (.setMode role) = none
  verifies : H.Verifies role bytes
  syncDirectory : H.platform = .unix → H.fails (.syncDirectory role) = none

variable (H) in
/-- A Windows file that is created and then cannot be inspected. -/
structure Strands (role : MemberRole) (name : String) (s : Destination) : Prop where
  windows : H.platform = .windows
  safe : isSafeBasename name (H.platform = .windows) = true
  free : H.Free name s
  create : H.fails (.create role) = none
  inspect : H.fails (.inspect role) ≠ none

variable (H) in
structure Removes (role : MemberRole) (name : String) : Prop where
  safe : isSafeBasename name (H.platform = .windows) = true
  remove : H.fails (.remove role) = none
  sync : H.platform = .unix → H.fails (.syncRemoval role) = none

variable (H) in
/-- Nothing is left of a failed creation, unless its removal failed. -/
def Undone (name : String) (s t : Destination) : Prop :=
  t = s ∨ H.Free name s ∧
    ∃ x, t = { added name x s with failedRemovals := name :: s.failedRemovals }

variable (H) in
/-- How a failed creation ends. -/
def Abandoned (role : MemberRole) (name : String) (bytes : Bytes) (s t : Destination) : Prop :=
  ¬ H.Creates role name bytes s ∧
    (¬ H.Strands role name s ∧ H.Undone name s t ∨
      H.Strands role name s ∧ t = added name [] s)

theorem Free.ends_discard (free : H.Free name s) (role : MemberRole) (x : Bytes) :
    Ends (H.Undone name s) (fun _ t => t = s) (H.discard role name) (added name x s) := by
  rw [discard]
  rw [Ends, exec_removal]
  cases fails : H.fails (.discard role) with
  | none =>
    rw [exec_bind, exec_perform_ok fails]
    dsimp only
    rw [exec_write_ok (free.eraseEntry_added x)]
  | some failure =>
    rw [exec_bind, exec_perform_error fails]
    exact .inr ⟨free, x, rfl⟩

/-- After a failure the new file is discarded. -/
theorem Free.ends_createNewFileAtUnix (free : H.Free name s) (unix : H.platform = .unix)
    (safe : isSafeBasename name (H.platform = .windows) = true) (role : MemberRole)
    (bytes : Bytes) :
    Ends (H.Abandoned role name bytes s)
      (fun _ t => t = added name bytes s ∧ H.Creates role name bytes s)
      (H.createNewFileAtUnix role name bytes) s := by
  have noStrand : ¬ H.Strands role name s := by
    intro strands
    have windows := strands.windows
    rw [unix] at windows
    cases windows
  rw [createNewFileAtUnix]
  refine Ends.bind ((ends_perform _ _).mono (fun t h => ?_) fun _ _ h => h) fun _ t h => ?_
  · exact ⟨fun creates => h.2 creates.create, .inl ⟨noStrand, .inl h.1⟩⟩
  obtain ⟨rfl, create⟩ := h
  apply Ends.bind_succeeds (Succeeds.write free.createEntry)
  have body : Ends (fun u => (∃ x, u = added name x t) ∧ ¬ H.Creates role name bytes t)
      (fun _ u => u = added name bytes t ∧ H.Creates role name bytes t) (do
        H.perform (.inspect role)
        H.perform (.setMode role)
        H.verifyNewFileContents role name bytes
        H.perform (.syncDirectory role)) (added name [] t) := by
    refine Ends.bind ((ends_perform _ _).mono (fun u h => ?_) fun _ _ h => h) fun _ u h => ?_
    · exact ⟨⟨[], h.1⟩, fun creates => h.2 creates.inspect⟩
    obtain ⟨rfl, inspect⟩ := h
    refine Ends.bind ((ends_perform _ _).mono (fun u h => ?_) fun _ _ h => h) fun _ u h => ?_
    · exact ⟨⟨[], h.1⟩, fun creates => h.2 (creates.setMode unix)⟩
    obtain ⟨rfl, setMode⟩ := h
    refine Ends.bind ((free.ends_verify role bytes).mono (fun u h => ?_) fun _ _ h => h)
      fun _ u h => ?_
    · exact ⟨h.1, fun creates => h.2 creates.verifies⟩
    obtain ⟨rfl, verifies⟩ := h
    refine (ends_perform _ _).mono (fun u h => ?_) fun _ u h => ?_
    · exact ⟨⟨bytes, h.1⟩, fun creates => h.2 (creates.syncDirectory unix)⟩
    · exact ⟨h.1, safe, free, create, inspect, fun _ => setMode, verifies, fun _ => h.2⟩
  refine Ends.bind_attempt body (fun e u h => ?_) fun _ u h => ?_
  · obtain ⟨⟨x, rfl⟩, fails⟩ := h
    refine Ends.bind_attempt (free.ends_discard role x) (fun _ u undone => ?_) fun _ u same => ?_
    · exact Ends.throw ⟨fails, .inl ⟨noStrand, undone⟩⟩
    · exact Ends.throw ⟨fails, .inl ⟨noStrand, .inl same⟩⟩
  · exact Ends.pure h

/-- A file that cannot be inspected stays; after a later failure it is discarded. -/
theorem Free.ends_createNewFileAtWindows (free : H.Free name s) (windows : H.platform = .windows)
    (safe : isSafeBasename name (H.platform = .windows) = true) (role : MemberRole)
    (bytes : Bytes) :
    Ends (H.Abandoned role name bytes s)
      (fun _ t => t = added name bytes s ∧ H.Creates role name bytes s)
      (H.createNewFileAtWindows role name bytes) s := by
  have notUnix : H.platform ≠ .unix := by
    rw [windows]
    simp
  rw [createNewFileAtWindows]
  refine Ends.bind ((ends_perform _ _).mono (fun t h => ?_) fun _ _ h => h) fun _ t h => ?_
  · exact ⟨fun creates => h.2 creates.create, .inl ⟨fun strands => h.2 strands.create, .inl h.1⟩⟩
  obtain ⟨rfl, create⟩ := h
  apply Ends.bind_succeeds (Succeeds.write free.createEntry)
  refine Ends.bind ((ends_perform _ _).mono (fun u h => ?_) fun _ _ h => h) fun _ u h => ?_
  · exact ⟨fun creates => h.2 creates.inspect, .inr ⟨⟨windows, safe, free, create, h.2⟩, h.1⟩⟩
  obtain ⟨rfl, inspect⟩ := h
  have noStrand : ¬ H.Strands role name t := fun strands => strands.inspect inspect
  refine Ends.bind_attempt (free.ends_verify role bytes) (fun e u h => ?_) fun _ u h => ?_
  · obtain ⟨⟨x, rfl⟩, fails⟩ := h
    have failed : ¬ H.Creates role name bytes t := fun creates => fails creates.verifies
    refine Ends.bind_attempt (free.ends_discard role x) (fun _ u undone => ?_) fun _ u same => ?_
    · exact Ends.throw ⟨failed, .inl ⟨noStrand, undone⟩⟩
    · exact Ends.throw ⟨failed, .inl ⟨noStrand, .inl same⟩⟩
  · exact Ends.pure ⟨h.1, safe, free, create, inspect, fun unix => absurd unix notUnix, h.2,
      fun unix => absurd unix notUnix⟩

/-- A taken name is refused by the file system. -/
theorem ends_create_taken (taken : ¬ H.Free name s) (role : MemberRole)
    (next : Unit → Extraction Unit) :
    Ends (fun t => t = s) (fun _ _ => False) (do
      H.perform (.create role)
      next (← write (H.createEntry name))) s := by
  refine Ends.bind ((ends_perform _ _).mono (fun t h => h.1) fun _ _ h => h) fun _ t h => ?_
  obtain ⟨rfl, _⟩ := h
  refine Ends.bind (M := fun _ _ => False) ?_ fun _ _ never => never.elim
  apply Ends.write
  · intro _ _
    rfl
  · intro u created
    rw [createEntry_error taken] at created
    cases created

theorem ends_createNewFile (role : MemberRole) (name : String) (bytes : Bytes) (s : Destination) :
    Ends (H.Abandoned role name bytes s)
      (fun _ t => t = added name bytes s ∧ H.Creates role name bytes s)
      (H.createNewFile role name bytes) s := by
  rw [createNewFile]
  by_cases safe : isSafeBasename name (H.platform = .windows) = true
  · apply Ends.bind_succeeds (Succeeds.require safe)
    by_cases free : H.Free name s
    · cases platform : H.platform with
      | unix => exact free.ends_createNewFileAtUnix platform safe role bytes
      | windows => exact free.ends_createNewFileAtWindows platform safe role bytes
    · have refused : ∀ t, t = s → H.Abandoned role name bytes s t := fun t same =>
        ⟨fun creates => free creates.free, .inl ⟨fun strands => free strands.free, .inl same⟩⟩
      cases H.platform with
      | unix => exact (ends_create_taken free role _).mono refused fun _ _ never => never.elim
      | windows => exact (ends_create_taken free role _).mono refused fun _ _ never => never.elim
  · have refused : H.Abandoned role name bytes s s :=
      ⟨fun creates => safe creates.safe, .inl ⟨fun strands => safe strands.safe, .inl rfl⟩⟩
    rw [require]
    rw [if_neg safe]
    exact Ends.throw refused

end ExtractionHost

end Relswap
