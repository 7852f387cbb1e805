import Relswap.Proof.Activation

/-!
# The invariant of an installation

`Inv` relates the journal, the selector and `install.json`, and says that
whatever they name is retained. It holds of a disk on which nothing has been
installed, and every effect preserves it, whoever performs it.
-/

namespace Relswap

open Durable Durable.Program Disk

/-- The version `install.json` records as active. -/
def activeOf {V : Type} (s : Disk V) : Option V :=
  match s.install with
  | .value i => i.active
  | _ => none

namespace Installation

variable {V : Type} [SemVer V] [Crates V] (I : Installation)

/-- A directory that is missing or private. -/
def OwnPlace (place : Place) : Prop := place = .absent ∨ place = .directory true

def OwnFolder {α : Type} (folder : Folder α) : Prop :=
  folder = .absent ∨ ∃ entries, folder = .directory true entries

/-- Every version directory has a canonical name and is private, and it is
complete unless it was left empty beside a recorded installation. -/
def EntriesKnown (s : Disk V) : Prop :=
  ∀ name entry, s.versionEntry name = some entry → ∃ (v : V) (dir : VersionDir),
    name = SemVer.toText v ∧ entry = .directory dir ∧ dir.isPrivate = true ∧
    ((∃ state c, I.Complete dir state c ∧ state.version = v) ∨
      (dir.members = ∅ ∧ ∃ i, s.install = .value i))

/-- The selector is where the journal's activation has come from or gone to. -/
structure Journalled (s : Disk V) (p : PendingActivation V) : Prop where
  valid : (validatePending p : Except (InstallError V) Unit) = .ok ()
  target : ∃ state, I.Retained s p.toVersion state
  source : ∀ f, p.fromVersion = some f → ∃ state, I.Retained s f state
  selector : (I.Selects s p.fromVersion ∧ activeOf s = p.fromVersion) ∨
    (I.Selects s (some p.toVersion) ∧
      (activeOf s = p.fromVersion ∨ activeOf s = some p.toVersion))

/-- `install.json` is valid, and the versions it names are retained. -/
structure Described (s : Disk V) (i : InstallState V) : Prop where
  valid : validateInstallState I.platform i = .ok ()
  active : ∃ v state, i.active = some v ∧ I.Retained s v state
  previous : ∀ v, i.previous = some v → ∃ state, I.Retained s v state
  launcher : I.verifyInstalledLauncher i s = .ok ()
  owner : ∀ v state, I.Retained s v state → state.installationId = i.installationId

/-- What holds of every disk the program can reach. -/
structure Inv (s : Disk V) : Prop where
  root : OwnPlace s.root
  lock : s.lock ≠ .foreign
  versions : OwnFolder s.versions
  staging : OwnFolder s.staging
  transactions : ∀ id entry, s.staging.entries.lookup id = some entry →
    ∃ x, entry = .transaction x
  bin : I.platform = .windows → OwnPlace s.commandParent
  entries : I.EntriesKnown s
  common : ∀ v state w state', I.Retained s v state → I.Retained s w state' →
    state.installationId = state'.installationId
  install : ∃ i, s.install = .ofOption i
  described : ∀ i, s.install = .value i → I.Described s i
  pending : ∃ p, s.pending = .ofOption p
  journal : ∀ p, s.pending = .value p → I.Journalled s p
  settled : s.pending = .absent → I.Selects s (activeOf s)
  launcher : I.platform = .windows → ∀ v, I.Selects s (some v) → ∃ bytes, s.command = .file bytes
  replaceable : I.platform = .unix → ∀ v, I.Selects s (some v) →
    I.Readable v ∧ ∃ p, s.commandParent = .directory p

/-- Nothing is installed: the root is missing or empty, and so is the command. -/
structure Fresh (s : Disk V) : Prop where
  root : OwnPlace s.root
  lock : s.lock = .absent
  install : s.install = .absent
  pending : s.pending = .absent
  active : s.active = .absent
  versions : s.versions = .absent
  staging : s.staging = .absent
  commandParent : I.platform = .windows → OwnPlace s.commandParent
  command : s.command = .absent

variable {I} {s t s₀ : Disk V} {kind : Kind V}

omit [SemVer V] [Crates V] in
theorem activeOf_value {i : InstallState V} (h : s.install = .value i) : activeOf s = i.active := by
  rw [activeOf, h]

omit [SemVer V] [Crates V] in
theorem activeOf_congr (h : t.install = s.install) : activeOf t = activeOf s := by
  rw [activeOf, activeOf, h]

/-- The only effect that moves the selector is a switch to a journalled target. -/
theorem Effect.moves (step : I.Effect kind s₀ s t) : I.SameSelector s t ∨
    ∃ p, I.Activates kind s₀ s p ∧ s.pending = .value p ∧ t = I.select p.toVersion s := by
  cases step with
  | scaffold h => exact .inl (Scaffold.frame I h).selector
  | emptyVersion w named added => exact .inl (AddsEmpty.selector added)
  | stage h => exact .inl (StageStep.frame I h).selector
  | createLauncher bytes h =>
    left
    rw [SameSelector]
    rw [h.windows]
  | removeLauncher bytes h =>
    left
    rw [SameSelector]
    rw [h.windows]
  | publish =>
    left
    rw [SameSelector]
    cases I.platform <;> rfl
  | journal => exact .inl (SameSelector.refl I _)
  | «switch» p a journalled _ => exact .inr ⟨p, a, journalled, rfl⟩
  | record => exact .inl (SameSelector.refl I _)
  | dropJournal => exact .inl (SameSelector.refl I _)

/-- Recovery never moves the selector. -/
theorem Effect.recovery_selector (step : I.Effect .recovery s₀ s t) : I.SameSelector s t := by
  rcases step.moves with same | ⟨p, activates, _⟩
  · exact same
  · obtain ⟨_, _, _, _, _, _, _, never, _⟩ := activates.target
    exact never.elim

omit [Crates V] in
theorem Fresh.selects (h : I.Fresh s) : I.Selects s none := by
  simp only [Selects]
  cases I.platform
  · exact h.command
  · exact h.active

omit [SemVer V] [Crates V] in
theorem Fresh.entry (h : I.Fresh s) (name : String) : s.versionEntry name = none := by
  simp [Disk.versionEntry, h.versions]

theorem Fresh.inv (h : I.Fresh s) : I.Inv s := by
  have unretained : ∀ v state, ¬ I.Retained s v state := by
    rintro v state ⟨dir, c, entry, _⟩
    rw [h.entry] at entry
    cases entry
  have unselected : ∀ v, ¬ I.Selects s (some v) := fun v selects =>
    nomatch Selects.unique I h.selects selects
  refine ⟨h.root, by rw [h.lock]; nofun, .inl h.versions, .inl h.staging, ?_, h.commandParent, ?_,
    fun v state _ _ r => absurd r (unretained v state), ⟨none, h.install⟩, ?_, ⟨none, h.pending⟩, ?_,
    ?_, fun _ v selects => absurd selects (unselected v),
    fun _ v selects => absurd selects (unselected v)⟩
  · intro id entry found
    simp [h.staging] at found
  · intro name entry found
    rw [h.entry] at found
    cases found
  · intro i hi
    rw [h.install] at hi
    cases hi
  · intro p hp
    rw [h.pending] at hp
    cases hp
  · intro _
    rw [activeOf, h.install]
    exact h.selects

namespace Inv

/-- In a reachable state the selector is absent or names a version. -/
theorem selects (h : I.Inv s) : ∃ p, I.Selects s p := by
  obtain ⟨p, hp⟩ := h.pending
  cases p with
  | none => exact ⟨_, h.settled hp⟩
  | some p =>
    rcases (h.journal p hp).selector with ⟨from_, _⟩ | ⟨to_, _⟩
    · exact ⟨_, from_⟩
    · exact ⟨_, to_⟩

/-- Whatever the selector names is retained. -/
theorem selected (h : I.Inv s) {v : V} (selects : I.Selects s (some v)) :
    ∃ state, I.Retained s v state := by
  have byActive : activeOf s = some v → ∃ state, I.Retained s v state := by
    intro active
    obtain ⟨i, hi⟩ := h.install
    cases i with
    | none => rw [activeOf, hi] at active; cases active
    | some i =>
      obtain ⟨w, state, activeIs, retained⟩ := (h.described i hi).active
      rw [activeOf_value hi, activeIs] at active
      cases active
      exact ⟨state, retained⟩
  obtain ⟨p, hp⟩ := h.pending
  cases p with
  | none => exact byActive (Selects.unique I (h.settled hp) selects)
  | some p =>
    have journal := h.journal p hp
    rcases journal.selector with ⟨from_, _⟩ | ⟨to_, _⟩
    · exact journal.source v (Selects.unique I from_ selects)
    · have same := Selects.unique I to_ selects
      rw [← Option.some.inj same]
      exact journal.target

/-- A named version is retained. -/
theorem mentioned (h : I.Inv s) {v : V} (named : I.Mentions s v) :
    ∃ state, I.Retained s v state := by
  rcases named with selects | ⟨p, hp, rfl⟩ | ⟨i, hi, previous⟩
  · exact h.selected selects
  · exact (h.journal p hp).target
  · exact (h.described i hi).previous v previous

/-- A selector without a command cannot be reached. -/
theorem not_orphaned (h : I.Inv s) : ¬ I.Orphaned s := by
  rintro ⟨windows, missing, f, selects⟩
  obtain ⟨bytes, command⟩ := h.launcher windows f selects
  unfold lexistsCommand at missing
  rw [command] at missing
  cases missing

/-- Nothing is recorded while nothing is selected. -/
theorem inactive (h : I.Inv s) (selects : I.Selects s none) : activeOf s = none := by
  obtain ⟨p, hp⟩ := h.pending
  cases p with
  | none => exact Selects.unique I (h.settled hp) selects
  | some p =>
    rcases (h.journal p hp).selector with ⟨from_, active⟩ | ⟨to_, _⟩
    · exact active.trans (Selects.unique I from_ selects)
    · exact nomatch Selects.unique I to_ selects

/-- The selector an activation starts from is the recorded one. -/
theorem activates (h : I.Inv s) (h₀ : I.Inv s₀) {p : PendingActivation V}
    (a : I.Activates kind s₀ s p) :
    activeOf s = p.fromVersion ∧ I.Selects s p.fromVersion := by
  have selects := I.selects_of_read a.readable
  refine ⟨?_, selects⟩
  cases hf : p.fromVersion with
  | none => exact h.inactive (hf ▸ selects)
  | some f =>
    rcases a.owner f hf with ⟨i, hi, active⟩ | orphaned
    · rw [activeOf_value hi, active]
    · exact absurd orphaned h₀.not_orphaned

/-- An empty directory is only ever added for the target of a rollback. -/
theorem adds_targets (h : I.Inv s) {v : V} (named : I.Mentions s v ∨ I.Targets kind s v)
    (added : AddsEmpty v s t) : I.Targets kind s v := by
  rcases named with mentioned | targets
  · obtain ⟨state, dir, c, entry, _⟩ := h.mentioned mentioned
    rw [added.1] at entry
    cases entry
  · exact targets

/-! ## Preservation -/

/-- Directories may change within their shapes, as long as the documents, the
selector, the command and the retained versions stay. -/
theorem transfer (h : I.Inv s) (install : t.install = s.install) (pending : t.pending = s.pending)
    (selector : I.SameSelector s t) (command : t.command = s.command)
    (retained : ∀ v state, I.Retained t v state ↔ I.Retained s v state)
    (entries : I.EntriesKnown t) (root : OwnPlace t.root) (lock : t.lock ≠ .foreign)
    (versions : OwnFolder t.versions) (staging : OwnFolder t.staging)
    (transactions : ∀ id entry, t.staging.entries.lookup id = some entry →
      ∃ x, entry = .transaction x)
    (bin : I.platform = .windows → OwnPlace t.commandParent)
    (parent : ∀ p, s.commandParent = .directory p → ∃ q, t.commandParent = .directory q) :
    I.Inv t := by
  have active : activeOf t = activeOf s := activeOf_congr install
  refine ⟨root, lock, versions, staging, transactions, bin, entries, ?_, ?_, ?_, ?_, ?_, ?_, ?_, ?_⟩
  · intro v st w st' r r'
    exact h.common v st w st' ((retained v st).mp r) ((retained w st').mp r')
  · rw [install]
    exact h.install
  · intro i hi
    rw [install] at hi
    have described := h.described i hi
    refine ⟨described.valid, ?_, ?_, ?_, fun v state r =>
      described.owner v state ((retained v state).mp r)⟩
    · obtain ⟨v, state, activeIs, r⟩ := described.active
      exact ⟨v, state, activeIs, (retained v state).mpr r⟩
    · intro v previous
      obtain ⟨state, r⟩ := described.previous v previous
      exact ⟨state, (retained v state).mpr r⟩
    · have launcher := described.launcher
      have file : I.commandFile t = I.commandFile s := by unfold commandFile; rw [command]
      simp only [verifyInstalledLauncher, verifyInstalledLauncherRecord, sameRegularFileObject] at *
      rw [file]
      exact launcher
  · rw [pending]
    exact h.pending
  · intro p hp
    rw [pending] at hp
    have journal := h.journal p hp
    refine ⟨journal.valid, ?_, ?_, ?_⟩
    · obtain ⟨state, r⟩ := journal.target
      exact ⟨state, (retained _ state).mpr r⟩
    · intro g hg
      obtain ⟨state, r⟩ := journal.source g hg
      exact ⟨state, (retained g state).mpr r⟩
    · rw [active]
      exact journal.selector.imp (fun h => ⟨h.1.same I selector, h.2⟩)
        fun h => ⟨h.1.same I selector, h.2⟩
  · intro absent
    rw [pending] at absent
    rw [active]
    exact (h.settled absent).same I selector
  · intro windows v selects
    rw [command]
    exact h.launcher windows v (selects.of_same I selector)
  · intro unix v selects
    obtain ⟨readable, p, hp⟩ := h.replaceable unix v (selects.of_same I selector)
    exact ⟨readable, parent p hp⟩

theorem frame (h : I.Inv s) (f : I.Frame s t) (root : OwnPlace t.root) (lock : t.lock ≠ .foreign)
    (versions : OwnFolder t.versions) (staging : OwnFolder t.staging)
    (transactions : ∀ id entry, t.staging.entries.lookup id = some entry →
      ∃ x, entry = .transaction x)
    (bin : I.platform = .windows → OwnPlace t.commandParent)
    (parent : ∀ p, s.commandParent = .directory p → ∃ q, t.commandParent = .directory q) :
    I.Inv t := by
  refine h.transfer f.install f.pending f.selector f.command (fun v state =>
    ⟨fun r => r.of_entry I (f.versions _).symm, fun r => f.toCore.retained r⟩) ?_ root lock versions
    staging transactions bin parent
  intro name entry found
  rw [f.versions] at found
  obtain ⟨v, dir, named, entryIs, isPrivate, complete⟩ := h.entries name entry found
  refine ⟨v, dir, named, entryIs, isPrivate, complete.imp id fun ⟨empty, i, hi⟩ => ⟨empty, i, ?_⟩⟩
  rw [f.install, hi]

end Inv

theorem OwnPlace.chain {place made : Place} (h : OwnPlace place)
    (step : made = place ∨ (place = .absent ∧ made = .directory true)) : OwnPlace made := by
  rcases step with rfl | ⟨_, rfl⟩
  · exact h
  · exact .inr rfl

theorem OwnFolder.chain {α : Type} {folder made : Folder α} (h : OwnFolder folder)
    (step : made = folder ∨ (folder = .absent ∧ made = .directory true ∅)) : OwnFolder made := by
  rcases step with rfl | ⟨_, rfl⟩
  · exact h
  · exact .inr ⟨∅, rfl⟩

theorem OwnFolder.insert {α : Type} {folder : Folder α} (h : OwnFolder folder) (name : String)
    (entry : α) : OwnFolder (folder.insert name entry) := by
  rcases h with rfl | ⟨entries, rfl⟩
  · exact .inl rfl
  · exact .inr ⟨_, rfl⟩

theorem OwnFolder.erase {α : Type} {folder : Folder α} (h : OwnFolder folder) (name : String) :
    OwnFolder (folder.erase name) := by
  rcases h with rfl | ⟨entries, rfl⟩
  · exact .inl rfl
  · exact .inr ⟨_, rfl⟩

theorem lookup_insert_folder {α : Type} {folder : Folder α} {name other : String} {entry found : α}
    (h : (folder.insert name entry).entries.lookup other = some found) :
    (other = name ∧ found = entry) ∨ folder.entries.lookup other = some found := by
  cases folder with
  | directory p entries =>
    by_cases same : other = name
    · subst same
      simp only [Folder.insert, Folder.entries_directory, AList.lookup_insert,
        Option.some.injEq] at h
      exact .inl ⟨rfl, h.symm⟩
    · simp only [Folder.insert, Folder.entries_directory, AList.lookup_insert_ne same] at h
      exact .inr h
  | absent => exact .inr h
  | foreign => exact .inr h

theorem lookup_erase_folder {α : Type} {folder : Folder α} {name other : String} {found : α}
    (h : (folder.erase name).entries.lookup other = some found) :
    folder.entries.lookup other = some found := by
  cases folder with
  | directory p entries =>
    by_cases same : other = name
    · subst same
      simp [Folder.erase, AList.lookup_erase] at h
    · simpa [Folder.erase, AList.lookup_erase_ne same] using h
  | absent => exact h
  | foreign => exact h

namespace Inv

theorem scaffold (h : I.Inv s) (step : Scaffold s t) : I.Inv t := by
  refine h.frame (Scaffold.frame I step) (h.root.chain step.root) ?_ (h.versions.chain step.versions)
    (h.staging.chain step.staging) ?_ (fun windows => (h.bin windows).chain step.commandParent) ?_
  · rcases step.lock with same | ⟨_, made⟩
    · rw [same]; exact h.lock
    · rw [made]; nofun
  · rw [step.stagingEntries]
    exact h.transactions
  · intro p present
    rcases step.commandParent with same | ⟨_, made⟩
    · exact ⟨p, same.trans present⟩
    · exact ⟨true, made⟩

theorem stage (h : I.Inv s) (step : I.StageStep s t) : I.Inv t := by
  have frame := StageStep.frame I step
  cases step with
  | first id absent =>
    refine h.frame frame h.root h.lock h.versions (.inr ⟨_, rfl⟩) ?_ h.bin fun p hp => ⟨p, hp⟩
    intro other entry found
    have inserted : AList.lookup other ((∅ : AList fun _ : String => StagingEntry).insert id
        (.transaction ⟨true, ∅, none⟩)) = some entry := found
    by_cases same : other = id
    · rw [same, AList.lookup_insert] at inserted
      exact ⟨_, (Option.some.inj inserted).symm⟩
    · rw [AList.lookup_insert_ne same] at inserted
      simp at inserted
  | put id x marker =>
    refine h.frame frame h.root h.lock h.versions (h.staging.insert id _) ?_ h.bin
      fun p hp => ⟨p, hp⟩
    intro other entry found
    rcases lookup_insert_folder found with ⟨_, rfl⟩ | before
    · exact ⟨x, rfl⟩
    · exact h.transactions other entry before
  | erase id marker =>
    refine h.frame frame h.root h.lock h.versions (h.staging.erase id) ?_ h.bin
      fun p hp => ⟨p, hp⟩
    exact fun other entry found => h.transactions other entry (lookup_erase_folder found)

/-- The target of a rollback may get an empty directory. -/
theorem emptyVersion (h : I.Inv s) {v : V} (named : I.Mentions s v ∨ I.Targets kind s v)
    (added : AddsEmpty v s t) : I.Inv t := by
  obtain ⟨_, ⟨i, hi⟩, _⟩ := h.adds_targets named added
  obtain ⟨install, pending, _, command⟩ := AddsEmpty.core added
  have entries : I.EntriesKnown t := by
    intro name entry found
    rw [added.entry] at found
    split at found
    · rename_i same
      cases found
      exact ⟨v, _, same, rfl, rfl, .inr ⟨rfl, i, install.trans hi⟩⟩
    · obtain ⟨w, dir, named, entryIs, isPrivate, complete⟩ := h.entries name entry found
      exact ⟨w, dir, named, entryIs, isPrivate, complete.imp (fun c => c) fun ⟨empty, _⟩ =>
        ⟨empty, i, install.trans hi⟩⟩
  have shape := added.shape
  have versions : OwnFolder t.versions := by
    rcases added with ⟨_, ⟨_, rfl⟩ | ⟨p, es, present, rfl⟩⟩
    · exact .inr ⟨_, rfl⟩
    · have own := h.versions
      rw [present] at own
      rcases own with absent | ⟨es', own⟩
      · cases absent
      · cases own
        exact .inr ⟨_, rfl⟩
  refine h.transfer install pending (AddsEmpty.selector added) command
    (fun _ _ => AddsEmpty.retained_iff added) entries ?_ ?_ versions ?_ ?_ ?_ ?_
  · rw [shape]; exact h.root
  · rw [shape]; exact h.lock
  · rw [shape]; exact h.staging
  · rw [shape]; exact h.transactions
  · rw [shape]; exact h.bin
  · rw [shape]; exact fun p hp => ⟨p, hp⟩

/-- The first launcher of an installation nothing records yet. -/
theorem withCommand (h : I.Inv s) {command : CommandEntry} (windows : I.platform = .windows)
    (install : s.install = .absent)
    (launcher : ∀ v, I.Selects s (some v) → ∃ bytes, command = .file bytes) :
    I.Inv { s with command := command } := by
  have same : I.SameSelector s { s with command := command } := by
    unfold SameSelector
    rw [windows]
  have unrecorded : ∀ i : InstallState V, ¬ s.install = .value i := by
    intro i hi
    rw [install] at hi
    cases hi
  exact { h with
    described := fun i hi => absurd hi (unrecorded i)
    journal := fun p hp => { h.journal p hp with
      selector := (h.journal p hp).selector.imp (fun ⟨from_, active⟩ => ⟨from_.same I same, active⟩)
        fun ⟨to_, active⟩ => ⟨to_.same I same, active⟩ }
    settled := fun absent => (h.settled absent).same I same
    launcher := fun _ v selects => launcher v (selects.of_same I same)
    replaceable := fun unix => absurd windows (by rw [unix]; nofun) }

theorem journal_written (h : I.Inv s) (h₀ : I.Inv s₀) {p : PendingActivation V}
    (a : I.Activates kind s₀ s p) : I.Inv { s with pending := .value p } := by
  obtain ⟨active, selects⟩ := h.activates h₀ a
  have same : I.SameSelector s { s with pending := .value p } := SameSelector.refl I _
  exact { h with
    described := fun i hi => { h.described i hi with }
    pending := ⟨some p, rfl⟩
    journal := by
      rintro q hq
      cases hq
      refine ⟨a.valid, ?_, fun f hf => ?_, .inl ⟨selects.same I same, active⟩⟩
      · obtain ⟨dir, c, state, entry, isPrivate, complete, version, _⟩ := a.target
        exact ⟨state, dir, c, entry, isPrivate, complete, version⟩
      · rw [hf] at selects
        exact h.selected selects
    settled := nofun
    launcher := fun windows v selects => h.launcher windows v (selects.of_same I same)
    replaceable := fun unix v selects => h.replaceable unix v (selects.of_same I same) }

theorem switched (h : I.Inv s) (h₀ : I.Inv s₀) {p : PendingActivation V}
    (a : I.Activates kind s₀ s p) (journalled : s.pending = .value p)
    (replaceable : I.selectorReplaceable p.toVersion s = .ok ()) :
    I.Inv (I.select p.toVersion s) := by
  obtain ⟨active, _⟩ := h.activates h₀ a
  obtain ⟨installIs, pendingIs, versionsIs, stagingIs⟩ := select_fields (I := I) p.toVersion s
  have entry := versionEntry_select (I := I) p.toVersion s
  have forth : ∀ v state, I.Retained s v state → I.Retained (I.select p.toVersion s) v state :=
    fun v state r => r.of_entry I (entry _)
  have back : ∀ v state, I.Retained (I.select p.toVersion s) v state → I.Retained s v state :=
    fun v state r => r.of_entry I (entry _).symm
  have selects := I.selects_select p.toVersion s
  have rest : (I.select p.toVersion s).root = s.root ∧ (I.select p.toVersion s).lock = s.lock ∧
      (I.select p.toVersion s).commandParent = s.commandParent := by
    simp only [select]
    cases I.platform <;> exact ⟨rfl, rfl, rfl⟩
  have recorded := activeOf_congr installIs
  refine ⟨by rw [rest.1]; exact h.root, by rw [rest.2.1]; exact h.lock,
    by rw [versionsIs]; exact h.versions, by rw [stagingIs]; exact h.staging,
    by rw [stagingIs]; exact h.transactions, by rw [rest.2.2]; exact h.bin, ?_,
    fun v st w st' r r' => h.common v st w st' (back v st r) (back w st' r'),
    by rw [installIs]; exact h.install, ?_, by rw [pendingIs]; exact h.pending, ?_, ?_, ?_, ?_⟩
  · intro name found hfound
    rw [entry] at hfound
    rw [installIs]
    exact h.entries name found hfound
  · intro i hi
    rw [installIs] at hi
    have described := h.described i hi
    refine ⟨described.valid, ?_, ?_, ?_, fun v state r => described.owner v state (back v state r)⟩
    · obtain ⟨v, state, activeIs, r⟩ := described.active
      exact ⟨v, state, activeIs, forth v state r⟩
    · intro v previous
      obtain ⟨state, r⟩ := described.previous v previous
      exact ⟨state, forth v state r⟩
    · cases hI : I.platform with
      | unix => rw [verifyInstalledLauncher, hI]
      | windows =>
        have launcher := described.launcher
        have file : I.commandFile (I.select p.toVersion s) = I.commandFile s := by
          simp only [commandFile]
          rw [command_select hI]
        simp only [verifyInstalledLauncher, verifyInstalledLauncherRecord, sameRegularFileObject] at *
        rw [file]
        exact launcher
  · intro q hq
    rw [pendingIs, journalled] at hq
    cases hq
    have journal := h.journal p journalled
    refine ⟨journal.valid, ?_, fun f hf => ?_, .inr ⟨selects, .inl (recorded.trans active)⟩⟩
    · obtain ⟨state, r⟩ := journal.target
      exact ⟨state, forth _ state r⟩
    · obtain ⟨state, r⟩ := journal.source f hf
      exact ⟨state, forth f state r⟩
  · intro absent
    rw [pendingIs, journalled] at absent
    cases absent
  · intro windows v _
    rw [command_select windows]
    exact a.launcher windows
  · intro unix v hv
    have same := Selects.unique I selects hv
    cases same
    simp only [selectorReplaceable, unix, bind_eq_ok, check_eq_ok] at replaceable
    obtain ⟨_, absolute, _, ⟨q, _, parent⟩, _⟩ := replaceable
    exact ⟨by rw [Readable, unix]; exact absolute, q, by rw [rest.2.2]; exact parent⟩

theorem written (h : I.Inv s) {inst : InstallState V} (records : I.Records s inst) :
    I.Inv { s with install := .value inst } := by
  obtain ⟨v, state, active, selects, target, owner, reason⟩ := records.selected
  have same : I.SameSelector s { s with install := .value inst } := SameSelector.refl I _
  have isActive : activeOf { s with install := .value inst } = some v :=
    (activeOf_value rfl).trans active
  have launcher : I.verifyInstalledLauncher inst s = .ok () := by
    have recorded := records.launcher
    unfold LauncherRecorded at recorded
    cases hI : I.platform with
    | unix => rw [verifyInstalledLauncher, hI]
    | windows =>
      simp only [hI] at recorded
      obtain ⟨l, hl, fits⟩ := recorded
      simp [verifyInstalledLauncher, hI, hl, orError, fits]
  have described : I.Described { s with install := .value inst } inst := by
    refine ⟨records.valid, ⟨v, state, active, target⟩, fun w hw => ?_, launcher, fun w st r => ?_⟩
    · rcases reason with ⟨p, hp, _, previous⟩ | ⟨_, _, _, _, kept⟩
      · exact (h.journal p hp).source w (previous.symm.trans hw)
      · obtain ⟨_, st, r, _⟩ := kept w hw
        exact ⟨st, r⟩
    · rw [← owner]
      exact h.common w st v state r target
  exact { h with
    entries := fun name entry found => by
      obtain ⟨w, dir, named, entryIs, isPrivate, complete⟩ := h.entries name entry found
      exact ⟨w, dir, named, entryIs, isPrivate, complete.imp (fun c => c) fun empty =>
        ⟨empty.1, inst, rfl⟩⟩
    install := ⟨some inst, rfl⟩
    described := by
      rintro i hi
      cases hi
      exact described
    journal := by
      intro p hp
      have journal := h.journal p hp
      refine { journal with selector := .inr ⟨?_, .inr ?_⟩ }
      · rcases reason with ⟨q, hq, rfl, _⟩ | ⟨absent, _⟩
        · have both : q = p := Document.value.inj (hq.symm.trans hp)
          rw [← both]
          exact selects.same I same
        · rw [absent] at hp
          cases hp
      · rcases reason with ⟨q, hq, rfl, _⟩ | ⟨absent, _⟩
        · have both : q = p := Document.value.inj (hq.symm.trans hp)
          rw [← both]
          exact isActive
        · rw [absent] at hp
          cases hp
    settled := fun _ => by
      rw [isActive]
      exact selects.same I same
    launcher := fun windows w hw => h.launcher windows w (hw.of_same I same)
    replaceable := fun unix w hw => h.replaceable unix w (hw.of_same I same) }

theorem dropped (h : I.Inv s) (drops : I.Drops s) : I.Inv { s with pending := .absent } := by
  have same : I.SameSelector s { s with pending := .absent } := SameSelector.refl I _
  have settled : I.Selects s (activeOf s) := by
    obtain ⟨p, hp, ⟨to_, i, hi, active, _⟩ | ⟨from_, apart⟩⟩ := drops
    · rw [activeOf_value hi, active]
      exact to_
    · rcases (h.journal p hp).selector with ⟨selects, active⟩ | ⟨to_, _⟩
      · rw [active]
        exact selects
      · exact absurd (Selects.unique I from_ to_) apart
  exact { h with
    described := fun i hi => { h.described i hi with }
    pending := ⟨none, rfl⟩
    journal := nofun
    settled := fun _ => settled.same I same
    launcher := fun windows w hw => h.launcher windows w (hw.of_same I same)
    replaceable := fun unix w hw => h.replaceable unix w (hw.of_same I same) }

theorem publish (h : I.Inv s) {v : V} {dir : VersionDir} {state : VersionState V} {id : String}
    {x : Transaction} (publishes : I.Publishes kind s v dir state) :
    I.Inv (published v dir id x s) := by
  obtain ⟨c, complete⟩ := publishes.complete
  have same : I.SameSelector s (published v dir id x s) := by
    rw [SameSelector]
    cases I.platform <;> rfl
  have entry : ∀ name found, (published v dir id x s).versionEntry name = some found →
      (name = SemVer.toText v ∧ found = .directory dir) ∨ s.versionEntry name = some found :=
    fun name found hfound => lookup_insert_folder hfound
  have kept : ∀ name found, s.versionEntry name = some found →
      (published v dir id x s).versionEntry name = some found := by
    intro name found hfound
    have apart : name ≠ SemVer.toText v := by
      rintro rfl
      rw [publishes.free] at hfound
      cases hfound
    obtain ⟨p, entries, hv, lookup⟩ := versions_of_entry hfound
    simpa [Disk.versionEntry, published, hv, Folder.insert, AList.lookup_insert_ne apart] using lookup
  have forth : ∀ w st, I.Retained s w st → I.Retained (published v dir id x s) w st := by
    rintro w st ⟨dir', c', hentry, rest⟩
    exact ⟨dir', c', kept _ _ hentry, rest⟩
  have back : ∀ w st, I.Retained (published v dir id x s) w st →
      I.Retained s w st ∨ st = state := by
    rintro w st ⟨dir', c', hentry, isPrivate, complete', version⟩
    rcases entry _ _ hentry with ⟨_, same⟩ | old
    · cases same
      exact .inr (complete'.unique I complete)
    · exact .inl ⟨dir', c', old, isPrivate, complete', version⟩
  have agrees : ∀ w st, I.Retained s w st → st.installationId = state.installationId := by
    intro w st r
    obtain ⟨i, hi⟩ := h.install
    cases i with
    | none => exact publishes.chosen.retained hi w st r
    | some i => exact ((h.described i hi).owner w st r).trans (publishes.chosen.recorded i hi)
  exact { h with
    versions := h.versions.insert _ _
    staging := h.staging.insert _ _
    transactions := fun other found hfound => by
      rcases lookup_insert_folder hfound with ⟨_, rfl⟩ | old
      · exact ⟨_, rfl⟩
      · exact h.transactions other found old
    entries := fun name found hfound => by
      rcases entry name found hfound with ⟨rfl, rfl⟩ | old
      · exact ⟨v, dir, rfl, rfl, publishes.isPrivate, .inl ⟨state, c, complete, publishes.version⟩⟩
      · exact h.entries name found old
    common := by
      intro w st w' st' r r'
      rcases back w st r with old | rfl <;> rcases back w' st' r' with old' | rfl
      · exact h.common w st w' st' old old'
      · exact agrees w st old
      · exact (agrees w' st' old').symm
      · rfl
    described := by
      intro i hi
      have described := h.described i hi
      refine ⟨described.valid, ?_, fun w hw => ?_, described.launcher, fun w st r => ?_⟩
      · obtain ⟨w, st, active, r⟩ := described.active
        exact ⟨w, st, active, forth w st r⟩
      · obtain ⟨st, r⟩ := described.previous w hw
        exact ⟨st, forth w st r⟩
      · rcases back w st r with old | rfl
        · exact described.owner w st old
        · exact (publishes.chosen.recorded i hi).symm
    journal := by
      intro p hp
      have journal := h.journal p hp
      refine ⟨journal.valid, ?_, fun f hf => ?_, journal.selector.imp
        (fun stays => ⟨stays.1.same I same, stays.2⟩)
        fun moved => ⟨moved.1.same I same, moved.2⟩⟩
      · obtain ⟨st, r⟩ := journal.target
        exact ⟨st, forth _ st r⟩
      · obtain ⟨st, r⟩ := journal.source f hf
        exact ⟨st, forth f st r⟩
    settled := fun absent => (h.settled absent).same I same
    launcher := fun windows w hw => h.launcher windows w (hw.of_same I same)
    replaceable := fun unix w hw => h.replaceable unix w (hw.of_same I same) }

/-- Every effect of a section that began in a reachable state preserves the
invariant. -/
theorem effect (h : I.Inv s) (h₀ : I.Inv s₀) (step : I.Effect kind s₀ s t) : I.Inv t := by
  cases step with
  | scaffold step => exact h.scaffold step
  | emptyVersion v named added => exact h.emptyVersion named added
  | stage step => exact h.stage step
  | createLauncher bytes fresh => exact h.withCommand fresh.windows fresh.install fun _ _ => ⟨_, rfl⟩
  | removeLauncher bytes orphan =>
    refine h.withCommand orphan.windows orphan.install fun v selects => ?_
    have mode : I.OrphanMode s := ⟨orphan.windows, orphan.active, orphan.install⟩
    exact absurd mode (I.not_orphanMode selects)
  | publish v dir state id x found publishes => exact h.publish publishes
  | journal p a same => exact h.journal_written h₀ a
  | «switch» p a journalled replaceable => exact h.switched h₀ a journalled replaceable
  | record inst records => exact h.written records
  | dropJournal drops => exact h.dropped drops

end Inv

end Installation

end Relswap
