import Relswap.Proof.Interleaving

/-!
# Recovery makes progress

The contracts say what a recovery has done when it succeeds. Here is why it
succeeds: on a disk that satisfies the invariant every check on its way passes.
-/

namespace Relswap

open Durable Durable.Program Disk

namespace Installation

variable {V : Type} [SemVer V] [Crates V] (I : Installation)

/-- The markers of a crashed first install fit the launcher that is there. -/
structure MarkersFit (s : Disk V) : Prop where
  command : ∀ digest, s.command ≠ .symlink digest ∧ s.command ≠ .other
  marker : ∀ id x member, s.transaction id = some x →
    x.files.lookup launcherCreatedMarker = some member →
    ∃ digest, I.markerDigest (V := V) id member = .ok digest ∧
      ∀ bytes, s.command = .file bytes → Crates.sha256 V bytes = digest
  retained : ∀ digest, ∃ b, I.retainedLauncherMatches digest s = .ok b

/-- The staging directory can be emptied. -/
structure Sweepable (s : Disk V) : Prop where
  staging : OwnFolder s.staging
  transactions : ∀ id entry, s.staging.entries.lookup id = some entry →
    ∃ x, entry = .transaction x
  selector : I.platform = .windows → ∃ pointer, I.readPointerUnlocked s = .ok pointer
  install : ∃ i, s.install = .ofOption i
  markers : I.OrphanMode s → I.MarkersFit s

section Progress

variable {I} {s t : Disk V} {id : String}

omit [SemVer V] [Crates V] in
theorem returns_removeTransaction {x : Transaction} (found : s.transaction id = some x) :
    Returns (removeTransaction id : Action V Unit) s := by
  have rewrites : ∀ (f : Disk V → Disk V) t,
      Returns (write fun s => .ok (f s) : Action V Unit) t := fun f t =>
    (Succeeds.write (t := f t) rfl).returns
  apply Returns.bind_get
  rw [found]
  refine (Returns.forEach fun name _ t => rewrites _ t).bind_any fun _ a => ?_
  refine (Returns.forEach fun name _ t => rewrites _ t).bind_any fun _ b => ?_
  exact (rewrites _ b).bind_any fun _ c => rewrites _ c

theorem MarkersFit.returns {x : Transaction} {member : Member} (h : I.MarkersFit s)
    (windows : I.platform = .windows) (found : s.transaction id = some x)
    (marked : x.files.lookup launcherCreatedMarker = some member) :
    Returns (I.removeOrphanLauncher id member) s := by
  obtain ⟨digest, read, fits⟩ := h.marker id x member found marked
  rw [removeOrphanLauncher]
  apply Returns.bind_ofExcept read
  cases hc : s.command with
  | absent =>
    apply Returns.bind_reads (a := false) (by rw [lexistsCommand, hc])
    exact Returns.pure ()
  | unreachable =>
    apply Returns.bind_reads (a := false) (by simp [lexistsCommand, hc, windows])
    exact Returns.pure ()
  | symlink target => exact absurd hc (h.command target).1
  | other => exact absurd hc (h.command []).2
  | file bytes =>
    obtain ⟨b, retained⟩ := h.retained digest
    apply Returns.bind_reads (a := true) (by rw [lexistsCommand, hc])
    apply Returns.bind_reads (I.commandFile_eq_ok.mpr hc)
    apply Returns.bind_require (fits bytes hc)
    apply Returns.bind_reads retained
    split
    · exact Returns.pure ()
    · exact (Succeeds.write (t := { s with command := .absent }) rfl).returns

theorem returns_cleanupMarker {removeOrphans : Bool} {x : Transaction}
    (mode : removeOrphans = true ↔ I.OrphanMode s) (found : s.transaction id = some x)
    (markers : I.OrphanMode s → I.MarkersFit s) :
    Returns (I.cleanupMarker removeOrphans id x) s := by
  simp only [cleanupMarker]
  split
  · rename_i member marked
    have orphan := mode.mp rfl
    exact (markers orphan).returns orphan.1 found marked
  · exact Returns.pure ()

/-- Removing a transaction, and perhaps the launcher, leaves fitting markers. -/
theorem MarkersFit.sweep (h : I.MarkersFit s)
    (command : t.command = s.command ∨ t.command = .absent)
    (versions : t.versions.entries = s.versions.entries)
    (fewer : ∀ id x, t.transaction id = some x → s.transaction id = some x) : I.MarkersFit t := by
  refine ⟨fun target => ?_, fun id x member found marked => ?_, fun digest => ?_⟩
  · rcases command with same | absent
    · rw [same]; exact h.command target
    · rw [absent]; exact ⟨nofun, nofun⟩
  · obtain ⟨digest, read, fits⟩ := h.marker id x member (fewer id x found) marked
    refine ⟨digest, read, fun bytes here => ?_⟩
    rcases command with same | absent
    · exact fits bytes (same ▸ here)
    · rw [absent] at here
      cases here
  · obtain ⟨b, retained⟩ := h.retained digest
    refine ⟨b, ?_⟩
    rw [retainedLauncherMatches] at *
    rw [versions]
    exact retained

theorem returns_cleanupEntries {removeOrphans : Bool}
    {rest : List (Sigma fun _ : String => StagingEntry)}
    (mode : removeOrphans = true ↔ I.OrphanMode s)
    (entries : ∃ es, s.staging = .directory true es ∧ es.entries = rest)
    (transactions : ∀ entry ∈ rest, ∃ x, entry.2 = .transaction x)
    (markers : I.OrphanMode s → I.MarkersFit s) :
    Returns (I.cleanupEntries removeOrphans rest) s := by
  induction rest generalizing s with
  | nil => exact Returns.pure ()
  | cons entry rest ih =>
    obtain ⟨es, present, whole⟩ := entries
    obtain ⟨x, transaction⟩ := transactions entry List.mem_cons_self
    obtain ⟨id, entry⟩ := entry
    cases transaction
    have lookup : es.lookup id = some (.transaction x) := by
      rw [AList.lookup, whole]
      simp
    have found : s.transaction id = some x := by
      simp [Disk.transaction, present, lookup]
    rw [cleanupEntries]
    refine (returns_cleanupMarker mode found markers).bind
      (guards_cleanupMarker mode found : Guards true (I.Effect .recovery s) _ _ _) fun _ a found => ?_
    obtain ⟨ha, removable⟩ := found
    have foundA : a.transaction id = some x := by
      rcases ha with rfl | ⟨_, rfl⟩ <;> exact found
    refine (returns_removeTransaction foundA).bind
      (guards_removeTransaction removable : Guards true (I.Effect .recovery s) _ _ _) fun _ b hb => ?_
    have swept : I.Swept s b := by
      rw [hb]
      rcases ha with rfl | ⟨orphan, rfl⟩
      · exact ⟨rfl, .inl rfl⟩
      · exact ⟨rfl, .inr ⟨orphan, rfl⟩⟩
    have staging : b.staging = .directory true (es.erase id) := by
      have same : a.staging = s.staging := by rcases ha with rfl | ⟨_, rfl⟩ <;> rfl
      rw [hb, same, present]
      rfl
    have erased : (es.erase id).entries = rest := by
      change List.kerase id es.entries = rest
      rw [whole]
      simp
    refine ih (mode.trans swept.orphanMode.symm) ⟨_, staging, erased⟩
      (fun entry he => transactions entry (List.mem_cons_of_mem _ he)) fun orphan => ?_
    refine (markers (swept.orphanMode.mp orphan)).sweep (swept.command.imp (fun same => same)
      fun gone => gone.2) (by rw [swept.shape]) fun other y hy => ?_
    have back := hb ▸ hy
    have same : a.staging = s.staging := by rcases ha with rfl | ⟨_, rfl⟩ <;> rfl
    rw [Disk.transaction] at back ⊢
    split at back
    · rename_i z hz
      rw [← same, lookup_erase_folder hz]
      exact back
    · cases back

omit [SemVer V] [Crates V] in
theorem succeeds_ensureStagingDir {es : AList fun _ : String => StagingEntry}
    (present : s.staging = .directory true es) : Succeeds I.ensureStagingDir s () s := by
  apply Succeeds.write
  rw [present]
  simp only [Folder.ensurePrivate]
  rw [← present]
  rfl

omit [Crates V] in
theorem returns_removesOrphans (selector : I.platform = .windows →
      ∃ pointer, I.readPointerUnlocked s = .ok pointer)
    (install : ∃ i, s.install = .ofOption i) : Returns I.removesOrphans s := by
  rw [removesOrphans]
  split
  · obtain ⟨pointer, read⟩ := selector ‹_›
    obtain ⟨i, hi⟩ := install
    apply Returns.bind_reads read
    cases pointer with
    | some v => exact Returns.pure _
    | none =>
      exact Returns.bind_reads (Document.readJson_eq_ok.mpr hi) (Returns.pure _)
  · exact Returns.pure _

theorem returns_cleanupStaging (h : I.Sweepable s) : Returns I.cleanupStaging s := by
  apply Returns.bind_get
  rcases h.staging with absent | ⟨es, present⟩
  · rw [absent]
    exact Returns.pure ()
  rw [present]
  apply Returns.bind_succeeds (succeeds_ensureStagingDir present)
  refine (returns_removesOrphans h.selector h.install).bind_unchanged
    (guards_removesOrphans : Guards true (I.Effect .recovery s) _ _ _) fun removeOrphans mode => ?_
  apply Returns.bind_get
  refine returns_cleanupEntries mode ⟨es, present, by rw [present]; rfl⟩ (fun entry he => ?_)
    h.markers
  exact h.transactions entry.1 entry.2 (lookup_of_mem he)

/-! ## The documents -/

/-- A launcher record that a document of this platform may carry. -/
def LauncherValid (I : Installation) (launcher : Option LauncherOwnership) : Prop :=
  match I.platform with
  | .unix => launcher = none
  | .windows => ∃ o, launcher = some o ∧
      (validateLauncherOwnership o : Except (InstallError V) Unit) = .ok ()

/-- The launcher that will be recorded for the version fits what is installed. -/
def LauncherKnown (I : Installation) (s : Disk V) (v : V) (prior : Option (InstallState V)) : Prop :=
  I.platform = .windows →
    match prior with
    | some i => validateInstallState I.platform i = .ok () ∧ I.verifyInstalledLauncher i s = .ok ()
    | none => ∃ state carried, I.Retained s v state ∧ state.launcher = some carried ∧
        (validateLauncherOwnership (I.ownershipOf carried) : Except (InstallError V) Unit) = .ok () ∧
        (I.verifyInstalledLauncherRecord (I.ownershipOf carried) s :
          Except (InstallError V) Unit) = .ok ()

omit [Crates V] in
theorem validateInstallState_eq_ok {i : InstallState V} :
    validateInstallState I.platform i = .ok () ↔
      (i.schemaVersion = stateSchemaVersion ∧ validId i.installationId = true) ∧
      ¬ (i.active = none ∧ i.previous ≠ none) ∧ ¬ (i.active = i.previous ∧ i.active ≠ none) ∧
      LauncherValid (V := V) I i.launcher := by
  rw [LauncherValid]
  cases hI : I.platform <;>
    simp only [validateInstallState, bind_eq_ok, check_eq_ok, orError_eq_ok, exists_const]

omit [Crates V] in
theorem valid_recorded {v : V} {fromVersion : Option V} {id : String}
    {launcher : Option LauncherOwnership} (valid : validId id = true)
    (apart : fromVersion ≠ some v) (fits : LauncherValid (V := V) I launcher) :
    validateInstallState I.platform (recorded v fromVersion id launcher) = .ok () := by
  rw [validateInstallState_eq_ok]
  exact ⟨⟨rfl, valid⟩, (fun h => nomatch h.1), (fun h => apart h.1.symm), fits⟩

omit [Crates V] in
theorem validatePending_eq_ok {p : PendingActivation V} :
    (validatePending p : Except (InstallError V) Unit) = .ok () ↔
      (p.schemaVersion = stateSchemaVersion ∧ validId p.transactionId = true) ∧
      p.fromVersion ≠ some p.toVersion := by
  simp only [validatePending, bind_eq_ok, check_eq_ok, exists_const]

theorem Complete.validId {dir : VersionDir} {state : VersionState V} {c : Contents V}
    (h : I.Complete dir state c) : validId state.installationId = true := by
  have valid := h.valid
  simp only [validateVersionState, bind_eq_ok, check_eq_ok] at valid
  exact valid.choose_spec.2.choose_spec.1.2.1

theorem succeeds_launcherOwnershipFor {v : V} {prior : Option (InstallState V)}
    (known : LauncherKnown I s v prior) :
    ∃ launcher, Succeeds (I.launcherOwnershipFor v prior) s launcher s ∧
      LauncherValid (V := V) I launcher := by
  unfold LauncherKnown at known
  unfold launcherOwnershipFor LauncherValid
  cases hI : I.platform with
  | unix => exact ⟨none, Succeeds.pure, rfl⟩
  | windows =>
    cases prior with
    | some i =>
      obtain ⟨valid, verified⟩ := known hI
      have fits := (validateInstallState_eq_ok.mp valid).2.2.2
      unfold LauncherValid at fits
      rw [hI] at fits
      exact ⟨i.launcher, (Succeeds.reads verified).bind Succeeds.pure, fits⟩
    | none =>
      obtain ⟨state, carried, retained, named, valid, verified⟩ := known hI
      refine ⟨some (I.ownershipOf carried), ?_, _, rfl, valid⟩
      apply (retained.succeeds I (.inl rfl)).bind
      apply (Succeeds.ofExcept (by rw [named]; rfl)).bind
      exact (Succeeds.reads verified).bind Succeeds.pure

omit [Crates V] in
theorem succeeds_writeInstallState {inst : InstallState V}
    (valid : validateInstallState I.platform inst = .ok ()) (install : s.install ≠ .foreign) :
    Succeeds (I.writeInstallState inst) s () { s with install := .value inst } := by
  rw [writeInstallState]
  refine (Succeeds.ofExcept valid).bind (Succeeds.write ?_)
  have replaced : replaceDocument (V := V) s.install inst (I.text I.installStatePath) =
      .ok (.value inst) := by
    unfold replaceDocument
    split
    · exact absurd ‹_› install
    · rfl
  rw [replaced]
  rfl

omit [SemVer V] [Crates V] in
theorem succeeds_removePending (pending : s.pending ≠ .foreign) :
    Succeeds (removePending : Action V Unit) s () { s with pending := .absent } := by
  apply Succeeds.write
  split
  · exact absurd ‹_› pending
  · rfl

theorem returns_finishPending (pending : s.pending ≠ .foreign)
    (sweepable : I.Sweepable { s with pending := .absent }) : Returns I.finishPending s := by
  rw [finishPending]
  apply Returns.bind_succeeds (succeeds_removePending pending)
  refine Returns.bind_mark (Returns.bind_mark ?_)
  exact returns_cleanupStaging sweepable

/-! ## Recovery -/

/-- Nothing else stands in the way of emptying the staging directory. -/
theorem Inv.sweepable (h : I.Inv s) (readable : ∀ v, I.Selects s (some v) → I.Readable v)
    (markers : I.OrphanMode s → I.MarkersFit s) : I.Sweepable s := by
  refine ⟨h.staging, h.transactions, fun _ => ?_, h.install, markers⟩
  obtain ⟨p, selects⟩ := h.selects
  cases p with
  | none => exact ⟨none, I.readPointerUnlocked_eq_none.mpr selects⟩
  | some v => exact ⟨some v, I.readPointerUnlocked_eq_some.mpr ⟨selects, readable v selects⟩⟩

theorem Sweepable.documents (h : I.Sweepable s) {install : Document (InstallState V)}
    {pending : Document (PendingActivation V)} (read : ∃ i, install = .ofOption i)
    (kept : install = .absent → s.install = .absent) :
    I.Sweepable { s with install := install, pending := pending } := by
  have same : I.SameSelector s { s with install := install, pending := pending } :=
    SameSelector.refl I _
  refine ⟨h.staging, h.transactions, fun windows => ?_, read, fun orphan => ?_⟩
  · obtain ⟨pointer, hp⟩ := h.selector windows
    exact ⟨pointer, (I.readPointerUnlocked_same same).trans hp⟩
  · have fit := h.markers ⟨orphan.1, orphan.2.1, kept orphan.2.2⟩
    exact ⟨fit.command, fit.marker, fit.retained⟩

theorem returns_completePending {p : PendingActivation V} {old : Option (InstallState V)}
    (h : I.Inv s) (journal : s.pending = .value p) (install : s.install = .ofOption old)
    (sweepable : I.Sweepable s) (known : old = none → LauncherKnown I s p.toVersion none) :
    Returns (I.completePending p old) s := by
  obtain ⟨state, retained⟩ := (h.journal p journal).target
  have apart := (validatePending_eq_ok.mp (h.journal p journal).valid).2
  have ids : old.map InstallState.installationId = none ∨
      old.map InstallState.installationId = some state.installationId := by
    cases old with
    | none => exact .inl rfl
    | some i => exact .inr (congrArg some ((h.described i install).owner _ _ retained).symm)
  have launcherKnown : LauncherKnown I s p.toVersion old := by
    cases old with
    | none => exact known rfl
    | some i => exact fun _ => ⟨(h.described i install).valid, (h.described i install).launcher⟩
  unfold completePending
  apply Returns.bind_succeeds (retained.succeeds I ids)
  have owned : Succeeds (I.requirePendingId old state) s () s := by
    cases old with
    | none => exact Succeeds.pure
    | some i =>
      refine (Succeeds.require ?_).bind (Succeeds.reads (h.described i install).launcher)
      exact ((h.described i install).owner _ _ retained).symm
  apply Returns.bind_succeeds owned
  obtain ⟨launcher, found, fits⟩ := succeeds_launcherOwnershipFor launcherKnown
  apply Returns.bind_succeeds found
  obtain ⟨dir, c, _, _, complete, _⟩ := retained
  have valid := valid_recorded complete.validId apart fits
  have writable : s.install ≠ .foreign := by
    rw [install]
    cases old <;> nofun
  apply Returns.bind_succeeds (succeeds_writeInstallState valid writable)
  apply Returns.bind_mark
  refine (returns_finishPending (by rw [journal]; nofun) ?_).bind_any fun _ _ => Returns.pure _
  exact sweepable.documents ⟨some _, rfl⟩ nofun

theorem returns_recoverPending {p : PendingActivation V} {old : Option (InstallState V)}
    {pointer : Option V} (h : I.Inv s) (journal : s.pending = .value p)
    (read : I.readPointerUnlocked s = .ok pointer) (install : s.install = .ofOption old)
    (sweepable : I.Sweepable s)
    (known : pointer = some p.toVersion → old = none → LauncherKnown I s p.toVersion none) :
    Returns (I.recoverPending p old pointer) s := by
  have facts := h.journal p journal
  have selects := I.selects_of_read read
  have drop : Returns (do I.finishPending; return old.isSome : Action V Bool) s := by
    refine (returns_finishPending (by rw [journal]; nofun) ?_).bind_any fun _ _ => Returns.pure _
    exact sweepable.documents h.install id
  simp only [recoverPending]
  apply Returns.bind_ofExcept facts.valid
  rcases facts.selector with ⟨from_, _⟩ | ⟨to_, _⟩
  · have same := Selects.unique I selects from_
    cases pointer with
    | none =>
      dsimp only
      rw [if_pos same.symm]
      exact drop
    | some v =>
      have apart : v ≠ p.toVersion := by
        rintro rfl
        exact (validatePending_eq_ok.mp facts.valid).2 same.symm
      dsimp only
      rw [if_neg apart, if_pos same]
      exact drop
  · have same := Selects.unique I selects to_
    subst same
    dsimp only
    rw [if_pos rfl]
    exact returns_completePending h journal install sweepable (known rfl)

/-- The record of the selected version needs no repair. -/
theorem Inv.agrees (h : I.Inv s) {v : V} {i : InstallState V} {state : VersionState V}
    (install : s.install = .value i) (active : i.active = some v)
    (retained : I.Retained s v state) : I.needsRepair v (some i) state s = false := by
  have described := h.described i install
  obtain ⟨⟨schema, _⟩, _, _, fits⟩ := validateInstallState_eq_ok.mp described.valid
  obtain ⟨dir, c, _, _, complete, _⟩ := id retained
  have stateSchema : state.schemaVersion = stateSchemaVersion := by
    have valid := complete.valid
    simp only [validateVersionState, bind_eq_ok, check_eq_ok] at valid
    exact valid.choose_spec.1
  have launcher : I.launcherStateDisagrees i state.launcher s = false := by
    have verified := described.launcher
    have carries := complete.launcher
    unfold launcherStateDisagrees
    unfold LauncherValid at fits
    unfold verifyInstalledLauncher at verified
    unfold verifyVersionLauncher at carries
    cases hI : I.platform with
    | unix =>
      rw [hI] at fits
      simp [fits]
    | windows =>
      rw [hI] at fits verified
      obtain ⟨o, named, valid⟩ := fits
      rw [if_pos ((I.target_platform _ complete.target).mpr hI)] at carries
      simp only [named, bind_eq_ok, orError_eq_ok, check_eq_ok, Option.some.injEq] at verified carries
      obtain ⟨o', rfl, verified⟩ := verified
      obtain ⟨signed, _, _, _, carried⟩ := carries
      have record := verified
      simp only [verifyInstalledLauncherRecord, bind_eq_ok, check_eq_ok] at record
      obtain ⟨_, ⟨owned, protocol⟩, _⟩ := record
      simp [named, carried, owned, protocol, verified, Except.toOption]
  simp [needsRepair, schema, active, described.owner v state retained, launcher, stateSchema]

theorem returns_reconcileSelected {v : V} {i : InstallState V} (h : I.Inv s)
    (selects : I.Selects s (some v)) (install : s.install = .value i) (active : i.active = some v)
    (sweepable : I.Sweepable s) : Returns (I.reconcileSelected v (some i)) s := by
  obtain ⟨state, retained⟩ := h.selected selects
  rw [reconcileSelected]
  apply Returns.bind_succeeds (retained.succeeds I (.inl rfl))
  apply Returns.bind_get
  have agrees := h.agrees install active retained
  refine Returns.bind_succeeds (Succeeds.onlyIf (t := s) (fun repair => ?_) fun _ => rfl) ?_
  · rw [agrees] at repair
    cases repair
  · exact (returns_cleanupStaging sweepable).bind_any fun _ _ => Returns.pure _

omit [SemVer V] [Crates V] in
theorem OwnPlace.ensured {place : Place} (h : OwnPlace place) (path : String) :
    (place.ensurePrivate path : Except (InstallError V) Place) = .ok (.directory true) := by
  rcases h with rfl | rfl <;> rfl

omit [SemVer V] [Crates V] in
theorem OwnFolder.ensured {α : Type} {folder : Folder α} (h : OwnFolder folder) (path : String) :
    ∃ made, (folder.ensurePrivate path : Except (InstallError V) (Folder α)) = .ok made := by
  rcases h with rfl | ⟨entries, rfl⟩
  · exact ⟨_, rfl⟩
  · exact ⟨_, rfl⟩

/-- Every directory of the layout is missing or private. -/
structure Layable (I : Installation) (s : Disk V) : Prop where
  root : OwnPlace s.root
  versions : OwnFolder s.versions
  staging : OwnFolder s.staging
  bin : I.platform = .windows → OwnPlace s.commandParent

theorem Inv.layable (h : I.Inv s) : Layable I s := ⟨h.root, h.versions, h.staging, h.bin⟩

omit [SemVer V] [Crates V] in
theorem Layable.scaffold (h : Layable I s) (step : Scaffold s t) : Layable I t :=
  ⟨h.root.chain step.root, h.versions.chain step.versions, h.staging.chain step.staging,
    fun windows => (h.bin windows).chain step.commandParent⟩

theorem returns_ensurePrivateLayout (h : Layable I s) : Returns I.ensurePrivateLayout s := by
  have write : ∀ {f : Disk V → Except (InstallError V) (Disk V)} {a b : Disk V}, f a = .ok b →
      Returns (write f : Action V Unit) a := fun ok => (Succeeds.write ok).returns
  unfold ensurePrivateLayout
  refine Returns.bind (write (by rw [h.root.ensured]; rfl))
    (guards_ensureRoot : Guards true (I.Effect .recovery s) _ _ _) fun _ a ⟨stepA, _⟩ => ?_
  have ha := h.scaffold stepA
  obtain ⟨versions, ensured⟩ := ha.versions.ensured (V := V) (I.text I.versionsDir)
  refine Returns.bind (write (by rw [ensured]; rfl))
    (guards_ensureVersionsDir : Guards true (I.Effect .recovery s) _ _ _) fun _ b ⟨stepB, _⟩ => ?_
  have hb := ha.scaffold stepB
  obtain ⟨staging, ensured⟩ := hb.staging.ensured (V := V) (I.text I.stagingDir)
  refine Returns.bind (write (by rw [ensured]; rfl))
    (guards_ensureStagingDir : Guards true (I.Effect .recovery s) _ _ _) fun _ c ⟨stepC, _⟩ => ?_
  have hc := hb.scaffold stepC
  exact Returns.onlyIf fun windows => write (by rw [(hc.bin windows).ensured]; rfl)

omit [Crates V] in
theorem Laid.adds {v : V} (h : I.Laid s) (added : AddsEmpty v s t) : I.Laid t := by
  obtain ⟨entries, present⟩ := h.versions
  have versions : ∃ entries, t.versions = .directory true entries := by
    rcases added with ⟨_, ⟨_, rfl⟩ | ⟨p, es, present', rfl⟩⟩
    · exact ⟨_, rfl⟩
    · rw [present] at present'
      cases present'
      exact ⟨_, rfl⟩
  rw [added.shape]
  exact ⟨h.root, versions, h.staging, h.bin⟩

/-- Creating directories changes nothing that recovery depends on. -/
theorem MarkersFit.scaffold (h : I.MarkersFit s) (step : Scaffold s t) : I.MarkersFit t :=
  h.sweep (.inl step.command) step.versionEntries fun id _ found => (step.transaction id) ▸ found

theorem LauncherKnown.frame {v : V} (h : LauncherKnown I s v none) (frame : I.Frame s t) :
    LauncherKnown I t v none := by
  intro windows
  obtain ⟨state, carried, retained, named, valid, verified⟩ := h windows
  refine ⟨state, carried, retained.of_entry I (frame.versions _), named, valid, ?_⟩
  rw [verifyInstalledLauncherRecord, sameRegularFileObject, commandFile] at *
  rw [frame.command]
  exact verified

/-- Recovery succeeds on every disk of the invariant whose selector can be read.
On Windows the launcher must be accounted for while `install.json` is missing. -/
theorem returns_recoverLocked (h : I.Inv s) (readable : ∀ v, I.Selects s (some v) → I.Readable v)
    (markers : I.OrphanMode s → I.MarkersFit s)
    (known : ∀ p, s.pending = .value p → I.Selects s (some p.toVersion) → s.install = .absent →
      LauncherKnown I s p.toVersion none) : Returns I.recoverLocked s := by
  unfold recoverLocked
  refine (returns_ensurePrivateLayout h.layable).bind
    (guards_ensurePrivateLayout : Guards true (I.Effect .recovery s) _ _ _) fun _ a ⟨scaffold, _⟩ => ?_
  have frame := Scaffold.frame I scaffold
  have ha := h.scaffold scaffold
  have readableA : ∀ v, I.Selects a (some v) → I.Readable v := fun v selects =>
    readable v (selects.of_same I frame.selector)
  have sweepable : I.Sweepable a := by
    refine ha.sweepable readableA fun orphan => (markers ⟨orphan.1, ?_, ?_⟩).scaffold scaffold
    · exact scaffold.active.symm.trans orphan.2.1
    · exact scaffold.install.symm.trans orphan.2.2
  obtain ⟨pending, hp⟩ := ha.pending
  obtain ⟨install, hi⟩ := ha.install
  obtain ⟨pointer, selects⟩ := ha.selects
  have read : I.readPointerUnlocked a = .ok pointer := by
    cases pointer with
    | none => exact I.readPointerUnlocked_eq_none.mpr selects
    | some v => exact I.readPointerUnlocked_eq_some.mpr ⟨selects, readableA v selects⟩
  refine Returns.bind_reads (Document.readJson_eq_ok.mpr hp) ?_
  refine Returns.bind_reads (Document.readJson_eq_ok.mpr hi) ?_
  have valid : I.validateRecorded install = .ok () := by
    cases install with
    | none => rfl
    | some i => exact (ha.described i hi).valid
  refine Returns.bind_ofExcept valid (Returns.bind_reads read ?_)
  cases pending with
  | some p =>
    apply returns_recoverPending ha hp read hi sweepable
    rintro rfl rfl
    refine (known p ?_ (selects.of_same I frame.selector) ?_).frame frame
    · exact scaffold.pending.symm.trans hp
    · exact scaffold.install.symm.trans hi
  | none =>
    have settled := Selects.unique I selects (ha.settled hp)
    cases pointer with
    | some v =>
      cases install with
      | none =>
        rw [activeOf, hi] at settled
        cases settled
      | some i =>
        rw [activeOf_value hi] at settled
        exact returns_reconcileSelected ha selects hi settled.symm sweepable
    | none =>
      have inactive : install.bind InstallState.active = none := by
        cases install with
        | none => rfl
        | some i =>
          rw [activeOf_value hi] at settled
          exact settled.symm
      exact Returns.bind_require inactive (Returns.bind_get
        ((Returns.onlyIf fun _ => returns_cleanupStaging sweepable).bind_any fun _ _ =>
          Returns.pure _))

theorem Inv.pointerPathExists (h : I.Inv s) : ∃ b, I.pointerPathExists s = .ok b := by
  rw [Installation.pointerPathExists]
  cases hI : I.platform with
  | windows => exact ⟨_, rfl⟩
  | unix =>
    obtain ⟨p, selects⟩ := h.selects
    unfold Selects at selects
    rw [hI] at selects
    cases p with
    | none =>
      rw [selects]
      exact ⟨_, rfl⟩
    | some v =>
      rw [selects]
      exact ⟨_, rfl⟩

omit [Crates V] in
theorem returns_pointerIsUnrelated {hasPointer hasInstall hasPending : Bool} :
    Returns (I.pointerIsUnrelated hasPointer hasInstall hasPending) s := by
  rw [pointerIsUnrelated]
  split
  · exact Returns.bind_succeeds (a := I.readPointerUnlocked s) (t := s)
      (by rw [Succeeds, exec_attempt, exec_reads]) (Returns.pure _)
  · exact Returns.pure _

/-- Recovery from outside the lock succeeds as well: once anything has been
written, the lock file is there. -/
theorem returns_recoverIfManaged (h : I.Shared s)
    (configured : (I.validateConfiguration : Except (InstallError V) Unit) = .ok ())
    (readable : ∀ v, I.Selects s (some v) → I.Readable v)
    (markers : I.OrphanMode s → I.MarkersFit s)
    (known : ∀ p, s.pending = .value p → I.Selects s (some p.toVersion) → s.install = .absent →
      LauncherKnown I s p.toVersion none) : Returns I.recoverIfManaged s := by
  unfold recoverIfManaged
  refine Returns.bind_ofExcept configured (Returns.bind_get ?_)
  split
  · exact Returns.pure _
  have reachable : (I.reachRoot s : Except (InstallError V) Unit) = .ok () := by
    unfold reachRoot
    refine check_pass fun file => ?_
    rcases h.root with absent | own
    · rw [absent] at file; cases file.2
    · rw [own] at file; cases file.2
  refine Returns.bind_reads reachable (Returns.bind_get (Returns.bind_get ?_))
  obtain ⟨hasPointer, exists_⟩ := h.toInv.pointerPathExists
  refine Returns.bind_reads exists_ (Returns.bind_get ?_)
  dsimp only
  split
  · exact Returns.pure _
  rename_i evidence
  have settled : Settled s := by
    refine h.anchored.resolve_right fun bare => evidence ?_
    have noPointer : hasPointer = false := by
      have selected := bare.selected
      unfold Selects at selected
      unfold Installation.pointerPathExists at exists_
      cases hI : I.platform <;> simp only [hI] at selected exists_
      · rw [selected] at exists_
        exact (Except.ok.inj exists_).symm
      · rw [selected] at exists_
        exact (Except.ok.inj exists_).symm
    simp [bare.install, bare.pending, noPointer, stagingHasLauncherMarker, bare.staging]
  have rooted : Succeeds I.ensureRoot s () s := by
    refine Succeeds.write ?_
    rw [settled.root]
    simp only [Place.ensurePrivate]
    rw [← settled.root]
    rfl
  refine Returns.bind_succeeds rooted ?_
  refine Returns.bind returns_pointerIsUnrelated
    (guards_pointerIsUnrelated (G := fun _ _ => True)) fun unrelated a same => ?_
  subst same
  split
  · exact Returns.pure _
  · simp only [lockExisting]
    have locked : (checkLockFile false a : Except (InstallError V) Unit) = .ok () := by
      rw [checkLockFile, settled.lock]
    refine Returns.bind_reads locked ?_
    exact (Returns.bind_mark (returns_recoverLocked h.toInv readable markers known)).locked

/-- On Unix nothing but the configuration can stop recovery. -/
theorem returns_recoverIfManaged_unix (unix : I.platform = .unix) (h : I.Shared s)
    (configured : (I.validateConfiguration : Except (InstallError V) Unit) = .ok ()) :
    Returns I.recoverIfManaged s := by
  refine returns_recoverIfManaged h configured (fun v selects => (h.replaceable unix v selects).1)
    (fun orphan => ?_) fun _ _ _ _ windows => ?_
  · exact nomatch unix.symm.trans orphan.1
  · exact nomatch unix.symm.trans windows

end Progress

end Installation

end Relswap
