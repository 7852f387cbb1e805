import Relswap.Proof.Operation

/-!
# Everything before the journal

Between the leading recovery and `activate_pointer_and_state` an operation lays out
directories, sweeps the staging directory, stages a version and verifies what is retained.
None of this writes the selector, the journal or `install.json`.
-/

namespace Relswap

open Durable Durable.Program Disk

namespace Installation

open Layout

variable {V : Type} (I : Installation)

/-- Selector, journal and `install.json` are the same. -/
structure SameState (s t : Disk V) : Prop where
  selector : I.SameSelector s t
  pending : t.pending = s.pending
  install : t.install = s.install

namespace SameState

variable {I} {s t u : Disk V}

theorem refl (s : Disk V) : I.SameState s s := ⟨SameSelector.refl I s, rfl, rfl⟩

theorem trans (first : I.SameState s t) (next : I.SameState t u) : I.SameState s u :=
  ⟨first.selector.trans I next.selector, next.pending.trans first.pending,
    next.install.trans first.install⟩

theorem of_chain (chain : Relation.ReflTransGen I.SameState s t) : I.SameState s t := by
  induction chain with
  | refl => exact .refl s
  | tail _ last ih => exact ih.trans last

theorem of_fields (active : t.active = s.active) (command : t.command = s.command)
    (pending : t.pending = s.pending) (install : t.install = s.install) : I.SameState s t := by
  refine ⟨?_, pending, install⟩
  rw [SameSelector]
  cases I.platform with
  | unix => exact command
  | windows => exact active

/-- On Windows the command is not the selector. -/
theorem of_windows (windows : I.platform = .windows) (active : t.active = s.active)
    (pending : t.pending = s.pending) (install : t.install = s.install) : I.SameState s t := by
  refine ⟨?_, pending, install⟩
  rw [SameSelector]
  rw [windows]
  exact active

end SameState

variable {I}

/-- A write that leaves the fields of the selector and of the documents alone. -/
theorem keeps_write {w : Disk V → Except (InstallError V) (Disk V)}
    (same : ∀ s t, w s = .ok t → t.active = s.active ∧ t.command = s.command ∧
      t.pending = s.pending ∧ t.install = s.install) : Keeps I.SameState (write w) :=
  Keeps.write fun s t made =>
    have ⟨active, command, pending, install⟩ := same s t made
    .of_fields active command pending install

/-! ## Directories -/

/-- A directory is created, or found to be in order, in one field of the disk. -/
theorem keeps_place {α : Type} {place : Disk V → Except (InstallError V) α}
    (put : Disk V → α → Disk V)
    (same : ∀ s a, (put s a).active = s.active ∧ (put s a).command = s.command ∧
      (put s a).pending = s.pending ∧ (put s a).install = s.install) :
    Keeps I.SameState (write fun s => return put s (← place s)) := by
  apply keeps_write
  intro s t made
  simp only [bind_eq_ok, pure_eq_ok] at made
  obtain ⟨a, _, rfl⟩ := made
  exact same s a

theorem keeps_ensureRoot : Keeps I.SameState (I.ensureRoot (V := V)) :=
  keeps_place (fun s root => { s with root }) fun _ _ => ⟨rfl, rfl, rfl, rfl⟩

theorem keeps_ensureVersionsDir : Keeps I.SameState (I.ensureVersionsDir (V := V)) :=
  keeps_place (fun s versions => { s with versions }) fun _ _ => ⟨rfl, rfl, rfl, rfl⟩

theorem keeps_ensureStagingDir : Keeps I.SameState (I.ensureStagingDir (V := V)) :=
  keeps_place (fun s staging => { s with staging }) fun _ _ => ⟨rfl, rfl, rfl, rfl⟩

theorem keeps_ensureBinDir : Keeps I.SameState (I.ensureBinDir (V := V)) :=
  keeps_place (fun s commandParent => { s with commandParent }) fun _ _ => ⟨rfl, rfl, rfl, rfl⟩

theorem keeps_ensurePrivateLayout : Keeps I.SameState (I.ensurePrivateLayout (V := V)) := by
  rw [ensurePrivateLayout]
  refine keeps_ensureRoot.bind fun _ => keeps_ensureVersionsDir.bind fun _ => ?_
  exact keeps_ensureStagingDir.bind fun _ => Keeps.onlyIf fun _ => keeps_ensureBinDir

theorem keeps_ensureCommandParent : Keeps I.SameState (I.ensureCommandParent (V := V)) := by
  rw [ensureCommandParent]
  split
  · exact Keeps.throw _
  · exact keeps_ensureBinDir
  · exact keeps_place (fun s commandParent => { s with commandParent })
      fun _ _ => ⟨rfl, rfl, rfl, rfl⟩

/-! ## One transaction -/

theorem keeps_mapTransaction (id : String) (f : Transaction → Transaction) :
    Keeps I.SameState (write (ε := InstallError V) fun s : Disk V => .ok (s.mapTransaction id f)) := by
  apply keeps_write
  intro s t made
  cases made
  rw [mapTransaction]
  split <;> exact ⟨rfl, rfl, rfl, rfl⟩

theorem keeps_updateTransaction (id : String)
    (f : Transaction → Except (InstallError V) Transaction) :
    Keeps I.SameState (write fun s : Disk V => s.updateTransaction id f) := by
  apply keeps_write
  intro s t made
  obtain ⟨_, _, _, _, rfl⟩ := updateTransaction_eq_ok.mp made
  exact ⟨rfl, rfl, rfl, rfl⟩

theorem keeps_removeTransaction (id : String) :
    Keeps I.SameState (removeTransaction (V := V) id) := by
  rw [removeTransaction]
  refine Keeps.get.bind fun s => ?_
  split
  · exact Keeps.throw _
  · refine (Keeps.forEach fun name => keeps_mapTransaction id _).bind fun _ => ?_
    refine (Keeps.forEach fun name => keeps_mapTransaction id _).bind fun _ => ?_
    refine (keeps_mapTransaction id _).bind fun _ => keeps_write fun s t made => ?_
    cases made
    exact ⟨rfl, rfl, rfl, rfl⟩

theorem keeps_writeMember (id name : String) (data : Bytes) :
    Keeps I.SameState (writeMember (V := V) id name data) := by
  apply keeps_write
  intro s t made
  obtain ⟨_, _, _, _, rfl⟩ := updateTransaction_eq_ok.mp (mapError_eq_ok.mp made)
  exact ⟨rfl, rfl, rfl, rfl⟩

variable [SemVer V]

theorem SameState.of_adds {v : V} {s t : Disk V} (added : AddsEmpty v s t) : I.SameState s t :=
  ⟨added.selector, added.core.2.1, added.core.1⟩

variable [Crates V]

/-! ## Verifying what is retained -/

theorem keeps_verifyFinalVersion (v : V) (id : Option String) :
    Keeps I.SameState (I.verifyFinalVersion v id) := fun s =>
  I.wp_verifyFinalVersion (.refl s) (fun _ added => ⟨.of_adds added, fun _ => trivial⟩)
    (fun _ _ _ => trivial) fun _ => trivial

theorem keeps_retainedLauncherAmong (entries : List (Sigma fun _ : String => VersionEntry)) :
    Keeps I.SameState (I.retainedLauncherAmong (V := V) entries) := by
  induction entries with
  | nil => exact Keeps.pure _
  | cons entry rest ih =>
    obtain ⟨name, found⟩ := entry
    cases found with
    | foreign => exact ih
    | directory dir =>
      rw [retainedLauncherAmong]
      refine (Keeps.ofExcept _).bind fun version => ?_
      refine (keeps_verifyFinalVersion version none).bind fun state => ?_
      split
      · exact ih
      · refine (Keeps.reads _).bind fun carried => ?_
        split
        · exact Keeps.pure _
        · exact ih

theorem keeps_retainedLauncherOwnership :
    Keeps I.SameState (I.retainedLauncherOwnership (V := V)) :=
  Keeps.get.bind fun _ => keeps_retainedLauncherAmong _

theorem keeps_proveRetainedLauncherOwnership :
    Keeps I.SameState (I.proveRetainedLauncherOwnership (V := V)) :=
  keeps_retainedLauncherOwnership.bind fun _ => Keeps.pure _

theorem keeps_provenWithoutInstall (install : Option (InstallState V)) :
    Keeps I.SameState (I.provenWithoutInstall install) := by
  rw [provenWithoutInstall]
  split
  · exact keeps_proveRetainedLauncherOwnership
  · exact Keeps.pure _

theorem keeps_ensureActiveOwned (active : V) (install : Option (InstallState V)) :
    Keeps I.SameState (I.ensureActiveOwned active install) := by
  simp only [ensureActiveOwned]
  split
  · exact Keeps.throw _
  · refine (Keeps.require _).bind fun _ => (keeps_verifyFinalVersion _ _).bind fun _ => ?_
    split
    · refine Keeps.get.bind fun s => ?_
      split
      · exact Keeps.require _
      · exact Keeps.throw _
    · exact Keeps.reads _

theorem keeps_ensureCommandOwned (active : Option V) (install : Option (InstallState V)) :
    Keeps I.SameState (I.ensureCommandOwned active install) := by
  simp only [ensureCommandOwned]
  refine (Keeps.reads _).bind fun present => ?_
  split
  · split
    · exact keeps_ensureActiveOwned _ install
    · exact (keeps_provenWithoutInstall install).bind fun _ => Keeps.require _
  · exact Keeps.require _

theorem keeps_requireUnforeignCommand : Keeps I.SameState (I.requireUnforeignCommand (V := V)) := by
  rw [requireUnforeignCommand]
  refine (Keeps.reads _).bind fun present => ?_
  split
  · refine Keeps.get.bind fun s => ?_
    split
    · exact (keeps_provenWithoutInstall none).bind fun _ => Keeps.require _
    · exact Keeps.pure _
  · exact Keeps.pure _

theorem keeps_requireManagedCurrent : Keeps I.SameState (I.requireManagedCurrent (V := V)) := by
  rw [requireManagedCurrent]
  refine (Keeps.reads _).bind fun _ => (Keeps.ofExcept _).bind fun current => ?_
  refine (Keeps.reads _).bind fun _ => (Keeps.ofExcept _).bind fun install => ?_
  refine (Keeps.ofExcept _).bind fun _ => (Keeps.require _).bind fun _ => ?_
  refine (keeps_verifyFinalVersion _ _).bind fun _ => ?_
  exact (keeps_ensureCommandOwned _ _).bind fun _ => Keeps.pure _

/-! ## The staging directory -/

/-- An orphaned launcher is looked for on Windows only, where the command is not the
selector. -/
theorem keeps_cleanupMarker {removeOrphans : Bool} (windows : removeOrphans = true →
    I.platform = .windows) (id : String) (transaction : Transaction) :
    Keeps I.SameState (I.cleanupMarker (V := V) removeOrphans id transaction) := by
  simp only [cleanupMarker]
  split
  · rw [removeOrphanLauncher]
    refine (Keeps.ofExcept _).bind fun expected => (Keeps.reads _).bind fun present => ?_
    split
    · refine (Keeps.reads _).bind fun bytes => (Keeps.require _).bind fun _ => ?_
      refine (Keeps.reads _).bind fun retained => ?_
      split
      · exact Keeps.pure _
      · refine Keeps.write fun s t made => ?_
        cases made
        exact .of_windows (windows rfl) rfl rfl rfl
    · exact Keeps.pure _
  · exact Keeps.pure _

theorem keeps_cleanupEntries {removeOrphans : Bool} (windows : removeOrphans = true →
    I.platform = .windows) (entries : List (Sigma fun _ : String => StagingEntry)) :
    Keeps I.SameState (I.cleanupEntries (V := V) removeOrphans entries) := by
  induction entries with
  | nil => exact Keeps.pure _
  | cons entry rest ih =>
    obtain ⟨id, found⟩ := entry
    cases found with
    | foreign => exact Keeps.throw _
    | transaction transaction =>
      rw [cleanupEntries]
      refine (keeps_cleanupMarker windows id transaction).bind fun _ => ?_
      exact (keeps_removeTransaction id).bind fun _ => ih

theorem keeps_cleanupStaging : Keeps I.SameState (I.cleanupStaging (V := V)) := by
  rw [cleanupStaging]
  refine Keeps.get.bind fun s => ?_
  split
  · exact Keeps.pure _
  · refine keeps_ensureStagingDir.bind fun _ => ?_
    rw [removesOrphans]
    split
    · rename_i windows
      refine Keeps.bind ?_ fun orphans => Keeps.get.bind fun _ =>
        keeps_cleanupEntries (fun _ => windows) _
      refine (Keeps.reads _).bind fun selected => ?_
      split
      · exact Keeps.pure _
      · exact (Keeps.reads _).bind fun _ => Keeps.pure _
    · refine Keeps.get.bind fun _ => keeps_cleanupEntries (fun removes => ?_) _
      cases removes

/-! ## Staging a version -/

section Staging

variable {U : Type}

omit [SemVer V] [Crates V] in
theorem keeps_createTransaction (inputs : Inputs V U) :
    Keeps I.SameState (I.createTransaction inputs) := by
  rw [createTransaction]
  refine keeps_ensurePrivateLayout.bind fun _ => (Keeps.ofExcept _).bind fun id => ?_
  refine Keeps.bind ?_ fun _ => (keeps_updateTransaction id _).bind fun _ =>
    (Keeps.mark _).bind fun _ => Keeps.pure _
  apply keeps_write
  intro s t made
  split at made
  · cases made
    exact ⟨rfl, rfl, rfl, rfl⟩
  · cases made
  · split at made
    · cases made
      exact ⟨rfl, rfl, rfl, rfl⟩
    · simp only [bind_eq_ok, pure_eq_ok] at made
      obtain ⟨_, _, rfl⟩ := made
      exact ⟨rfl, rfl, rfl, rfl⟩
    · cases made

theorem keeps_extractArchiveFile (id archive : String) (asset : ReleaseAsset) :
    Keeps I.SameState (I.extractArchiveFile (V := V) id archive asset) := by
  rw [extractArchiveFile]
  refine (Keeps.reads _).bind fun bytes => (Keeps.require _).bind fun _ => ?_
  refine (Keeps.ofExcept _).bind fun release => (Keeps.ofExcept _).bind fun target => ?_
  refine (Keeps.onlyIf fun _ => keeps_updateTransaction id _).bind fun _ => ?_
  dsimp only
  split
  · exact keeps_writeMember id _ _
  · refine (Keeps.ofExcept _).bind fun launcherName => ?_
    refine (keeps_writeMember id _ _).bind fun _ => ?_
    refine (keeps_writeMember id _ _).attempt.bind fun written => ?_
    split
    · exact Keeps.pure _
    · exact (keeps_updateTransaction id _).bind fun _ => Keeps.throw _

omit [SemVer V] [Crates V] in
/-- A launcher is created on Windows only, where the command is not the selector. -/
theorem keeps_createLauncher (windows : I.platform = .windows) (id launcherName sha256 : String)
    (alreadyManaged : Bool) :
    Keeps I.SameState (I.createLauncher (V := V) id launcherName sha256 alreadyManaged) := by
  rw [createLauncher]
  refine (Keeps.require _).bind fun _ => keeps_ensureCommandParent.bind fun _ => ?_
  refine (keeps_updateTransaction id _).bind fun _ => (Keeps.reads _).bind fun bytes => ?_
  refine Keeps.write fun s t made => ?_
  simp only [bind_eq_ok, pure_eq_ok] at made
  obtain ⟨_, _, rfl⟩ := made
  exact .of_windows windows rfl rfl rfl

theorem keeps_requireLauncherOwned (alreadyManaged : Bool) :
    Keeps I.SameState (I.requireLauncherOwned (V := V) alreadyManaged) := by
  rw [requireLauncherOwned]
  refine (Keeps.require _).bind fun _ => (Keeps.reads _).bind fun install => ?_
  split
  · exact Keeps.reads _
  · exact keeps_proveRetainedLauncherOwnership.bind fun _ => Keeps.require _

theorem keeps_installLauncher (windows : I.platform = .windows) (id : String)
    (asset : SelectedAsset) (alreadyManaged : Bool) :
    Keeps I.SameState (I.installLauncher (V := V) id asset alreadyManaged) := by
  rw [installLauncher]
  refine (Keeps.ofExcept _).bind fun launcher => (Keeps.require _).bind fun _ => ?_
  refine (Keeps.ofExcept _).bind fun launcherName => (Keeps.reads _).bind fun bytes => ?_
  refine (Keeps.ofExcept _).bind fun _ => (Keeps.reads _).bind fun present => ?_
  refine Keeps.bind ?_ fun _ => keeps_updateTransaction id _
  split
  · exact keeps_requireLauncherOwned alreadyManaged
  · exact keeps_createLauncher windows id _ _ alreadyManaged

theorem keeps_writeDownloadedVersion (inputs : Inputs V U) (id : String)
    (metadata : ReleaseMetadata V U) (archive : DownloadedArchive) (installationId : String)
    (target : Target) (alreadyManaged : Bool) :
    Keeps I.SameState (I.writeDownloadedVersion inputs id metadata archive installationId target
      alreadyManaged) := by
  rw [writeDownloadedVersion]
  refine (Keeps.ofExcept _).bind fun selected => (keeps_updateTransaction id _).bind fun _ => ?_
  refine (keeps_extractArchiveFile id _ _).bind fun _ => ?_
  refine (keeps_updateTransaction id _).bind fun _ => (keeps_updateTransaction id _).bind fun _ => ?_
  refine (Keeps.reads _).bind fun _ => Keeps.bind ?_ fun _ =>
    Keeps.onlyIf fun windows => keeps_installLauncher windows id selected alreadyManaged
  exact (Keeps.ofExcept _).bind fun _ => keeps_updateTransaction id _

omit [Crates V] in
theorem keeps_renameVersion (id : String) (version : V) :
    Keeps I.SameState (renameVersion id version) := by
  apply keeps_write
  intro s t made
  simp only [bind_eq_ok] at made
  obtain ⟨_, _, _, _, _, _, made⟩ := made
  split at made
  · cases made
    exact ⟨rfl, rfl, rfl, rfl⟩
  · cases made

theorem keeps_stageVersion (inputs : Inputs V U) (metadata : ReleaseMetadata V U)
    (archive : DownloadedArchive) (installationId : String) (target : Target) (version : V)
    (alreadyManaged : Bool) :
    Keeps I.SameState (I.stageVersion inputs metadata archive installationId target version
      alreadyManaged) := by
  rw [stageVersion]
  refine (keeps_createTransaction inputs).bind fun id => ?_
  refine (keeps_writeDownloadedVersion inputs id _ _ _ _ _).bind fun _ => ?_
  refine (Keeps.mark _).bind fun _ => Keeps.bind ?_ fun _ => (Keeps.mark _).bind fun _ => ?_
  · rw [verifyStagedVersion]
    refine (keeps_updateTransaction id _).bind fun _ => (Keeps.reads _).bind fun dir => ?_
    exact (Keeps.ofExcept _).bind fun state => (Keeps.require _).bind fun _ => Keeps.pure _
  · refine (Keeps.reads _).bind fun _ => (Keeps.mark _).bind fun _ => ?_
    refine (Keeps.reads _).bind fun appeared => (Keeps.require _).bind fun _ => ?_
    exact (keeps_renameVersion id version).bind fun _ => (Keeps.mark _).bind fun _ => Keeps.pure _

end Staging

/-! ## Preparing an activation -/

section Activation

variable {U : Type}

theorem keeps_commonInstallationId (existing : Option String)
    (entries : List (Sigma fun _ : String => VersionEntry)) :
    Keeps I.SameState (I.commonInstallationId (V := V) existing entries) := by
  induction entries generalizing existing with
  | nil => exact Keeps.pure _
  | cons entry rest ih =>
    obtain ⟨name, found⟩ := entry
    cases found with
    | foreign => exact Keeps.throw _
    | directory dir =>
      rw [commonInstallationId]
      refine (Keeps.ofExcept _).bind fun retained => ?_
      refine (keeps_verifyFinalVersion retained none).bind fun state => ?_
      exact (Keeps.require _).bind fun _ => ih _

theorem keeps_chooseInstallationId (inputs : Inputs V U) (version : V)
    (install : Option (InstallState V)) :
    Keeps I.SameState (I.chooseInstallationId inputs version install) := by
  simp only [chooseInstallationId]
  split
  · exact (Keeps.ofExcept _).bind fun _ => Keeps.pure _
  · refine Keeps.get.bind fun s => ?_
    split
    · exact (keeps_verifyFinalVersion version none).bind fun _ => Keeps.pure _
    · refine (keeps_commonInstallationId none _).bind fun common => ?_
      split
      · exact Keeps.pure _
      · exact Keeps.ofExcept _

omit [Crates V] in
theorem keeps_requireSameMetadata (version : V) (metadata : ReleaseMetadata V U) :
    Keeps I.SameState (I.requireSameMetadata version metadata) := by
  rw [requireSameMetadata]
  refine (Keeps.reads _).bind fun _ => (Keeps.require _).bind fun _ => ?_
  exact (Keeps.reads _).bind fun _ => Keeps.require _

theorem keeps_reuseVersion (version : V) (metadata : ReleaseMetadata V U)
    (installationId : String) (install : Option (InstallState V))
    (retained : Option LauncherOwnership) :
    Keeps I.SameState (I.reuseVersion version metadata installationId install retained) := by
  rw [reuseVersion]
  refine (keeps_verifyFinalVersion version _).bind fun state => ?_
  refine (keeps_requireSameMetadata version metadata).bind fun _ => ?_
  split
  · exact Keeps.reads _
  · exact Keeps.pure _
  · exact (Keeps.ofExcept _).bind fun _ => (Keeps.reads _).bind fun _ => Keeps.ofExcept _

theorem keeps_obtainVersion (inputs : Inputs V U) (metadata : ReleaseMetadata V U)
    (archive : DownloadedArchive) (installationId : String) (target : Target) (version : V)
    (install : Option (InstallState V)) (retained : Option LauncherOwnership) :
    Keeps I.SameState (I.obtainVersion inputs metadata archive installationId target version
      install retained) := by
  rw [obtainVersion]
  refine (Keeps.reads _).bind fun existing => ?_
  split
  · exact (keeps_reuseVersion version metadata _ _ _).bind fun _ => Keeps.pure _
  · exact (keeps_stageVersion inputs metadata archive _ _ _ _).bind fun _ => Keeps.pure _

theorem keeps_retainedWithoutInstall (install : Option (InstallState V)) :
    Keeps I.SameState (I.retainedWithoutInstall install) := by
  rw [retainedWithoutInstall]
  split
  · exact keeps_retainedLauncherOwnership
  · exact Keeps.pure _

end Activation

end Installation

end Relswap
