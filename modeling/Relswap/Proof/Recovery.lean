import Relswap.Proof.Cleanup

/-!
# What recovery does

`Recovered` lists the outcomes of a recovery that completes, each with the facts
it has checked and the exact disk it leaves. The contract of `recoverLocked`
says that there is no other outcome, and that every write on the way is an
effect.
-/

namespace Relswap

open Durable Durable.Program Disk

namespace Installation

variable {V : Type} [SemVer V] [Crates V] (I : Installation)

/-- The document a completed activation leaves. -/
def recorded (v : V) (previous : Option V) (id : String) (launcher : Option LauncherOwnership) :
    InstallState V :=
  ⟨stateSchemaVersion, some v, previous, id, launcher⟩

/-- The disk with `install.json` rewritten and the journal dropped. -/
def settledAs (inst : InstallState V) (s : Disk V) : Disk V :=
  { s with install := .value inst, pending := .absent }

/-- The outcomes of a completed recovery of a prepared disk. -/
inductive Recovered (s : Disk V) : Bool → Disk V → Prop where
  | completed (p : PendingActivation V) (old : Option (InstallState V)) (state : VersionState V)
      (launcher : Option LauncherOwnership) {t : Disk V}
      (journal : s.pending = .value p)
      (valid : (validatePending p : Except (InstallError V) Unit) = .ok ())
      (pointer : I.readPointerUnlocked s = .ok (some p.toVersion))
      (install : s.install = .ofOption old)
      (target : I.Retained s p.toVersion state)
      (same : ∀ i, old = some i → i.installationId = state.installationId)
      (owned : I.LauncherRecorded s launcher)
      (cleaned : I.Cleaned
        (settledAs (recorded p.toVersion p.fromVersion state.installationId launcher) s) t) :
      Recovered s true t
  | dropped (p : PendingActivation V) (old : Option (InstallState V)) {t : Disk V}
      (journal : s.pending = .value p)
      (valid : (validatePending p : Except (InstallError V) Unit) = .ok ())
      (pointer : I.readPointerUnlocked s = .ok p.fromVersion)
      (install : s.install = .ofOption old)
      (cleaned : I.Cleaned { s with pending := .absent } t) :
      Recovered s old.isSome t
  | agreed (v : V) (old : Option (InstallState V)) (state : VersionState V) {t : Disk V}
      (journal : s.pending = .absent)
      (pointer : I.readPointerUnlocked s = .ok (some v))
      (install : s.install = .ofOption old)
      (target : I.Retained s v state)
      (fits : I.needsRepair v old state s = false)
      (cleaned : I.Cleaned s t) :
      Recovered s true t
  | repaired (v : V) (old : Option (InstallState V)) (state : VersionState V)
      (previous : Option V) (launcher : Option LauncherOwnership) {u t : Disk V}
      (journal : s.pending = .absent)
      (pointer : I.readPointerUnlocked s = .ok (some v))
      (install : s.install = .ofOption old)
      (target : I.Retained s v state)
      (disagrees : I.needsRepair v old state s = true)
      (kept : ∀ w, previous = some w → w ≠ v ∧
        ∃ st, I.Retained s w st ∧ st.installationId = state.installationId)
      (tried : u = s ∨ ∃ w, old.bind InstallState.previous = some w ∧ AddsEmpty w s u)
      (owned : I.LauncherRecorded s launcher)
      (cleaned : I.Cleaned
        { u with install := .value (recorded v previous state.installationId launcher) } t) :
      Recovered s true t
  | unselected (old : Option (InstallState V)) {t : Disk V}
      (journal : s.pending = .absent)
      (pointer : I.readPointerUnlocked s = .ok none)
      (install : s.install = .ofOption old)
      (inactive : old.bind InstallState.active = none)
      (cleaned : t = s ∨ I.Cleaned s t) :
      Recovered s false t

/-! ## The installed launcher -/

theorem verifyInstalledLauncherRecord_eq_ok {s : Disk V} {launcher : LauncherOwnership}
    (h : (I.verifyInstalledLauncherRecord launcher s : Except (InstallError V) Unit) = .ok ()) :
    ∃ bytes, s.command = .file bytes ∧ bytes.length = launcher.size ∧
      Crates.sha256 V bytes = launcher.sha256 := by
  simp only [verifyInstalledLauncherRecord, bind_eq_ok, commandFile_eq_ok,
    verifyFileDigest_eq_ok] at h
  obtain ⟨_, _, _, _, _, _, bytes, command, size, digest⟩ := h
  exact ⟨bytes, command, size, digest⟩

theorem verifyInstalledLauncher_windows {s : Disk V} {install : InstallState V}
    (windows : I.platform = .windows) (h : I.verifyInstalledLauncher install s = .ok ()) :
    ∃ launcher, install.launcher = some launcher ∧
      (I.verifyInstalledLauncherRecord launcher s : Except (InstallError V) Unit) = .ok () := by
  simp only [verifyInstalledLauncher, windows, bind_eq_ok, orError_eq_ok] at h
  exact h

/-- The command is a file once a recorded launcher has been verified. -/
theorem command_of_verified {s : Disk V} {install : InstallState V}
    (windows : I.platform = .windows) (h : I.verifyInstalledLauncher install s = .ok ()) :
    ∃ bytes, s.command = .file bytes := by
  obtain ⟨launcher, _, fits⟩ := I.verifyInstalledLauncher_windows windows h
  obtain ⟨bytes, command, _⟩ := I.verifyInstalledLauncherRecord_eq_ok fits
  exact ⟨bytes, command⟩

/-- A launcher record an ownership check may start from: that of `install.json`,
or one that a retained version carries. -/
def PriorKnown (s : Disk V) (prior : Option (InstallState V)) : Prop :=
  ∀ i launcher, prior = some i → i.launcher = some launcher → s.install = .value i ∨
    ∃ v state carried, I.Retained s v state ∧ state.launcher = some carried ∧
      carried.sha256 = launcher.sha256

theorem PriorKnown.install {s : Disk V} {install : Option (InstallState V)}
    (h : s.install = .ofOption install) : I.PriorKnown s install := by
  rintro i launcher rfl _
  exact .inl h

section Guards

variable {I} {solo : Bool} {kind : Kind V} {s₀ s : Disk V}

theorem guards_fault {point : FaultPoint} :
    Guards solo (I.Effect kind s₀) (fun _ t => t = s) (fault point : Action V Unit) s :=
  Guards.mark rfl

/-- Verifying a version that is named, or present, changes nothing on success. -/
theorem guards_verifyNamed {v : V} {id : Option String} (named : I.Mentions s v) :
    Guards solo (I.Effect kind s₀) (fun state t => t = s ∧ I.Retained s v state ∧
      (id = none ∨ id = some state.installationId)) (I.verifyFinalVersion v id) s :=
  I.guards_verifyFinalVersion (Effect.refl I s) fun _ added => .emptyVersion v (.inl named) added

theorem guards_verifyPresent {v : V} {id : Option String} {entry : VersionEntry}
    (present : s.versionEntry (SemVer.toText v) = some entry) :
    Guards solo (I.Effect kind s₀) (fun state t => t = s ∧ I.Retained s v state ∧
      (id = none ∨ id = some state.installationId)) (I.verifyFinalVersion v id) s := by
  refine I.guards_verifyFinalVersion (Effect.refl I s) fun _ added => ?_
  have free := added.1
  rw [present] at free
  cases free

theorem guards_launcherOwnershipFor {v : V} {prior : Option (InstallState V)}
    (named : I.Mentions s v) (known : I.PriorKnown s prior) :
    Guards solo (I.Effect kind s₀)
      (fun launcher t => t = s ∧ I.LauncherRecorded s launcher ∧ I.LauncherOwned s)
      (I.launcherOwnershipFor v prior) s := by
  simp only [launcherOwnershipFor]
  split
  · rename_i unix
    refine Guards.pure ⟨rfl, ?_, fun windows => ?_⟩
    · rw [LauncherRecorded, unix]
    · rw [unix] at windows
      cases windows
  · rename_i prior windows
    refine Guards.bind_reads fun _ verified => Guards.pure ⟨rfl, ?_, fun _ bytes command => ?_⟩
    · obtain ⟨launcher, recorded, fits⟩ := I.verifyInstalledLauncher_windows windows verified
      rw [LauncherRecorded, windows]
      exact ⟨launcher, recorded, fits⟩
    · obtain ⟨launcher, recorded, fits⟩ := I.verifyInstalledLauncher_windows windows verified
      obtain ⟨bytes', command', _, digest⟩ := I.verifyInstalledLauncherRecord_eq_ok fits
      rw [command] at command'
      cases command'
      rcases known prior launcher rfl recorded with install | ⟨w, state, carried, r, hc, same⟩
      · exact .inr (.inr ⟨prior, launcher, install, recorded, digest.symm⟩)
      · exact .inr (.inl ⟨w, state, carried, r, hc, same.trans digest.symm⟩)
  · rename_i windows
    refine Guards.bind_unchanged (guards_verifyNamed named) fun state ⟨retained, _⟩ => ?_
    refine Guards.bind_ofExcept fun launcher carried => ?_
    rw [orError_eq_ok] at carried
    refine Guards.bind_reads fun _ fits => Guards.pure ⟨rfl, ?_, fun _ bytes command => ?_⟩
    · rw [LauncherRecorded, windows]
      exact ⟨_, rfl, fits⟩
    · obtain ⟨bytes', command', _, digest⟩ := I.verifyInstalledLauncherRecord_eq_ok fits
      rw [command] at command'
      cases command'
      exact .inr (.inl ⟨v, state, launcher, retained, carried, digest.symm⟩)

theorem guards_writeInstallState {inst : InstallState V}
    (records : validateInstallState I.platform inst = .ok () → I.Records s inst) :
    Guards solo (I.Effect kind s₀) (fun _ t => t = { s with install := .value inst })
      (I.writeInstallState inst) s := by
  unfold writeInstallState
  refine Guards.bind_ofExcept fun _ valid => Guards.write fun t ht => ?_
  simp only [bind_eq_ok, pure_eq_ok] at ht
  obtain ⟨doc, replaced, rfl⟩ := ht
  have written : doc = .value inst := by
    unfold replaceDocument at replaced
    split at replaced
    · cases replaced
    · exact (Except.ok.inj replaced).symm
  subst written
  exact ⟨.record inst (records valid), rfl⟩

theorem guards_removePending (drops : I.Drops s) :
    Guards solo (I.Effect kind s₀) (fun _ t => t = { s with pending := .absent })
      (removePending : Action V Unit) s := by
  refine Guards.write fun t ht => ?_
  split at ht
  · cases ht
  · cases ht
    exact ⟨.dropJournal drops, rfl⟩

theorem guards_finishPending (drops : I.Drops s) :
    Guards solo (I.Effect kind s₀) (fun _ t => I.Cleaned { s with pending := .absent } t)
      I.finishPending s := by
  rw [finishPending]
  refine (guards_removePending drops).bind fun _ a ha => ?_
  subst ha
  refine guards_fault.bind fun _ _ same => ?_
  subst same
  refine guards_fault.bind fun _ _ same => ?_
  subst same
  exact guards_cleanupStaging

theorem guards_requirePendingId {install : Option (InstallState V)} {state : VersionState V} :
    Guards solo (I.Effect kind s₀)
      (fun _ t => t = s ∧ ∀ i, install = some i → i.installationId = state.installationId)
      (I.requirePendingId install state) s := by
  unfold requirePendingId
  split
  · exact Guards.pure ⟨rfl, nofun⟩
  · refine Guards.bind_require fun same => Guards.reads fun _ _ => ⟨rfl, ?_⟩
    intro i hi
    cases hi
    exact same

theorem guards_completePending {p : PendingActivation V} {old : Option (InstallState V)}
    (journal : s.pending = .value p)
    (valid : (validatePending p : Except (InstallError V) Unit) = .ok ())
    (pointer : I.readPointerUnlocked s = .ok (some p.toVersion))
    (install : s.install = .ofOption old) :
    Guards solo (I.Effect kind s₀) (fun b t => I.Recovered s b t) (I.completePending p old) s := by
  have selects : I.Selects s (some p.toVersion) := I.selects_of_read pointer
  rw [completePending]
  refine (guards_verifyNamed (.inl selects)).bind fun state a ⟨same, target, _⟩ => ?_
  subst same
  refine guards_requirePendingId.bind fun _ a ⟨same, ids⟩ => ?_
  subst same
  refine Guards.bind_unchanged (guards_launcherOwnershipFor (.inl selects)
    (PriorKnown.install I install)) fun launcher ⟨owned, accounted⟩ => ?_
  refine (guards_writeInstallState fun valid => ⟨valid, ⟨p.toVersion, state, rfl, selects, target,
    rfl, .inl ⟨p, journal, rfl, rfl⟩⟩, ⟨old, install⟩, owned, accounted⟩).bind fun _ b hb => ?_
  subst hb
  refine guards_fault.bind fun _ _ same => ?_
  subst same
  have drops : I.Drops { a with
      install := .value (recorded p.toVersion p.fromVersion state.installationId launcher) } := by
    refine ⟨p, journal, .inl ⟨?_, _, rfl, rfl, rfl⟩⟩
    exact selects.same I (by unfold SameSelector; cases I.platform <;> rfl)
  refine (guards_finishPending drops).bind fun _ t cleaned => Guards.pure ?_
  exact .completed p old state launcher journal valid pointer install target ids owned cleaned

theorem guards_recoverPending {p : PendingActivation V} {old : Option (InstallState V)}
    {pointer : Option V} (journal : s.pending = .value p)
    (read : I.readPointerUnlocked s = .ok pointer) (install : s.install = .ofOption old) :
    Guards solo (I.Effect kind s₀) (fun b t => I.Recovered s b t)
      (I.recoverPending p old pointer) s := by
  simp only [recoverPending]
  refine Guards.bind_ofExcept fun _ valid => ?_
  have apart : p.fromVersion ≠ some p.toVersion := by
    simp only [validatePending, bind_eq_ok, check_eq_ok] at valid
    obtain ⟨_, _, apart⟩ := valid
    exact apart
  have drop : I.readPointerUnlocked s = .ok p.fromVersion →
      Guards solo (I.Effect kind s₀) (fun b t => I.Recovered s b t)
        (do I.finishPending; return old.isSome) s := by
    intro from_
    apply (guards_finishPending ⟨p, journal, .inr ⟨I.selects_of_read from_, apart⟩⟩).bind
    exact fun _ t cleaned => Guards.pure (.dropped p old journal valid from_ install cleaned)
  split
  · rename_i v
    split
    · rename_i same
      subst same
      exact guards_completePending journal valid read install
    · split
      · rename_i same
        exact drop (same ▸ read)
      · exact Guards.throw _
  · split
    · rename_i first
      exact drop (first ▸ read)
    · exact Guards.throw _

theorem guards_retainedPrevious {v : V} {old : Option (InstallState V)} {id : String}
    (install : s.install = .ofOption old) :
    Guards solo (I.Effect kind s₀)
      (fun previous t =>
        (t = s ∨ ∃ w, old.bind InstallState.previous = some w ∧ AddsEmpty w s t) ∧
        ∀ w, previous = some w → w ≠ v ∧
          ∃ st, I.Retained s w st ∧ st.installationId = id)
      (I.retainedPrevious v old id) s := by
  rw [retainedPrevious]
  split
  · exact Guards.pure ⟨.inl rfl, nofun⟩
  · rename_i w hw
    split
    · exact Guards.pure ⟨.inl rfl, nofun⟩
    · rename_i other
      have named : I.Mentions s w := by
        cases old with
        | none => cases hw
        | some i => exact .inr (.inr ⟨i, install, hw⟩)
      refine (Guards.attempt (Q := fun r t =>
        (t = s ∨ AddsEmpty w s t) ∧ ∀ st, r = .ok st → I.Retained s w st ∧
          st.installationId = id) ?_).bind ?_
      · refine I.wp_verifyFinalVersion (Effect.refl I s) (fun t added => ?_) ?_ ?_
        · exact ⟨.emptyVersion w (.inl named) added, fun _ => ⟨.inr added, nofun⟩⟩
        · rintro state retained (none | same)
          · cases none
          · refine ⟨.inl rfl, fun st hst => ?_⟩
            cases hst
            exact ⟨retained, (Option.some.inj same).symm⟩
        · exact fun _ => ⟨.inl rfl, nofun⟩
      · rintro r t ⟨moved, verified⟩
        refine Guards.pure ⟨moved.imp (fun same => same) fun added => ⟨w, hw, added⟩, ?_⟩
        intro u hu
        cases r with
        | error e => cases hu
        | ok st =>
          cases hu
          exact ⟨other, st, verified st rfl⟩

theorem LauncherRecorded.same {s t : Disk V} {launcher : Option LauncherOwnership}
    (h : I.LauncherRecorded s launcher) (command : t.command = s.command) :
    I.LauncherRecorded t launcher := by
  have file : I.commandFile t = I.commandFile s := by unfold commandFile; rw [command]
  simp only [LauncherRecorded, verifyInstalledLauncherRecord, sameRegularFileObject] at *
  rw [file]
  exact h

theorem LauncherRecorded.of_same {s t : Disk V} {launcher : Option LauncherOwnership}
    (h : I.LauncherRecorded t launcher) (command : t.command = s.command) :
    I.LauncherRecorded s launcher := h.same command.symm

omit [Crates V] in
theorem AddsEmpty.core {w : V} {s t : Disk V} (h : AddsEmpty w s t) :
    t.install = s.install ∧ t.pending = s.pending ∧ t.active = s.active ∧
      t.command = s.command := by
  rcases h with ⟨_, ⟨_, rfl⟩ | ⟨p, entries, _, rfl⟩⟩ <;> exact ⟨rfl, rfl, rfl, rfl⟩

omit [Crates V] in
/-- Only the versions directory has changed. -/
theorem AddsEmpty.shape {w : V} {s t : Disk V} (h : AddsEmpty w s t) :
    t = { s with versions := t.versions } := by
  rcases h with ⟨_, ⟨_, rfl⟩ | ⟨p, entries, _, rfl⟩⟩ <;> rfl

omit [Crates V] in
theorem AddsEmpty.selector {w : V} {s t : Disk V} (h : AddsEmpty w s t) :
    I.SameSelector s t := by
  rw [SameSelector]
  cases I.platform with
  | unix => exact (AddsEmpty.core h).2.2.2
  | windows => exact (AddsEmpty.core h).2.2.1

/-- Of the disk the repair looks at the launcher only. -/
theorem needsRepair_same {v : V} {old : Option (InstallState V)} {state : VersionState V}
    {s t : Disk V} (command : t.command = s.command) :
    I.needsRepair v old state t = I.needsRepair v old state s := by
  have file : I.commandFile t = I.commandFile s := by
    simp only [commandFile]
    rw [command]
  simp only [needsRepair, launcherStateDisagrees, verifyInstalledLauncherRecord, sameRegularFileObject]
  simp only [file]

/-- An empty directory takes no retained version away. -/
theorem Retained.adds {v w : V} {s t : Disk V} {state : VersionState V}
    (h : I.Retained s v state) (added : AddsEmpty w s t) : I.Retained t v state := by
  apply h.of_entry I
  rw [added.entry]
  split
  · rename_i same
    obtain ⟨dir, c, entry, _⟩ := h
    rw [same, added.1] at entry
    cases entry
  · rfl

/-- Nor does it retain another one. -/
theorem AddsEmpty.retained_iff {v w : V} {s t : Disk V} {state : VersionState V}
    (h : AddsEmpty w s t) : I.Retained t v state ↔ I.Retained s v state := by
  refine ⟨fun ⟨dir, c, entry, isPrivate, complete, version⟩ => ?_, fun r => r.adds h⟩
  rw [h.entry] at entry
  split at entry
  · cases entry
    exact (I.not_complete_empty complete).elim
  · exact ⟨dir, c, entry, isPrivate, complete, version⟩

theorem guards_reconcileSelected {v : V} {old : Option (InstallState V)}
    (journal : s.pending = .absent) (read : I.readPointerUnlocked s = .ok (some v))
    (install : s.install = .ofOption old) :
    Guards solo (I.Effect kind s₀) (fun b t => I.Recovered s b t) (I.reconcileSelected v old) s := by
  have selects : I.Selects s (some v) := I.selects_of_read read
  rw [reconcileSelected]
  refine (guards_verifyNamed (.inl selects)).bind fun state a ⟨same, target, _⟩ => ?_
  subst same
  apply Guards.bind_get
  refine (Guards.onlyIf (Q := fun _ b => (I.needsRepair v old state a = false ∧ b = a) ∨
      ∃ previous launcher u, I.needsRepair v old state a = true ∧
        (∀ w, previous = some w → w ≠ v ∧
          ∃ st, I.Retained a w st ∧ st.installationId = state.installationId) ∧
        (u = a ∨ ∃ w, old.bind InstallState.previous = some w ∧ AddsEmpty w a u) ∧
        I.LauncherRecorded a launcher ∧
        b = { u with install := .value (recorded v previous state.installationId launcher) })
    (fun disagrees => ?_) fun fits => ?_).bind fun _ b hb => ?_
  · rw [repairInstall]
    refine (guards_retainedPrevious (v := v) install).bind fun previous u ⟨moved, kept⟩ => ?_
    have command : u.command = a.command := by
      rcases moved with rfl | ⟨w, _, added⟩
      · rfl
      · exact (AddsEmpty.core added).2.2.2
    have still : I.Selects u (some v) := by
      rcases moved with rfl | ⟨w, _, added⟩
      · exact selects
      · exact selects.same I (AddsEmpty.selector added)
    have stays : ∀ w st, I.Retained a w st → I.Retained u w st := by
      rcases moved with rfl | ⟨w, _, added⟩
      · exact fun _ _ h => h
      · exact fun _ _ h => Retained.adds h added
    have docs : u.install = a.install ∧ u.pending = a.pending := by
      rcases moved with rfl | ⟨w, _, added⟩
      · exact ⟨rfl, rfl⟩
      · exact ⟨(AddsEmpty.core added).1, (AddsEmpty.core added).2.1⟩
    refine Guards.bind_unchanged (guards_launcherOwnershipFor (.inl still)
      (PriorKnown.install I (docs.1.trans install))) fun launcher ⟨owned, accounted⟩ => ?_
    have repair : I.needsRepair v old state u = I.needsRepair v old state a :=
      needsRepair_same command
    refine (guards_writeInstallState fun valid => ⟨valid, ⟨v, state, rfl, still, stays _ _ target,
      rfl, .inr ⟨docs.2.trans journal, old, docs.1.trans install, repair.trans disagrees, ?_⟩⟩,
      ⟨old, docs.1.trans install⟩, owned, accounted⟩).mono_post fun _ b hb => ?_
    · intro w hw
      obtain ⟨other, st, retained, id⟩ := kept w hw
      exact ⟨other, st, stays _ _ retained, id⟩
    · exact .inr ⟨previous, launcher, u, disagrees, kept, moved, owned.of_same command, hb⟩
  · exact .inl ⟨Bool.eq_false_iff.mpr fits, rfl⟩
  · refine guards_cleanupStaging.bind fun _ t cleaned => Guards.pure ?_
    rcases hb with ⟨fits, rfl⟩ | ⟨previous, launcher, u, disagrees, kept, moved, owned, rfl⟩
    · exact .agreed v old state journal read install target fits cleaned
    · exact .repaired v old state previous launcher journal read install target disagrees kept
        moved owned cleaned

theorem guards_reconcileUnselected {old : Option (InstallState V)}
    (journal : s.pending = .absent) (read : I.readPointerUnlocked s = .ok none)
    (install : s.install = .ofOption old) :
    Guards solo (I.Effect kind s₀) (fun b t => I.Recovered s b t) (I.reconcileUnselected old) s := by
  rw [reconcileUnselected]
  refine Guards.bind_require fun inactive => Guards.bind_get ?_
  refine (Guards.onlyIf (Q := fun _ t => t = s ∨ I.Cleaned s t) (fun _ => ?_) fun _ => .inl rfl).bind
    fun _ t moved => Guards.pure (.unselected old journal read install inactive moved)
  exact guards_cleanupStaging.mono_post fun _ t cleaned => .inr cleaned

omit [Crates V] in
theorem validateRecorded_value {old : Option (InstallState V)} {i : InstallState V}
    (h : I.validateRecorded old = .ok ()) (present : old = some i) :
    validateInstallState I.platform i = .ok () := by
  subst present
  exact h

/-- Recovery under the lock: every write is an effect, and a completed run has
prepared the layout and reached one of the listed outcomes. -/
theorem guards_recoverLocked :
    Guards solo (I.Effect kind s₀)
      (fun b t => ∃ u, Scaffold s u ∧ I.Laid u ∧
        (∀ i, u.install = .value i → validateInstallState I.platform i = .ok ()) ∧
        I.Recovered u b t)
      I.recoverLocked s := by
  rw [recoverLocked]
  refine guards_ensurePrivateLayout.bind fun _ u ⟨scaffold, laid⟩ => ?_
  refine Guards.bind_reads fun pending hp => ?_
  refine Guards.bind_reads fun install hi => ?_
  refine Guards.bind_ofExcept fun _ valid => ?_
  refine Guards.bind_reads fun pointer read => ?_
  have pendingIs : u.pending = .ofOption pending := Document.readJson_eq_ok.mp hp
  have installIs : u.install = .ofOption install := Document.readJson_eq_ok.mp hi
  have recordedValid : ∀ i, u.install = .value i →
      validateInstallState I.platform i = .ok () := by
    intro i hi
    rw [installIs] at hi
    exact validateRecorded_value valid (Document.ofOption_inj.mp (hi : _ = Document.ofOption (some i)))
  refine Guards.mono_post ?_ fun b t outcome => ⟨u, scaffold, laid, recordedValid, outcome⟩
  cases pending with
  | some p => exact guards_recoverPending pendingIs read installIs
  | none =>
    cases pointer with
    | some v => exact guards_reconcileSelected pendingIs read installIs
    | none => exact guards_reconcileUnselected pendingIs read installIs

end Guards

end Installation

end Relswap
