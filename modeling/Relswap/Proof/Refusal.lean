import Relswap.Proof.Preparation

/-!
# Activations that are refused

The self-test runs before anything is journalled. When it fails, the operation fails with
it, and selector, journal and `install.json` are as the leading recovery has left them. A
recovery never moves the selector, and with nothing to recover it leaves the documents too.
-/

namespace Relswap

open Durable Durable.Program Disk

namespace Installation

variable {V : Type} [SemVer V] [Crates V] {I : Installation}

/-! ## Activations that are refused -/

section Refused

variable {U : Type} {α : Type}

/-- Whatever strikes, the program changes neither selector nor documents, and reports no
change. -/
def Refuses (I : Installation) (p : Action V (ActivationResult V)) : Prop :=
  ∀ s, Guards true I.SameState (fun result _ => result.changed = false) p s

namespace Refuses

omit [SemVer V] [Crates V] in
theorem throw (e : InstallError V) : Refuses I (.throw e) := fun _ => trivial

omit [SemVer V] [Crates V] in
theorem bind {p : Action V α} {f : α → Action V (ActivationResult V)}
    (first : Keeps I.SameState p) (next : ∀ a, Refuses I (f a)) : Refuses I (p >>= f) := fun s =>
  Guards.bind (M := fun _ _ => True) ((first s).mono_post fun r _ _ => by cases r <;> trivial)
    fun a t _ => next a t

omit [SemVer V] [Crates V] in
theorem lockForMutation {body : Action V (ActivationResult V)} (h : Refuses I body) :
    Refuses I (I.lockForMutation body) := by
  rw [Installation.lockForMutation]
  refine bind keeps_ensureRoot fun _ => bind keeps_ensureRoot fun _ => ?_
  refine bind (Keeps.reads _) fun _ => bind (keeps_write fun s t made => ?_) fun _ s => ?_
  · cases made
    exact ⟨rfl, rfl, rfl, rfl⟩
  · exact Guards.locked (Guards.bind_mark (h s))

end Refuses

variable {inputs : Inputs V U} (config : I.app.selfTest.isSome = true)

include config

/-- The self-test comes first: when it fails nothing has been journalled. -/
theorem refuses_activatePointerAndState {e : InstallError V} (failed : inputs.probe = .error e)
    (fromVersion : Option V) (toVersion : V) (id : String) (prior : Option (InstallState V))
    (transaction : Option String) :
    Refuses I (I.activatePointerAndState inputs fromVersion toVersion id prior transaction) := by
  intro s
  rw [activatePointerAndState]
  refine Guards.bind (M := fun _ _ => False) ?_ fun _ _ never => never.elim
  refine Guards.onlyIf (fun _ => Guards.ofExcept fun _ passed => ?_) fun unset => unset config
  rw [failed] at passed
  cases passed

theorem refuses_activateVersion {e : InstallError V} (failed : inputs.probe = .error e)
    (metadata : ReleaseMetadata V U) (archive : DownloadedArchive) (target : Target)
    (version : V) (install : Option (InstallState V)) (fromVersion : Option V)
    (retained : Option LauncherOwnership) :
    Refuses I (I.activateVersion inputs metadata archive target version install fromVersion
      retained) := by
  rw [activateVersion]
  refine .bind keeps_ensurePrivateLayout fun _ => ?_
  refine .bind (keeps_chooseInstallationId inputs version install) fun id => ?_
  refine .bind (Keeps.reads _) fun commandExists => ?_
  refine .bind (Keeps.onlyIf fun _ => keeps_cleanupStaging) fun _ => ?_
  refine .bind (Keeps.onlyIf fun _ => keeps_cleanupStaging) fun _ => ?_
  refine .bind (keeps_ensureCommandOwned fromVersion install) fun _ => ?_
  refine .bind (keeps_obtainVersion inputs metadata archive id target version install retained)
    fun transaction => .bind keeps_ensureCommandParent fun _ => ?_
  exact refuses_activatePointerAndState config failed _ _ _ _ _

/-- A download is at most confirmed. -/
theorem refuses_activateDownloadLocked {e : InstallError V} (failed : inputs.probe = .error e)
    (metadata : ReleaseMetadata V U) (archive : DownloadedArchive) (version : V) :
    Refuses I (I.activateDownloadLocked inputs metadata archive version) := by
  rw [activateDownloadLocked]
  refine .bind (Keeps.ofExcept _) fun target => ?_
  refine .bind (Keeps.require _) fun _ => .bind (Keeps.require _) fun _ => ?_
  refine .bind (Keeps.ofExcept _) fun _ => .bind (Keeps.reads _) fun install => ?_
  refine .bind (Keeps.ofExcept _) fun _ => .bind (Keeps.reads _) fun fromVersion => ?_
  refine .bind (keeps_retainedWithoutInstall install) fun retained => ?_
  have activates : ∀ install fromVersion, Refuses I
      (I.activateVersion inputs metadata archive target version install fromVersion retained) :=
    fun install fromVersion => refuses_activateVersion config failed _ _ _ _ _ _ _
  split
  · split
    · split
      · rw [confirmActive]
        refine .bind (keeps_verifyFinalVersion _ _) fun _ => ?_
        refine .bind (keeps_requireSameMetadata _ metadata) fun _ => ?_
        exact .bind (keeps_ensureCommandOwned _ _) fun _ _ => Guards.pure rfl
      · exact .throw _
    · exact activates _ _
  · exact activates _ _

theorem refuses_activateExistingLocked {e : InstallError V} (failed : inputs.probe = .error e)
    (target : V) : Refuses I (I.activateExistingLocked inputs target) := by
  rw [activateExistingLocked]
  refine .bind (Keeps.reads _) fun _ => .bind (Keeps.ofExcept _) fun install => ?_
  refine .bind (Keeps.reads _) fun _ => .bind (Keeps.ofExcept _) fun active => ?_
  refine .bind (Keeps.require _) fun _ => .bind (keeps_ensureCommandOwned _ _) fun _ => ?_
  refine .bind (keeps_verifyFinalVersion target _) fun _ => .bind (Keeps.reads _) fun _ => ?_
  refine .bind (Keeps.mark _) fun _ => .bind keeps_ensureCommandParent fun _ => ?_
  exact refuses_activatePointerAndState config failed _ _ _ _ _

end Refused

/-! ## Operations that are refused -/

section Operations

/-- What the recoveries an operation begins with can leave. -/
def Recovering (I : Installation) : Disk V → Disk V → Prop :=
  Relation.ReflTransGen fun s t => (I.recoverIfManaged (V := V)).Leaves s t

/-- The operation reports no change, and since its recoveries nothing that is selected or
documented has changed. -/
def RefusedFrom (I : Installation) (s : Disk V)
    (outcome : Except (InstallError V) (ActivationResult V)) (t : Disk V) : Prop :=
  (∀ result, outcome = .ok result → result.changed = false) ∧
    ∃ r, I.Recovering s r ∧ I.SameState r t

variable {U : Type} {α : Type} {inputs : Inputs V U} {s u : Disk V}

/-- Whatever strikes, the program ends in such an outcome. -/
def Declines (I : Installation) (s : Disk V) (p : Action V (ActivationResult V)) (u : Disk V) :
    Prop :=
  WP true (fun _ _ => True) (I.RefusedFrom s) p u

theorem RefusedFrom.error (recovering : I.Recovering s u) (e : InstallError V) :
    I.RefusedFrom s (.error e) u := ⟨nofun, u, recovering, .refl u⟩

namespace Declines

/-- Recoveries come first. -/
theorem recover {f : Bool → Action V (ActivationResult V)} (recovering : I.Recovering s u)
    (next : ∀ b t, I.Recovering s t → I.Declines s (f b) t) :
    I.Declines s (I.recoverIfManaged >>= f) u :=
  wp_bind_of (WP.leaving I.recoverIfManaged u) (fun b t left => next b t (recovering.tail left))
    fun e _ left => .error (recovering.tail left) e

theorem ofExcept {r : Except (InstallError V) α} {f : α → Action V (ActivationResult V)}
    (recovering : I.Recovering s u)
    (next : ∀ a, r = .ok a → I.Declines s (f a) u) :
    I.Declines s (Program.ofExcept r >>= f) u := by
  rw [Declines, wp_bind, wp_ofExcept]
  cases r with
  | ok a => exact next a rfl
  | error e => exact .error recovering e

theorem reads {query : Disk V → Except (InstallError V) α}
    {f : α → Action V (ActivationResult V)} (recovering : I.Recovering s u)
    (next : ∀ a, query u = .ok a → I.Declines s (f a) u) :
    I.Declines s (Program.reads query >>= f) u := by
  rw [Declines, wp_bind, wp_reads]
  cases found : query u with
  | ok a => exact next a found
  | error e => exact .error recovering e

theorem require {condition : Prop} [Decidable condition] {e : InstallError V}
    {f : Unit → Action V (ActivationResult V)} (recovering : I.Recovering s u)
    (next : condition → I.Declines s (f ()) u) :
    I.Declines s (Program.require condition e >>= f) u := by
  rw [Declines, wp_bind, wp_require]
  exact ⟨next, fun _ => .error recovering e⟩

theorem requireManagedCurrent {f : V → Action V (ActivationResult V)}
    (recovering : I.Recovering s u)
    (next : ∀ current, I.Declines s (f current) u) :
    I.Declines s (I.requireManagedCurrent >>= f) u := by
  have unchanged : Guards true I.SameState (fun _ t => t = u) I.requireManagedCurrent u :=
    keeps_requireManagedCurrent.guards
      ((guards_requireManagedCurrent : Guards true (I.Effect .recovery u) _ _ u).mono_post
        fun _ _ managed => managed.1)
  refine wp_bind_of ((WP.chained unchanged).mono_guarantee fun _ _ _ => trivial)
    (fun current t managed => ?_) fun e t kept => ⟨nofun, u, recovering, .of_chain kept.2⟩
  obtain ⟨rfl, _⟩ := managed
  exact next current

theorem of_refuses {p : Action V (ActivationResult V)} (recovering : I.Recovering s u)
    (refuses : Refuses I p) : I.Declines s p u := by
  refine (WP.chained (refuses u)).mono (fun _ _ _ => trivial) fun r t ⟨reported, kept⟩ => ?_
  refine ⟨?_, u, recovering, .of_chain kept⟩
  rintro result rfl
  exact reported

end Declines

variable (config : I.app.selfTest.isSome = true)

include config

theorem refused_activateDownload {e : InstallError V} (failed : inputs.probe = .error e)
    (metadata : ReleaseMetadata V U) (archive : DownloadedArchive) (version : V)
    (recovering : I.Recovering s u) :
    I.Declines s (I.activateDownload inputs metadata archive version) u := by
  rw [activateDownload]
  refine .recover recovering fun _ t recovering => .of_refuses recovering ?_
  refine .bind keeps_requireUnforeignCommand fun _ => .lockForMutation ?_
  exact refuses_activateDownloadLocked config failed metadata archive version

theorem refused_activateExisting {e : InstallError V} (failed : inputs.probe = .error e)
    (target : V) (recovering : I.Recovering s u) :
    I.Declines s (I.activateExisting inputs target) u :=
  .of_refuses recovering (.lockForMutation (refuses_activateExistingLocked config failed target))

theorem refused_rollback {e : InstallError V} (failed : inputs.probe = .error e) :
    I.Declines s (I.rollback inputs) s := by
  rw [rollback, rollbackRecovered]
  refine .recover .refl fun _ t recovering => ?_
  refine .requireManagedCurrent recovering fun current => ?_
  refine .reads recovering fun _ _ => .ofExcept recovering fun install _ => ?_
  refine .ofExcept recovering fun target _ => .require recovering fun _ => ?_
  exact refused_activateExisting config failed target recovering

theorem refused_rollbackTo {e : InstallError V} (failed : inputs.probe = .error e) (v : V) :
    I.Declines s (I.rollbackTo inputs v) s := by
  rw [rollbackTo, rollbackToRecovered]
  refine .recover .refl fun _ t recovering => ?_
  refine .requireManagedCurrent recovering fun current => .require recovering fun _ => ?_
  exact refused_activateExisting config failed v recovering

variable [UrlCrate U]

theorem refused_installVersion {e : InstallError V} (failed : inputs.probe = .error e) (v : V) :
    I.Declines s (I.installVersion inputs v) s := by
  rw [installVersion]
  refine .recover .refl fun _ t recovering => ?_
  refine .ofExcept recovering fun metadata _ => .ofExcept recovering fun archive _ => ?_
  exact refused_activateDownload config failed metadata archive v recovering

theorem refused_update {e : InstallError V} (failed : inputs.probe = .error e) :
    I.Declines s (I.update inputs) s := by
  rw [update]
  refine .recover .refl fun _ t recovering => ?_
  refine .requireManagedCurrent recovering fun current => ?_
  refine .ofExcept recovering fun metadata _ => ?_
  split
  · exact .error recovering _
  · split
    · refine ⟨fun result reported => ?_, t, recovering, .refl t⟩
      cases reported
      rfl
    · refine .ofExcept recovering fun archive _ => ?_
      exact refused_activateDownload config failed metadata archive _ recovering

end Operations

/-! ## What the recoveries leave -/

section Recoveries

/-- Nothing is to be recovered: no journal, and a record that needs no repair. -/
structure Reconciled (I : Installation) (s : Disk V) : Prop where
  pending : s.pending = .absent
  record : ∀ v old state, I.Selects s (some v) → s.install = .ofOption old →
    I.Retained s v state → I.needsRepair v old state s = false

variable {s t s₀ : Disk V}

theorem Reconciled.same (h : I.Reconciled s) (same : I.SameState s t)
    (command : t.command = s.command)
    (retained : ∀ v state, I.Retained t v state → I.Retained s v state) : I.Reconciled t := by
  refine ⟨same.pending.trans h.pending, fun v old state selects install kept => ?_⟩
  rw [needsRepair_same command]
  exact h.record v old state (selects.of_same I same.selector) (same.install ▸ install)
    (retained v state kept)

/-- Without `install.json` and a journal, nothing retained is selected. -/
theorem Reconciled.unselected (h : I.Reconciled s) (absent : s.install = .absent) {v : V}
    {state : VersionState V} (selects : I.Selects s (some v)) : ¬ I.Retained s v state :=
  fun kept => by simpa [needsRepair] using h.record v none state selects absent kept

/-- Recovery writes neither selector nor documents where nothing is to be recovered. -/
theorem Effect.reconciled (step : I.Effect .recovery s₀ s t) (h : I.Reconciled s) :
    I.Reconciled t ∧ I.SameState s t := by
  have framed : I.Frame s t → I.Reconciled t ∧ I.SameState s t := fun frame =>
    have same : I.SameState s t := ⟨frame.selector, frame.pending, frame.install⟩
    ⟨h.same same frame.command fun _ _ kept => kept.of_entry I (frame.versions _).symm, same⟩
  -- a launcher comes and goes only while nothing is recorded
  have launcher : ∀ command, I.platform = .windows → s.install = .absent →
      I.Reconciled { s with command } ∧ I.SameState s { s with command } := by
    intro command windows absent
    have same : I.SameState s { s with command } := .of_windows windows rfl rfl rfl
    refine ⟨⟨h.pending, fun v old state selects _ kept => ?_⟩, same⟩
    exact absurd (kept.of_entry I rfl)
      (h.unselected absent (selects.of_same I same.selector))
  cases step with
  | scaffold scaffold => exact framed (Scaffold.frame I scaffold)
  | emptyVersion v _ added =>
    refine ⟨h.same (.of_adds added) (AddsEmpty.core added).2.2.2 fun _ _ => ?_, .of_adds added⟩
    exact (AddsEmpty.retained_iff added).mp
  | stage moved => exact framed (StageStep.frame I moved)
  | createLauncher bytes fresh => exact launcher _ fresh.windows fresh.install
  | removeLauncher bytes orphan => exact launcher _ orphan.windows orphan.install
  | publish v dir state id transaction present published =>
    obtain ⟨_, _, never⟩ := published.downloads
    cases never
  | journal p activates _ =>
    obtain ⟨_, _, _, _, _, _, _, never, _⟩ := activates.target
    exact never.elim
  | «switch» p activates _ _ =>
    obtain ⟨_, _, _, _, _, _, _, never, _⟩ := activates.target
    exact never.elim
  | record inst records =>
    obtain ⟨v, state, _, selects, kept, _, ⟨p, journalled, _⟩ | ⟨_, old, install, repair, _⟩⟩ :=
      records.selected
    · rw [h.pending] at journalled
      cases journalled
    · rw [h.record v old state selects install kept] at repair
      cases repair
  | dropJournal drops =>
    obtain ⟨p, journalled, _⟩ := drops
    rw [h.pending] at journalled
    cases journalled

theorem Recovering.leaves {P : Disk V → Prop} (recovering : I.Recovering s t)
    (preserved : ∀ {s₀ s t : Disk V}, P s → I.Effect .recovery s₀ s t → P t)
    (start : P s) : P t := by
  induction recovering with
  | refl => exact start
  | tail _ left ih =>
    exact guards_recoverIfManaged.invariant (fun _ _ here ⟨_, step⟩ => preserved here step) ih left

/-- The selector is the one the operation has found, and where nothing was to be recovered
so are the documents. Otherwise they are as a recovery, completed or cut, has left them. -/
structure Unmoved (I : Installation) (s t : Disk V) : Prop where
  selector : I.SameSelector s t
  recovered : ∃ r, I.Recovering s r ∧ I.SameState r t
  untouched : I.Reconciled s → I.SameState s t

theorem RefusedFrom.unmoved {outcome : Except (InstallError V) (ActivationResult V)}
    (h : I.RefusedFrom s outcome t) : I.Unmoved s t := by
  obtain ⟨_, r, recovering, same⟩ := h
  refine ⟨?_, ⟨r, recovering, same⟩, fun reconciled => ?_⟩
  · have selector := recovering.leaves
      (fun here step => here.trans I step.recovery_selector) (SameSelector.refl I s)
    exact selector.trans I same.selector
  · have kept : I.Reconciled r ∧ I.SameState s r := by
      refine recovering.leaves (P := fun t => I.Reconciled t ∧ I.SameState s t)
        (fun here step => ?_) ⟨reconciled, .refl s⟩
      exact (step.reconciled here.1).imp_right here.2.trans
    exact kept.2.trans same

end Recoveries

end Installation

end Relswap
