import Relswap.Proof.Staging

/-!
# What an activation does

Both locked sections, the one that activates a download and the one that
activates a retained version, end in the same durable sequence. Their contracts
say that every write is an effect of the section's kind, and describe the disk
an activation that completes leaves behind.
-/

namespace Relswap

open Durable Durable.Program Disk

namespace Installation

variable {V U : Type} [SemVer V] [Crates V] (I : Installation)

omit [SemVer V] [Crates V] in
theorem SameSelector.refl (s : Disk V) : I.SameSelector s s := by
  rw [SameSelector]
  cases I.platform <;> rfl

omit [SemVer V] [Crates V] in
theorem SameSelector.trans {s t u : Disk V} (h : I.SameSelector s t)
    (h' : I.SameSelector t u) : I.SameSelector s u := by
  rw [SameSelector] at *
  cases hI : I.platform <;> simp only [hI] at h h' ⊢ <;> exact h'.trans h

/-- The disk an activation leaves, from the disk in which it was journalled. -/
structure Activated (s : Disk V) (fromVersion : Option V) (toVersion : V) (id : String)
    (t : Disk V) : Prop where
  selected : I.Selects t (some toVersion)
  before : I.readPointerUnlocked s = .ok fromVersion
  install : ∃ launcher, t.install = .value (recorded toVersion fromVersion id launcher) ∧
    I.LauncherRecorded t launcher
  pending : t.pending = .absent
  target : ∃ state, I.Retained t toVersion state ∧ state.installationId = id
  versions : t.versions = s.versions
  command : I.platform = .windows → t.command = s.command

/-! ## The journalled sequence -/

/-- Journalling changes nothing an activation has checked. -/
theorem Activates.journalled {kind : Kind V} {s₀ s : Disk V} {p : PendingActivation V}
    (h : I.Activates kind s₀ s p) (pending : Document (PendingActivation V)) :
    I.Activates kind s₀ { s with pending := pending } p := by
  refine ⟨h.valid, ?_, h.selector, h.install, h.readable_install, h.target, h.owner, h.launcher⟩
  rw [← h.readable]
  exact I.readPointerUnlocked_same (SameSelector.refl I _)

section Guards

variable {I} {solo : Bool} {kind : Kind V} {s₀ s : Disk V}

omit [Crates V] in
theorem versionEntry_select (v : V) (s : Disk V) (name : String) :
    (I.select v s).versionEntry name = s.versionEntry name := by
  rw [select]
  cases I.platform <;> rfl

omit [Crates V] in
theorem select_fields (v : V) (s : Disk V) :
    (I.select v s).install = s.install ∧ (I.select v s).pending = s.pending ∧
      (I.select v s).versions = s.versions ∧ (I.select v s).staging = s.staging := by
  rw [select]
  cases I.platform <;> exact ⟨rfl, rfl, rfl, rfl⟩

omit [Crates V] in
theorem command_select (windows : I.platform = .windows) (v : V) (s : Disk V) :
    (I.select v s).command = s.command := by
  rw [select]
  rw [windows]

theorem guards_writePending {p : PendingActivation V}
    (activates : (validatePending p : Except (InstallError V) Unit) = .ok () →
      I.Activates kind s₀ s p) (same : s.pending = s₀.pending) :
    Guards solo (I.Effect kind s₀) (fun _ t => t = { s with pending := .value p } ∧
      I.Activates kind s₀ t p) (I.writePending p) s := by
  unfold writePending
  refine Guards.bind_ofExcept fun _ valid => Guards.write fun t ht => ?_
  simp only [bind_eq_ok, pure_eq_ok] at ht
  obtain ⟨doc, replaced, rfl⟩ := ht
  have written : doc = .value p := by
    unfold replaceDocument at replaced
    split at replaced
    · cases replaced
    · exact (Except.ok.inj replaced).symm
  subst written
  exact ⟨.journal p (activates valid) same, rfl, (activates valid).journalled I _⟩

theorem guards_switchPointer {p : PendingActivation V} (activates : I.Activates kind s₀ s p)
    (journal : s.pending = .value p) :
    Guards solo (I.Effect kind s₀) (fun _ t => t = I.select p.toVersion s)
      (I.switchPointer p.toVersion) s := by
  rw [switchPointer]
  refine Guards.bind_reads fun _ _ => Guards.write fun t ht => ?_
  simp only [bind_eq_ok, pure_eq_ok] at ht
  obtain ⟨_, replaceable, rfl⟩ := ht
  exact ⟨.switch p activates journal replaceable, rfl⟩

/-- A marker is not needed once `install.json` is there. -/
theorem markerRemovable_recorded {s : Disk V} {i : InstallState V} (h : s.install = .value i)
    (id : String) : I.MarkerRemovable s id := by
  intro _ _
  right
  intro _ _ absent
  rw [h] at absent
  cases absent

theorem guards_removeFinished {transaction : Option String} {i : InstallState V}
    (install : s.install = .value i) :
    Guards solo (I.Effect kind s₀)
      (fun _ t => t = { s with staging := t.staging } ∧
        match transaction with
        | none => t.staging = s.staging
        | some id => t.staging.entries = s.staging.entries.erase id)
      (removeFinished transaction : Action V Unit) s := by
  cases transaction with
  | none => exact Guards.pure ⟨rfl, rfl⟩
  | some id =>
    rw [removeFinished, removeTransactionAfterRename]
    refine Guards.bind_reads fun present hp => ?_
    cases hp
    refine Guards.onlyIf (fun _ => ?_) fun gone => ?_
    · apply (guards_removeTransaction (markerRemovable_recorded install id)).mono_post
      rintro _ t rfl
      refine ⟨rfl, ?_⟩
      cases s.staging with
      | directory p entries => rfl
      | absent => rfl
      | foreign => rfl
    · refine ⟨rfl, ?_⟩
      have none_ : s.staging.entries.lookup id = none := by
        cases hl : s.staging.entries.lookup id with
        | none => rfl
        | some entry => simp [hl] at gone
      apply AList.ext
      have notMem : id ∉ s.staging.entries.entries.keys := by
        rw [← AList.keys, ← AList.mem_keys]
        exact AList.lookup_eq_none.mp none_
      exact (List.kerase_of_notMem_keys notMem).symm

theorem PriorKnown.mono {t : Disk V} {prior : Option (InstallState V)} (h : I.PriorKnown s prior)
    (install : t.install = s.install)
    (retained : ∀ v state, I.Retained s v state → I.Retained t v state) : I.PriorKnown t prior := by
  intro i launcher hi hl
  rcases h i launcher hi hl with recorded | ⟨v, state, carried, r, rest⟩
  · exact .inl (install.trans recorded)
  · exact .inr ⟨v, state, carried, retained v state r, rest⟩

/-- The durable sequence, once everything has been checked. -/
theorem guards_activatePointerAndState {inputs : Inputs V U} {fromVersion : Option V}
    {toVersion : V} {id : String} {prior : Option (InstallState V)} {transaction : Option String}
    (activates : ∀ p : PendingActivation V, p.fromVersion = fromVersion →
      p.toVersion = toVersion → (validatePending p : Except (InstallError V) Unit) = .ok () →
      I.Activates kind s₀ s p)
    (target : ∃ state, I.Retained s toVersion state ∧ state.installationId = id)
    (same : s.pending = s₀.pending) (known : I.PriorKnown s prior) :
    Guards solo (I.Effect kind s₀)
      (fun result t => result = ⟨toVersion, true⟩ ∧ I.Activated s fromVersion toVersion id t ∧
        match transaction with
        | none => t.staging = s.staging
        | some id => t.staging.entries = s.staging.entries.erase id)
      (I.activatePointerAndState inputs fromVersion toVersion id prior transaction) s := by
  rw [activatePointerAndState]
  refine Guards.bind_unchanged (M := fun _ => True)
    (Guards.onlyIf (fun _ => Guards.ofExcept fun _ _ => ⟨rfl, trivial⟩) fun _ => ⟨rfl, trivial⟩) ?_
  rintro _ -
  apply Guards.bind_mark
  refine Guards.bind_ofExcept fun random _ => ?_
  refine (guards_writePending (activates _ rfl rfl) same).bind fun _ a found => ?_
  obtain ⟨ha, activatesA⟩ := found
  apply Guards.bind_mark
  have journal : a.pending = .value ⟨stateSchemaVersion, fromVersion, toVersion,
      transaction.getD random⟩ := by rw [ha]
  refine (guards_switchPointer activatesA journal).bind fun _ b hb => ?_
  apply Guards.bind_mark
  have selects : I.Selects b (some toVersion) := by
    rw [hb]
    exact I.selects_select toVersion a
  obtain ⟨installB, pendingB, versionsB, stagingB⟩ := I.select_fields toVersion a
  rw [← hb] at installB pendingB versionsB stagingB
  have knownB : I.PriorKnown b prior := by
    refine known.mono (installB.trans (by rw [ha])) fun v state r => r.of_entry I ?_
    rw [Disk.versionEntry, Disk.versionEntry, versionsB, ha]
  refine Guards.bind_unchanged (guards_launcherOwnershipFor (.inl selects) knownB)
    fun launcher found => ?_
  obtain ⟨owned, accounted⟩ := found
  obtain ⟨state, retained, owner⟩ := target
  have retainedB : I.Retained b toVersion state := by
    apply retained.of_entry I
    rw [Disk.versionEntry, Disk.versionEntry, versionsB, ha]
  have before : I.readPointerUnlocked s = .ok fromVersion := by
    have readable := activatesA.readable
    rw [ha] at readable
    rw [← readable]
    exact (I.readPointerUnlocked_same (SameSelector.refl I _)).symm
  refine (guards_writeInstallState fun valid => ⟨valid, ⟨toVersion, state, rfl, selects, retainedB,
    owner, .inl ⟨_, pendingB.trans journal, rfl, rfl⟩⟩, ?_, owned, accounted⟩).bind fun _ c hc => ?_
  · rw [installB]
    exact activatesA.readable_install
  apply Guards.bind_mark
  have selectsC : I.Selects c (some toVersion) := selects.same I (by
    rw [hc]
    exact SameSelector.refl I _)
  refine (guards_removePending ⟨⟨stateSchemaVersion, fromVersion, toVersion,
    transaction.getD random⟩, ?_, .inl ⟨selectsC, _, by rw [hc], rfl, rfl⟩⟩).bind fun _ d hd => ?_
  · rw [hc]
    exact pendingB.trans journal
  apply Guards.bind_mark
  have installD : d.install = .value (recorded toVersion fromVersion id launcher) := by
    rw [hd, hc]
    rfl
  refine (guards_removeFinished installD).bind fun _ e found => ?_
  obtain ⟨he, staging⟩ := found
  apply Guards.bind_mark
  have stagingD : d.staging = s.staging := by
    rw [hd, hc]
    exact stagingB.trans (by rw [ha])
  have versionsE : e.versions = s.versions := by
    rw [he, hd, hc]
    exact versionsB.trans (by rw [ha])
  refine Guards.pure ⟨rfl, ⟨?_, before, ⟨launcher, ?_, ?_⟩, ?_, ⟨state, ?_, owner⟩, versionsE,
    fun windows => ?_⟩, ?_⟩
  · apply selectsC.same I
    rw [he, hd]
    exact SameSelector.refl I _
  · rw [he]
    exact installD
  · apply owned.same
    rw [he, hd, hc]
  · rw [he, hd]
  · apply retained.of_entry I
    rw [Disk.versionEntry, Disk.versionEntry, versionsE]
  · rw [he, hd, hc]
    change b.command = s.command
    rw [hb, command_select windows, ha]
  · cases transaction with
    | none => exact staging.trans stagingD
    | some id => rw [← stagingD]; exact staging

/-! ## The installation id -/

/-- The version directories scanned so far agree on one id. -/
theorem guards_commonInstallationId {existing : Option String}
    {list : List (Sigma fun _ : String => VersionEntry)}
    (present : ∀ entry ∈ list, s.versionEntry entry.1 = some entry.2) :
    Guards solo (I.Effect kind s₀)
      (fun found t => t = s ∧ (∀ id, existing = some id → found = some id) ∧
        (∀ v state, SemVer.toText v ∈ list.keys → I.Retained s v state →
          found = some state.installationId) ∧
        (existing = none → found.isSome = true → ∃ v state, I.Retained s v state) ∧
        (list ≠ [] → found.isSome = true))
      (I.commonInstallationId existing list) s := by
  induction list generalizing existing with
  | nil =>
    refine Guards.pure ⟨rfl, fun _ h => h, fun _ _ inNil => ?_, fun h yes => ?_,
      fun h => absurd rfl h⟩
    · simp at inNil
    · rw [h] at yes
      cases yes
  | cons entry rest ih =>
    obtain ⟨name, entry⟩ := entry
    cases entry with
    | foreign => exact Guards.throw _
    | directory dir =>
      rw [commonInstallationId]
      refine Guards.bind_ofExcept fun v parsed => ?_
      have named := parseCanonicalVersion_eq_ok.mp parsed
      have here := present _ List.mem_cons_self
      rw [named] at here
      refine Guards.bind_unchanged (guards_verifyPresent here) fun state ⟨retained, _⟩ => ?_
      refine Guards.bind_require fun agrees => ?_
      refine (ih fun e he => present e (List.mem_cons_of_mem _ he)).mono_post ?_
      rintro found t ⟨same, kept, scanned, _, _⟩
      have foundIs := kept _ rfl
      refine ⟨same, fun id hid => ?_, fun w st inList hw => ?_, fun _ _ => ⟨v, state, retained⟩,
        fun _ => by rw [foundIs]; rfl⟩
      · rcases agrees with none_ | agrees
        · rw [none_] at hid; cases hid
        · rw [foundIs, ← agrees, hid]
      · rcases List.mem_cons.mp inList with first | later
        · rw [named, SemVer.toText_inj] at first
          subst first
          rw [foundIs, retained.unique I hw]
        · exact scanned w st later hw

theorem guards_chooseInstallationId {inputs : Inputs V U} {v : V}
    {install : Option (InstallState V)} (hinstall : s.install = .ofOption install)
    (fresh : kind.fresh = (randomId (V := V) "installation"
      (inputs.randomness .installation)).toOption) :
    Guards solo (I.Effect kind s₀)
      (fun id t => t = s ∧ (∀ i, install = some i → i.installationId = id) ∧
        (s.versionEntry (SemVer.toText v) = none → I.ChosenId kind s id))
      (I.chooseInstallationId inputs v install) s := by
  cases install with
  | some i =>
    rw [chooseInstallationId]
    refine Guards.bind_ofExcept fun _ _ => Guards.pure ⟨rfl, ?_, fun _ => ⟨?_, ?_, ?_⟩⟩
    · rintro _ ⟨⟩
      rfl
    · intro i' hi'
      rw [hinstall] at hi'
      cases hi'
      rfl
    · intro absent
      rw [hinstall] at absent
      cases absent
    · intro absent
      rw [hinstall] at absent
      cases absent
  | none =>
    apply Guards.bind_get
    split
    · rename_i appeared
      obtain ⟨entry, present⟩ := Option.isSome_iff_exists.mp appeared
      refine Guards.bind_unchanged (guards_verifyPresent present) fun state _ => ?_
      refine Guards.pure ⟨rfl, nofun, fun free => ?_⟩
      rw [present] at free
      cases free
    · have recorded : ∀ i, s.install = .value i → ∀ P : Prop, P := by
        intro i hi
        rw [hinstall] at hi
        cases hi
      refine Guards.bind_unchanged (guards_commonInstallationId fun _ he => lookup_of_mem he)
        fun found ⟨_, scanned, origin, nonempty⟩ => ?_
      have listed : ∀ w state, I.Retained s w state →
          SemVer.toText w ∈ s.versions.entries.entries.keys := by
        intro w state retained
        obtain ⟨dir, c, entry, _⟩ := retained
        exact AList.mem_keys.mp (AList.lookup_isSome.mp (by
          rw [Disk.versionEntry] at entry
          rw [entry]
          rfl))
      split
      · rename_i id
        refine Guards.pure ⟨rfl, nofun, fun _ => ⟨fun i hi => recorded i hi _, fun _ w state hw => ?_,
          fun _ nothing => ?_⟩⟩
        · exact (Option.some.inj (scanned w state (listed w state hw) hw)).symm
        · obtain ⟨w, state, hw⟩ := origin rfl rfl
          exact absurd hw (nothing w state)
      · refine Guards.ofExcept fun id drawn => ⟨rfl, nofun, fun _ => ⟨fun i hi => recorded i hi _,
          fun _ w state hw => ?_, fun _ _ => ?_⟩⟩
        · have found := scanned w state (listed w state hw) hw
          cases found
        · rw [fresh, drawn]
          rfl

/-! ## Obtaining the version -/

omit [Crates V] in
theorem readVersionMember_eq_ok {v : V} {name : String} {bytes : Bytes} :
    I.readVersionMember v name s = .ok bytes ↔
      ∃ dir, s.versionEntry (SemVer.toText v) = some (.directory dir) ∧
        dir.members.lookup name = some (.file bytes) := by
  rw [readVersionMember]
  split
  · rename_i dir found
    simp [found]
  · rename_i other
    constructor
    · intro h; cases h
    · rintro ⟨dir, found, _⟩
      exact absurd found (other dir)

theorem guards_requireSameMetadata {v : V} {metadata : ReleaseMetadata V U} :
    Guards solo (I.Effect kind s₀)
      (fun _ t => t = s ∧ ∃ dir, s.versionEntry (SemVer.toText v) = some (.directory dir) ∧
        dir.members.lookup manifestFile = some (.file metadata.manifestBytes) ∧
        dir.members.lookup signatureFile = some (.file metadata.signatureBytes))
      (I.requireSameMetadata v metadata) s := by
  rw [requireSameMetadata]
  refine Guards.bind_reads fun manifestBytes hm => ?_
  refine Guards.bind_require fun sameManifest => ?_
  refine Guards.bind_reads fun signatureBytes hs => ?_
  refine Guards.require fun sameSignature => ⟨rfl, ?_⟩
  obtain ⟨dir, entry, manifest⟩ := readVersionMember_eq_ok.mp hm
  obtain ⟨dir', entry', signature⟩ := readVersionMember_eq_ok.mp hs
  rw [entry] at entry'
  cases entry'
  exact ⟨dir, entry, sameManifest ▸ manifest, sameSignature ▸ signature⟩

/-- The version to activate is retained with the downloaded manifest. -/
structure Obtained (s t : Disk V) (v : V) (id : String) (manifestBytes : Bytes)
    (transaction : Option String) : Prop where
  install : t.install = s.install
  pending : t.pending = s.pending
  selector : I.SameSelector s t
  target : ∃ dir c state, t.versionEntry (SemVer.toText v) = some (.directory dir) ∧
    dir.isPrivate = true ∧ I.Complete dir state c ∧ state.version = v ∧
    state.installationId = id ∧ c.manifestBytes = manifestBytes
  kept : ∀ w state, I.Retained s w state → I.Retained t w state
  launcher : I.platform = .windows → ∃ bytes, t.command = .file bytes
  staging : match transaction with
    | none => t.staging = s.staging
    | some id => s.staging.entries = ∅ → t.staging.entries.erase id = ∅

theorem guards_reuseVersion {v : V} {metadata : ReleaseMetadata V U} {id : String}
    {install : Option (InstallState V)} {retained : Option LauncherOwnership}
    {entry : VersionEntry} (present : s.versionEntry (SemVer.toText v) = some entry) :
    Guards solo (I.Effect kind s₀) (fun _ t => t = s ∧ I.Obtained s s v id metadata.manifestBytes none)
      (I.reuseVersion v metadata id install retained) s := by
  rw [reuseVersion]
  refine Guards.bind_unchanged (guards_verifyPresent present) fun state ⟨found, ids⟩ => ?_
  refine Guards.bind_unchanged guards_requireSameMetadata fun _ ⟨dir, hdir, manifest, _⟩ => ?_
  obtain ⟨dir', c, hdir', isPrivate, complete, version⟩ := found
  rw [hdir] at hdir'
  cases hdir'
  have bytes : c.manifestBytes = metadata.manifestBytes := by
    have both := complete.manifest_at.symm.trans manifest
    exact Member.file.inj (Option.some.inj both)
  have owner : state.installationId = id := by
    rcases ids with none_ | same
    · cases none_
    · exact (Option.some.inj same).symm
  have obtained : (I.platform = .windows → ∃ bytes, s.command = .file bytes) →
      I.Obtained s s v id metadata.manifestBytes none := fun launcher =>
    ⟨rfl, rfl, SameSelector.refl I s, ⟨dir, c, state, hdir, isPrivate, complete, version, owner, bytes⟩,
      fun _ _ r => r, launcher, rfl⟩
  split
  · exact Guards.reads fun _ verified =>
      ⟨rfl, obtained fun windows => I.command_of_verified windows verified⟩
  · rename_i unix
    refine Guards.pure ⟨rfl, obtained fun windows => ?_⟩
    rw [unix] at windows
    cases windows
  · rw [requireReusedLauncher]
    refine Guards.bind_ofExcept fun pair _ => ?_
    refine Guards.bind_reads fun bytes read => ?_
    exact Guards.ofExcept fun _ _ => ⟨rfl, obtained fun _ => ⟨bytes, I.commandFile_eq_ok.mp read⟩⟩

theorem ChosenId.core {u : Disk V} {installationId : String}
    (chosen : I.ChosenId kind s installationId) (core : I.Core s u) :
    I.ChosenId kind u installationId := by
  have back : ∀ v state, I.Retained u v state → I.Retained s v state := fun v state r =>
    r.of_entry I (core.versions _).symm
  refine ⟨?_, ?_, ?_⟩
  · rw [core.install]; exact chosen.recorded
  · rw [core.install]
    exact fun absent v state r => chosen.retained absent v state (back v state r)
  · rw [core.install]
    exact fun absent nothing => chosen.fresh absent fun v state r =>
      nothing v state (core.retained r)

theorem guards_ensureTransactionDir {id : String} (laid : I.Laid s) :
    Guards solo (I.Effect kind s₀) (fun _ t => I.Preparing s id t) (I.ensureTransactionDir id) s := by
  obtain ⟨entries, staging⟩ := laid.staging
  have prepared : ∀ x, s.transaction id = some x → I.Preparing s id s := fun x found =>
    ⟨rfl, rfl, rfl, rfl, ⟨x, found⟩, fun _ _ => rfl, .inl rfl⟩
  refine Guards.write fun t ht => ?_
  rw [staging] at ht
  dsimp only at ht
  split at ht
  · rename_i none_
    cases ht
    have put : s.putTransaction id ⟨true, ∅, none⟩ = { s with
        staging := .directory true (entries.insert id (.transaction ⟨true, ∅, none⟩)) } := by
      rw [Disk.putTransaction, staging]
      rfl
    rw [← put]
    have free : s.transaction id = none := by simp [Disk.transaction, staging, none_]
    refine ⟨.stage (.put id _ (.inl ⟨rfl, fun x hx => ?_⟩)), rfl, rfl, rfl, rfl, ?_,
      fun other apart => ?_, .inl rfl⟩
    · rw [free] at hx; cases hx
    · exact ⟨⟨true, ∅, none⟩, by simp [Disk.transaction, Disk.putTransaction, staging,
        Folder.insert]⟩
    · exact put_other apart
  · rename_i x found
    simp only [bind_eq_ok, pure_eq_ok] at ht
    obtain ⟨_, _, rfl⟩ := ht
    exact ⟨Effect.refl I _, prepared x (by simp [Disk.transaction, staging, found])⟩
  · cases ht

omit [SemVer V] [Crates V] in
theorem Laid.frame {u : Disk V} (h : I.Laid s) (scaffold : Scaffold s u) : I.Laid u ∧
    u.versions = s.versions ∧ u.staging = s.staging := by
  obtain ⟨ves, versions⟩ := h.versions
  obtain ⟨ses, staging⟩ := h.staging
  have sameVersions : u.versions = s.versions := by
    rcases scaffold.versions with same | ⟨absent, _⟩
    · exact same
    · rw [versions] at absent; cases absent
  have sameStaging : u.staging = s.staging := by
    rcases scaffold.staging with same | ⟨absent, _⟩
    · exact same
    · rw [staging] at absent; cases absent
  refine ⟨⟨?_, ⟨ves, sameVersions.trans versions⟩, ⟨ses, sameStaging.trans staging⟩, ?_⟩,
    sameVersions, sameStaging⟩
  · rcases scaffold.root with same | ⟨_, made⟩
    · rw [same, h.root]
    · exact made
  · intro windows
    rcases scaffold.commandParent with same | ⟨_, made⟩
    · rw [same, h.bin windows]
    · exact made

theorem guards_createTransaction {inputs : Inputs V U} (laid : I.Laid s) :
    Guards solo (I.Effect kind s₀) (fun id t => I.Preparing s id t) (I.createTransaction inputs) s := by
  rw [createTransaction]
  refine guards_ensurePrivateLayout.bind fun _ a ⟨scaffold, laidA⟩ => ?_
  obtain ⟨_, sameVersions, sameStaging⟩ := laid.frame scaffold
  refine Guards.bind_ofExcept fun id _ => ?_
  refine (guards_ensureTransactionDir laidA).bind fun _ b hb => ?_
  refine (guards_ensureStagedDir hb).bind fun _ c ⟨⟨hc, _⟩, _⟩ => ?_
  refine Guards.bind_mark (Guards.pure ?_)
  refine ⟨hc.install.trans scaffold.install, hc.pending.trans scaffold.pending,
    hc.active.trans scaffold.active, hc.versions.trans sameVersions, hc.present,
    fun other apart => ?_, ?_⟩
  · rw [hc.others other apart, sameStaging]
  · rw [← scaffold.command]
    exact hc.command

theorem guards_renameVersion {id : String} {v : V} {x : Transaction} {dir : VersionDir}
    {state : VersionState V} (found : s.transaction id = some x) (hdir : x.version = some dir)
    (publishes : s.versionEntry (SemVer.toText v) = none → I.Publishes kind s v dir state) :
    Guards (ε := InstallError V) solo (I.Effect kind s₀)
      (fun _ t => t = published v dir id x s ∧ s.versionEntry (SemVer.toText v) = none ∧
        ∃ p entries, s.versions = .directory p entries)
      (renameVersion id v) s := by
  refine Guards.write fun t ht => ?_
  simp only [bind_eq_ok, orError_eq_ok, check_eq_ok, found, Option.some.injEq] at ht
  obtain ⟨_, rfl, dir', hdir', _, free, ht⟩ := ht
  rw [hdir] at hdir'
  cases hdir'
  split at ht
  · rename_i p entries present
    cases ht
    have shape : published v dir id x s = { s with
        versions := .directory p (entries.insert (SemVer.toText v) (.directory dir))
        staging := s.staging.insert id (.transaction x.dropStaged) } := by
      rw [published, present]
      rfl
    rw [← shape]
    exact ⟨.publish v dir state id x found (publishes free), rfl, free, p, entries, present⟩
  · cases ht

theorem entries_empty {α : Type} {es : AList fun _ : String => α}
    (h : ∀ name, es.lookup name = none) : es = ∅ := by
  apply AList.ext
  cases hes : es.entries with
  | nil => rfl
  | cons entry rest =>
    have found : es.lookup entry.1 = some entry.2 :=
      lookup_of_mem (by rw [hes]; exact List.mem_cons_self)
    rw [h] at found
    cases found

theorem guards_stageVersion {inputs : Inputs V U} {metadata : ReleaseMetadata V U}
    {archive : DownloadedArchive} {installationId : String} {target : Target} {v : V}
    {alreadyManaged : Bool} (laid : I.Laid s) (downloads : kind.Downloads v)
    (chosen : s.versionEntry (SemVer.toText v) = none → I.ChosenId kind s installationId)
    (first : I.platform = .windows → alreadyManaged = false →
      s.install = .absent ∧ s.staging.entries = ∅) :
    Guards solo (I.Effect kind s₀)
      (fun id t => I.Obtained s t v installationId metadata.manifestBytes (some id))
      (I.stageVersion inputs metadata archive installationId target v alreadyManaged) s := by
  rw [stageVersion]
  refine (guards_createTransaction laid).bind fun id a ha => ?_
  have alone : I.platform = .windows → alreadyManaged = false → s.install = .absent ∧
      ∀ other, other ≠ id → s.transaction other = none := fun windows fresh => by
    obtain ⟨absent, empty⟩ := first windows fresh
    refine ⟨absent, fun other _ => ?_⟩
    simp [Disk.transaction, empty]
  refine (guards_writeDownloadedVersion ha alone).bind
    fun _ b found => ?_
  obtain ⟨⟨hb, manifest⟩, launcher, ownedB⟩ := found
  apply Guards.bind_mark
  refine (guards_verifyStagedVersion hb manifest).bind
    fun state c found => ?_
  obtain ⟨⟨hc, command, stays⟩, staged⟩ := found
  obtain ⟨x, dir, contents, staged⟩ := staged
  apply Guards.bind_mark
  refine Guards.bind_reads fun _ _ => ?_
  apply Guards.bind_mark
  refine Guards.bind_reads fun appeared _ => ?_
  refine Guards.bind_require fun _ => ?_
  have publishes : c.versionEntry (SemVer.toText v) = none → I.Publishes kind c v dir state := by
    intro free
    refine ⟨downloads, free, staged.isPrivate, ⟨contents, staged.complete⟩, staged.named, ?_,
      stays ownedB⟩
    rw [staged.owner]
    exact (chosen ((hc.core.versions _).symm.trans free)).core hc.core
  apply (guards_renameVersion staged.present staged.version publishes).bind
  rintro _ d ⟨rfl, free, p, entries, present⟩
  refine Guards.bind_mark (Guards.pure ?_)
  have entry : (published v dir id x c).versionEntry (SemVer.toText v) = some (.directory dir) := by
    simp [Disk.versionEntry, published, present, Folder.insert]
  refine ⟨hc.install, hc.pending, hc.core.selector,
    ⟨dir, contents, state, entry, staged.isPrivate, staged.complete, staged.named, staged.owner,
      staged.manifest⟩, fun w st r => ?_, fun windows => ?_, fun empty => ?_⟩
  · apply (hc.core.retained r).of_entry I
    obtain ⟨dir', _, here, _⟩ := hc.core.retained r
    have apart : SemVer.toText w ≠ SemVer.toText v := by
      intro same
      rw [same, free] at here
      cases here
    simp [Disk.versionEntry, published, present, Folder.insert, AList.lookup_insert_ne apart]
  · change ∃ bytes, c.command = .file bytes
    rw [command]
    exact launcher windows
  · refine entries_empty fun other => ?_
    by_cases same : other = id
    · rw [same, AList.lookup_erase]
    · rw [AList.lookup_erase_ne same]
      have others := hc.others other same
      rw [empty] at others
      change (c.staging.insert id _).entries.lookup other = none
      cases hs : c.staging with
      | directory q es =>
        rw [hs] at others
        simpa [Folder.insert, AList.lookup_insert_ne same] using others
      | absent => rfl
      | foreign => rfl

theorem guards_obtainVersion {inputs : Inputs V U} {metadata : ReleaseMetadata V U}
    {archive : DownloadedArchive} {installationId : String} {target : Target} {v : V}
    {install : Option (InstallState V)} {retained : Option LauncherOwnership} (laid : I.Laid s)
    (downloads : kind.Downloads v)
    (chosen : s.versionEntry (SemVer.toText v) = none → I.ChosenId kind s installationId)
    (hinstall : s.install = .ofOption install)
    (clean : I.platform = .windows → install = none → s.staging.entries = ∅) :
    Guards solo (I.Effect kind s₀)
      (fun transaction t => I.Obtained s t v installationId metadata.manifestBytes transaction)
      (I.obtainVersion inputs metadata archive installationId target v install retained) s := by
  rw [obtainVersion]
  refine Guards.bind_reads fun existing hexisting => ?_
  cases hexisting
  split
  · rename_i appeared
    obtain ⟨entry, present⟩ := Option.isSome_iff_exists.mp appeared
    exact Guards.bind_unchanged (guards_reuseVersion present) fun _ obtained =>
      Guards.pure obtained
  · refine (guards_stageVersion laid downloads chosen fun windows fresh => ?_).bind
      fun id t obtained => Guards.pure obtained
    have none_ : install = none := by
      cases install with
      | none => rfl
      | some i => cases fresh
    subst none_
    exact ⟨hinstall, clean windows rfl⟩

/-! ## Activating a download -/

/-- What a completed activation of a download has done. -/
structure Downloaded (s t : Disk V) (v : V) (fromVersion : Option V)
    (id : String) : Prop where
  selected : I.Selects t (some v)
  before : I.readPointerUnlocked s = .ok fromVersion
  install : ∃ launcher, t.install = .value (recorded v fromVersion id launcher) ∧
    I.LauncherRecorded t launcher
  pending : t.pending = .absent
  target : ∃ state, I.Retained t v state ∧ state.installationId = id
  staging : t.staging.entries = ∅

omit [SemVer V] [Crates V] in
theorem Laid.cleaned {u : Disk V} (h : I.Laid s) (cleaned : I.Cleaned s u) :
    I.Laid u ∧ u.staging = .directory true ∅ := by
  have made : u.staging = .directory true ∅ := by
    rcases cleaned.staging with ⟨absent, _⟩ | made
    · obtain ⟨entries, present⟩ := h.staging
      rw [present] at absent
      cases absent
    · exact made
  have shape := cleaned.shape
  refine ⟨⟨?_, ?_, ⟨∅, made⟩, fun windows => ?_⟩, made⟩
  · rw [shape]; exact h.root
  · rw [shape]; exact h.versions
  · rw [shape]; exact h.bin windows

/-- The two conditional cleanups of an activation. -/
def MaybeCleaned (I : Installation) (condition : Prop) (s t : Disk V) : Prop :=
  (condition ∧ I.Cleaned s t) ∨ (¬ condition ∧ t = s)

theorem guards_maybeCleanup {condition : Prop} [Decidable condition] :
    Guards solo (I.Effect kind s₀) (fun _ t => MaybeCleaned I condition s t)
      (onlyIf condition I.cleanupStaging) s :=
  Guards.onlyIf (fun yes => guards_cleanupStaging.mono_post fun _ _ h => .inl ⟨yes, h⟩)
    fun no => .inr ⟨no, rfl⟩

omit [SemVer V] [Crates V] in
theorem MaybeCleaned.swept {condition : Prop} {t : Disk V} (h : MaybeCleaned I condition s t) :
    I.Swept s t := by
  rcases h with ⟨_, cleaned⟩ | ⟨_, rfl⟩
  · exact cleaned.toSwept
  · exact ⟨rfl, .inl rfl⟩

omit [SemVer V] [Crates V] in
theorem MaybeCleaned.laid {condition : Prop} {t : Disk V} (h : MaybeCleaned I condition s t)
    (laid : I.Laid s) : I.Laid t := by
  rcases h with ⟨_, cleaned⟩ | ⟨_, rfl⟩
  · exact (laid.cleaned cleaned).1
  · exact laid

/-- Whenever the ownership check passes, staging has been emptied. -/
theorem staging_cleared {a b c : Disk V} {fromVersion : Option V}
    {install : Option (InstallState V)} {commandExists : Bool} (laid : I.Laid a)
    (present : I.lexistsCommand a = .ok commandExists)
    (first : MaybeCleaned I (fromVersion ≠ none ∨ commandExists = false) a b)
    (second : MaybeCleaned I (I.platform = .windows ∧ fromVersion = none ∧ install = none) b c)
    (owned : I.CommandOwned c fromVersion install) : c.staging = .directory true ∅ := by
  rcases second with ⟨_, cleaned⟩ | ⟨skipped, rfl⟩
  · exact ((first.laid laid).cleaned cleaned).2
  rcases first with ⟨_, cleaned⟩ | ⟨kept, rfl⟩
  · exact (laid.cleaned cleaned).2
  exfalso
  obtain ⟨unselected, exists_⟩ := not_or.mp kept
  rw [Ne, Decidable.not_not] at unselected
  subst unselected
  rcases owned with missing | ⟨windows, recorded, _⟩
  · rw [present] at missing
    exact exists_ (Except.ok.inj missing)
  · exact skipped ⟨windows, rfl, recorded⟩

theorem guards_activateVersion {inputs : Inputs V U} {metadata : ReleaseMetadata V U}
    {archive : DownloadedArchive} {target : Target} {v : V} {now : Int}
    {install : Option (InstallState V)} {fromVersion : Option V}
    {retained : Option LauncherOwnership}
    (kinded : kind = .download v now (randomId (V := V) "installation"
      (inputs.randomness .installation)).toOption)
    (hinstall : s₀.install = .ofOption install)
    (read : I.readPointerUnlocked s₀ = .ok fromVersion)
    (manifest : ReleaseManifest.fromBytes I.app metadata.manifestBytes = .ok metadata.manifest)
    (unexpired : metadata.manifest.ensureNotExpired (Crates.readTime V) now = .ok ())
    (newer : ∀ f i, fromVersion = some f → install = some i → f < v)
    (recognized : ∀ owner, retained = some owner → ∃ w state carried, I.Retained s₀ w state ∧
      state.launcher = some carried ∧ carried.sha256 = owner.sha256) :
    Guards solo (I.Effect kind s₀)
      (fun result t => result = ⟨v, true⟩ ∧ ∃ id, I.Downloaded s₀ t v fromVersion id)
      (I.activateVersion inputs metadata archive target v install fromVersion retained) s₀ := by
  rw [activateVersion]
  refine guards_ensurePrivateLayout.bind fun _ a ⟨scaffold, laid⟩ => ?_
  have coreA : I.Core s₀ a := (Scaffold.frame I scaffold).toCore
  have installA : a.install = .ofOption install := coreA.install.trans hinstall
  have fresh : kind.fresh = (randomId (V := V) "installation"
      (inputs.randomness .installation)).toOption := by rw [kinded]; rfl
  refine Guards.bind_unchanged (guards_chooseInstallationId installA fresh) fun id ⟨ids, chosen⟩ => ?_
  refine Guards.bind_reads fun commandExists present => ?_
  refine guards_maybeCleanup.bind fun _ b first => ?_
  refine guards_maybeCleanup.bind fun _ c second => ?_
  have swept : I.Swept a c := first.swept.trans second.swept
  have coreC : I.Core s₀ c := coreA.trans swept.core
  have selects : ∀ f, fromVersion = some f → I.Selects c (some f) := by
    rintro f rfl
    exact (I.selects_of_read read).same I coreC.selector
  refine Guards.bind_unchanged (guards_ensureCommandOwned selects) fun _ owned => ?_
  have cleared := staging_cleared laid present first second owned
  have laidC : I.Laid c := second.laid (first.laid laid)
  refine (guards_obtainVersion laidC ⟨now, _, kinded⟩ (fun free => ?_)
    (coreC.install.trans hinstall) fun _ _ => by rw [cleared]; rfl).bind
    fun transaction d obtained => ?_
  · exact (chosen ((swept.core.versions _).symm.trans free)).core swept.core
  refine guards_ensureCommandParent.bind fun _ e ⟨_, he⟩ => ?_
  have selectorE : I.SameSelector s₀ e := by
    apply (coreC.selector.trans I obtained.selector).trans I
    rw [he]
    exact SameSelector.refl I _
  have installE : e.install = .ofOption install := by
    rw [he]
    exact obtained.install.trans (coreC.install.trans hinstall)
  obtain ⟨dir, contents, state, entry, isPrivate, complete, named, owner, sameManifest⟩ :=
    obtained.target
  have entryE : e.versionEntry (SemVer.toText v) = some (.directory dir) := by
    rw [he]
    exact entry
  have parsed : contents.manifest = metadata.manifest := by
    have both := complete.manifest
    rw [sameManifest, manifest] at both
    exact (Except.ok.inj both).symm
  have activates : ∀ p : PendingActivation V, p.fromVersion = fromVersion → p.toVersion = v →
      (validatePending p : Except (InstallError V) Unit) = .ok () → I.Activates kind s₀ e p := by
    rintro p rfl rfl valid
    refine ⟨valid, (I.readPointerUnlocked_same selectorE).trans read, selectorE,
      installE.trans hinstall.symm, ⟨install, installE⟩, ⟨dir, contents, state, entryE, isPrivate,
      complete, named, ?_, ?_⟩, ?_, ?_⟩
    · subst kinded
      refine ⟨rfl, by rw [parsed]; exact unexpired, fun f i hf hi => newer f i hf ?_⟩
      rw [installE] at hi
      exact Document.ofOption_inj.mp (hi.trans (Document.ofOption_some i).symm)
    · intro i hi
      rw [installE] at hi
      rw [ids i (Document.ofOption_inj.mp (hi.trans (Document.ofOption_some i).symm)), owner]
    · intro f hf
      rw [hf] at owned
      rcases owned with ⟨i, _, hi, active, _⟩ | ⟨⟨windows, missing, g, hg⟩, _⟩
      · exact .inl ⟨i, by rw [installE, hi]; rfl, active⟩
      · right
        have notOrphan : ¬ I.OrphanMode a := swept.orphanMode.not.mp (I.not_orphanMode hg)
        have command : c.command = s₀.command :=
          (swept.frame notOrphan).command.trans scaffold.command
        refine ⟨windows, ?_, g, hg.of_same I coreC.selector⟩
        rw [lexistsCommand] at missing ⊢
        rw [← command]
        exact missing
    · intro windows
      rw [he]
      exact obtained.launcher windows
  have forth : ∀ w st, I.Retained s₀ w st → I.Retained e w st := by
    intro w st r
    apply (obtained.kept w st (coreC.retained r)).of_entry I
    rw [he]
    rfl
  have known : I.PriorKnown e (priorInstall id install retained) := by
    intro i launcher hi hl
    cases install with
    | some i' =>
      cases hi
      exact .inl installE
    | none =>
      cases retained with
      | none => cases hi
      | some owner =>
        cases hi
        cases hl
        obtain ⟨w, st, carried, r, rest⟩ := recognized launcher rfl
        exact .inr ⟨w, st, carried, forth w st r, rest⟩
  refine (guards_activatePointerAndState activates ⟨state, ⟨dir, contents, entryE, isPrivate,
    complete, named⟩, owner⟩ ?_ known).mono_post ?_
  · rw [he]
    exact obtained.pending.trans coreC.pending
  rintro result t ⟨hresult, activated, staging⟩
  refine ⟨hresult, id, activated.selected, read, activated.install, activated.pending,
    activated.target, ?_⟩
  have stagingE : e.staging = d.staging := by rw [he]
  have stagingO := obtained.staging
  have emptyC : c.staging.entries = ∅ := by rw [cleared]; rfl
  cases transaction with
  | none =>
    have same : t.staging = c.staging := (staging.trans stagingE).trans stagingO
    rw [same, emptyC]
  | some id =>
    have same : t.staging.entries = e.staging.entries.erase id := staging
    rw [same, stagingE]
    exact stagingO emptyC

/-- The requested version is active already. -/
structure Confirmed (s : Disk V) (v : V) : Prop where
  read : I.readPointerUnlocked s = .ok (some v)
  recorded : ∃ i, s.install = .value i ∧ i.active = some v
  target : ∃ state, I.Retained s v state
  owned : ∃ install, I.CommandOwned s (some v) (some install) ∧ s.install = .value install

theorem guards_retainedWithoutInstall {install : Option (InstallState V)} :
    Guards solo (I.Effect kind s₀)
      (fun retained t => t = s ∧ ∀ owner, retained = some owner →
        ∃ w state carried, I.Retained s w state ∧ state.launcher = some carried ∧
          carried.sha256 = owner.sha256)
      (I.retainedWithoutInstall install) s := by
  rw [retainedWithoutInstall]
  split
  · refine guards_retainedLauncherOwnership.mono_post fun retained t ⟨same, found⟩ => ⟨same, ?_⟩
    intro owner hr
    obtain ⟨bytes, launcher, rfl, retains⟩ := found owner hr
    obtain ⟨w, state, r, carried⟩ := retains.version
    exact ⟨w, state, launcher, r, carried, rfl⟩
  · exact Guards.pure ⟨rfl, nofun⟩

/-- The locked section of a download. -/
theorem guards_activateDownloadLocked {inputs : Inputs V U} {metadata : ReleaseMetadata V U}
    {archive : DownloadedArchive} {v : V}
    (kinded : kind = .download v inputs.nowChecked (randomId (V := V) "installation"
      (inputs.randomness .installation)).toOption) :
    Guards solo (I.Effect kind s₀)
      (fun result t => (result = ⟨v, false⟩ ∧ t = s₀ ∧ I.Confirmed s₀ v) ∨
        (result = ⟨v, true⟩ ∧ ∃ fromVersion id, I.Downloaded s₀ t v fromVersion id))
      (I.activateDownloadLocked inputs metadata archive v) s₀ := by
  rw [activateDownloadLocked]
  refine Guards.bind_ofExcept fun target _ => ?_
  refine Guards.bind_require fun _ => ?_
  refine Guards.bind_require fun _ => ?_
  refine Guards.bind_ofExcept fun selected verified => ?_
  have checked := I.verifyMetadata_eq_ok.mp verified
  refine Guards.bind_reads fun install hi => ?_
  have hinstall : s₀.install = .ofOption install := Document.readJson_eq_ok.mp hi
  refine Guards.bind_ofExcept fun _ _ => ?_
  refine Guards.bind_reads fun fromVersion read => ?_
  refine Guards.bind_unchanged guards_retainedWithoutInstall fun retained recognized => ?_
  have activate : (∀ f i, fromVersion = some f → install = some i → f < v) →
      Guards solo (I.Effect kind s₀)
        (fun result t => (result = ⟨v, false⟩ ∧ t = s₀ ∧ I.Confirmed s₀ v) ∨
          (result = ⟨v, true⟩ ∧ ∃ fromVersion id, I.Downloaded s₀ t v fromVersion id))
        (I.activateVersion inputs metadata archive target v install fromVersion retained) s₀ :=
    fun newer => (guards_activateVersion kinded hinstall read checked.manifest checked.unexpired
      newer recognized).mono_post fun result t ⟨changed, id, done⟩ => .inr ⟨changed, fromVersion, id, done⟩
  split
  · rename_i i active
    split
    · split
      · rename_i same
        subst same
        have selects : I.Selects s₀ (some v) := I.selects_of_read read
        rw [confirmActive]
        refine Guards.bind_unchanged (guards_verifyNamed (.inl selects)) fun state ⟨target, _⟩ => ?_
        refine Guards.bind_unchanged guards_requireSameMetadata fun _ _ => ?_
        refine Guards.bind_unchanged (guards_ensureCommandOwned fun f hf => ?_) fun _ owned => ?_
        · cases hf
          exact selects
        · refine Guards.pure (.inl ⟨rfl, rfl, read, ?_, ⟨state, target⟩, _, owned, hinstall⟩)
          rcases owned with ⟨i', _, same, activeIs, _⟩ | ⟨_, none_⟩
          · exact ⟨i', by rw [hinstall, same]; rfl, activeIs⟩
          · cases none_
      · exact Guards.throw _
    · rename_i above
      refine activate fun f i' hf _ => ?_
      cases hf
      exact not_le.mp above
  · rename_i other
    exact activate fun f i hf hi => (other i f hi hf).elim

/-! ## Activating a retained version -/

/-- What a completed rollback has done. -/
structure RolledBack (s t : Disk V) (target active : V) (id : String) : Prop where
  selected : I.Selects t (some target)
  before : I.readPointerUnlocked s = .ok (some active)
  older : target < active
  recorded : ∃ i, s.install = .value i ∧ i.active = some active ∧ i.installationId = id
  install : ∃ launcher, t.install = .value (Installation.recorded target (some active) id launcher) ∧
    I.LauncherRecorded t launcher
  pending : t.pending = .absent
  target : ∃ state, I.Retained t target state ∧ state.installationId = id
  staging : t.staging = s.staging

theorem guards_activateExistingLocked {inputs : Inputs V U} {target : V}
    (kinded : kind = .existing target) :
    Guards solo (I.Effect kind s₀)
      (fun result t => result = ⟨target, true⟩ ∧
        ∃ active id, I.RolledBack s₀ t target active id)
      (I.activateExistingLocked inputs target) s₀ := by
  rw [activateExistingLocked]
  refine Guards.bind_reads fun install hi => ?_
  refine Guards.bind_ofExcept fun i some_ => ?_
  rw [orError_eq_ok] at some_
  subst some_
  have hinstall : s₀.install = .value i := Document.readJson_eq_ok.mp hi
  refine Guards.bind_reads fun pointer read => ?_
  refine Guards.bind_ofExcept fun active some_ => ?_
  rw [orError_eq_ok] at some_
  subst some_
  have selects : I.Selects s₀ (some active) := I.selects_of_read read
  refine Guards.bind_require fun older => ?_
  refine Guards.bind_unchanged (guards_ensureCommandOwned fun f hf => ?_) fun _ owned => ?_
  · cases hf
    exact selects
  refine Guards.bind_unchanged (I.guards_verifyFinalVersion (Effect.refl I _) fun _ added =>
    .emptyVersion target (.inr ⟨kinded, ⟨i, hinstall⟩, active, selects, older⟩) added) fun state ⟨retained, ids⟩ => ?_
  refine Guards.bind_reads fun _ verified => ?_
  apply Guards.bind_mark
  refine guards_ensureCommandParent.bind fun _ e ⟨_, he⟩ => ?_
  obtain ⟨owner, activeIs⟩ : i.installationId = state.installationId ∧ i.active = some active := by
    refine ⟨?_, ?_⟩
    · rcases ids with none_ | same
      · cases none_
      · exact Option.some.inj same
    · rcases owned with ⟨i', _, same, activeIs, _⟩ | ⟨_, none_⟩
      · cases same
        exact activeIs
      · cases none_
  have selectorE : I.SameSelector s₀ e := by
    rw [he]
    exact SameSelector.refl I _
  have installE : e.install = .value i := by
    rw [he]
    exact hinstall
  have retainedE : I.Retained e target state := by
    apply retained.of_entry I
    rw [he]
    rfl
  have activates : ∀ p : PendingActivation V, p.fromVersion = some active →
      p.toVersion = target → (validatePending p : Except (InstallError V) Unit) = .ok () →
      I.Activates kind s₀ e p := by
    rintro p from_ rfl valid
    obtain ⟨dir, c, entry, isPrivate, complete, named⟩ := retainedE
    refine ⟨valid, ?_, selectorE, installE.trans hinstall.symm, ⟨some i, installE⟩, ⟨dir, c, state,
      entry, isPrivate, complete, named, ?_, ?_⟩, ?_, ?_⟩
    · rw [from_]
      exact (I.readPointerUnlocked_same selectorE).trans read
    · subst kinded
      exact ⟨rfl, active, from_, older⟩
    · intro i' hi'
      rw [installE] at hi'
      cases hi'
      exact owner
    · intro f hf
      rw [from_] at hf
      cases hf
      exact .inl ⟨i, installE, activeIs⟩
    · intro windows
      rw [he]
      exact I.command_of_verified windows verified
  have known : I.PriorKnown e (some i) := PriorKnown.install I installE
  refine (guards_activatePointerAndState activates ⟨state, retainedE, owner.symm⟩ ?_
    known).mono_post ?_
  · rw [he]
  rintro result t ⟨hresult, activated, staging⟩
  refine ⟨hresult, active, i.installationId, activated.selected, read, older,
    ⟨i, hinstall, activeIs, rfl⟩, activated.install, activated.pending, activated.target, ?_⟩
  have same : t.staging = e.staging := staging
  rw [same, he]

end Guards

end Installation

end Relswap
