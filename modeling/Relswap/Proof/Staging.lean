import Relswap.Proof.Ownership

/-!
# What staging does

A staged version is prepared inside one transaction. Until it is published,
documents, selector, retained versions and the other transactions stay as they
are; on Windows the first launcher may appear at the command path. What is
published has been verified, with the signed manifest that was downloaded.
-/

namespace Relswap

open Durable Durable.Program Disk

namespace Installation

variable {V U : Type} [SemVer V] [Crates V] (I : Installation)

/-- Only one transaction differs, and the first Windows launcher may be there. -/
structure Preparing (s : Disk V) (id : String) (t : Disk V) : Prop where
  install : t.install = s.install
  pending : t.pending = s.pending
  active : t.active = s.active
  versions : t.versions = s.versions
  present : ∃ x, t.transaction id = some x
  others : ∀ other, other ≠ id →
    t.staging.entries.lookup other = s.staging.entries.lookup other
  command : t.command = s.command ∨
    (I.platform = .windows ∧ s.command = .absent ∧ ∃ bytes, t.command = .file bytes)

/-- A staged manifest is the downloaded one. -/
def StagedManifest (id : String) (manifestBytes : Bytes) (t : Disk V) : Prop :=
  ∀ x dir bytes, t.transaction id = some x → x.version = some dir →
    dir.members.lookup manifestFile = some (.file bytes) → bytes = manifestBytes

omit [SemVer V] [Crates V] in
theorem put_other {s : Disk V} {id other : String} {x : Transaction} (h : other ≠ id) :
    (s.putTransaction id x).staging.entries.lookup other = s.staging.entries.lookup other := by
  rw [Disk.putTransaction]
  cases s.staging with
  | directory p entries => simp [Folder.insert, h]
  | absent => rfl
  | foreign => rfl

namespace Preparing

variable {I} {s t : Disk V} {id : String}

omit [SemVer V] [Crates V] in
theorem core (h : I.Preparing s id t) : I.Core s t := by
  refine ⟨h.install, h.pending, ?_, fun name => ?_⟩
  · rw [SameSelector]
    rcases h.command with same | ⟨windows, _⟩
    · cases I.platform with
      | unix => exact same
      | windows => exact h.active
    · rw [windows]
      exact h.active
  · rw [Disk.versionEntry, Disk.versionEntry, h.versions]

omit [SemVer V] [Crates V] in
theorem transaction (h : I.Preparing s id t) {other : String} (apart : other ≠ id) :
    t.transaction other = s.transaction other := by
  simp only [Disk.transaction]
  rw [h.others other apart]

omit [SemVer V] [Crates V] in
theorem put (h : I.Preparing s id t) {old : Transaction} (found : t.transaction id = some old)
    (x : Transaction) : I.Preparing s id (t.putTransaction id x) := by
  refine ⟨h.install, h.pending, h.active, h.versions, ⟨x, transaction_put found⟩,
    fun other apart => ?_, h.command⟩
  rw [put_other apart]
  exact h.others other apart

end Preparing

section Guards

variable {I} {solo : Bool} {kind : Kind V} {s₀ s t : Disk V} {id : String}

omit [SemVer V] [Crates V] in
theorem updateTransaction_eq_ok {f : Transaction → Except (InstallError V) Transaction}
    {u : Disk V} : t.updateTransaction id f = .ok u ↔
      ∃ old new, t.transaction id = some old ∧ f old = .ok new ∧ u = t.putTransaction id new := by
  simp only [Disk.updateTransaction, bind_eq_ok, orError_eq_ok, pure_eq_ok]
  constructor
  · rintro ⟨old, found, new, changed, rfl⟩
    exact ⟨old, new, found, changed, rfl⟩
  · rintro ⟨old, new, found, changed, rfl⟩
    exact ⟨old, found, new, changed, rfl⟩

omit [SemVer V] [Crates V] in
theorem updateStaged_eq_ok {f : VersionDir → Except (InstallError V) VersionDir} {u : Disk V} :
    t.updateStaged id f = .ok u ↔
      ∃ old dir dir', t.transaction id = some old ∧ old.version = some dir ∧ f dir = .ok dir' ∧
        u = t.putTransaction id { old with version := some dir' } := by
  simp only [Disk.updateStaged, updateTransaction_eq_ok, bind_eq_ok, orError_eq_ok, pure_eq_ok]
  constructor
  · rintro ⟨old, _, found, ⟨dir, hdir, dir', changed, rfl⟩, rfl⟩
    exact ⟨old, dir, dir', found, hdir, changed, rfl⟩
  · rintro ⟨old, dir, dir', found, hdir, changed, rfl⟩
    exact ⟨old, _, found, ⟨dir, hdir, dir', changed, rfl⟩, rfl⟩

/-- Changing the staged directory keeps the marker. -/
theorem effect_putStaged {old : Transaction} {dir : Option VersionDir}
    (found : t.transaction id = some old) :
    I.Effect kind s₀ t (t.putTransaction id { old with version := dir }) :=
  .stage (.put id _ (.inr (.inl ⟨old, found, rfl⟩)))

/-- Changing the staged directory takes no evidence of ownership away. -/
theorem LauncherOwned.putStaged {old : Transaction} {dir : Option VersionDir}
    (found : t.transaction id = some old) (owned : I.LauncherOwned t) :
    I.LauncherOwned (t.putTransaction id { old with version := dir }) := by
  intro windows bytes command
  rcases owned windows bytes command with ⟨other, x, raw, hx, marker, decoded⟩ | rest
  · left
    by_cases same : other = id
    · subst same
      rw [found] at hx
      cases hx
      exact ⟨other, _, raw, transaction_put found, marker, decoded⟩
    · refine ⟨other, x, raw, ?_, marker, decoded⟩
      rw [Disk.transaction] at hx ⊢
      rw [put_other same]
      exact hx
  · exact .inr rest

/-- A write to the staged directory, whatever its outcome. -/
theorem wp_stagedWrite {f : Disk V → Except (InstallError V) (Disk V)}
    (h : I.Preparing s id t)
    (staged : ∀ u, f t = .ok u → ∃ old dir, t.transaction id = some old ∧
      u = t.putTransaction id { old with version := dir }) :
    WP solo (I.Effect kind s₀) (fun _ u => I.Preparing s id u) (write f) t := by
  rw [wp_write]
  refine ⟨fun u hu => ?_, fun _ _ => h⟩
  obtain ⟨old, dir, found, rfl⟩ := staged u hu
  exact ⟨effect_putStaged found, h.put found _⟩

theorem wp_writeMember {name : String} {data : Bytes} (h : I.Preparing s id t) :
    WP solo (I.Effect kind s₀) (fun _ u => I.Preparing s id u)
      (writeMember id name data : Action V Unit) t := by
  refine wp_stagedWrite h fun u hu => ?_
  obtain ⟨old, dir, dir', found, _, _, same⟩ := updateStaged_eq_ok.mp (mapError_eq_ok.mp hu)
  exact ⟨old, some dir', found, same⟩

theorem wp_removeStagedFile {name : String} (h : I.Preparing s id t) :
    WP solo (I.Effect kind s₀) (fun _ u => I.Preparing s id u)
      (removeStagedFile id name : Action V Unit) t := by
  refine wp_stagedWrite h fun u hu => ?_
  obtain ⟨old, dir, dir', found, _, _, same⟩ := updateStaged_eq_ok.mp hu
  exact ⟨old, some dir', found, same⟩

theorem guards_of_wp {α : Type} {p : Action V α} {P : Disk V → Prop}
    (h : WP solo (I.Effect kind s₀) (fun _ u => P u) p t) :
    Guards solo (I.Effect kind s₀) (fun _ u => P u) p t :=
  h.mono_post fun r _ hp => match r with
    | .ok _ => hp
    | .error _ => trivial

/-- A file of the transaction other than its marker. -/
theorem guards_createTransactionFile {name : String} {bytes : Bytes} (h : I.Preparing s id t)
    (ordinary : launcherCreatedMarker ≠ name) :
    Guards solo (I.Effect kind s₀) (fun _ u => I.Preparing s id u)
      (createTransactionFile id name bytes : Action V Unit) t := by
  refine Guards.write fun u hu => ?_
  obtain ⟨old, new, found, created, rfl⟩ := updateTransaction_eq_ok.mp hu
  simp only [Members.createNew, bind_eq_ok, pure_eq_ok] at created
  obtain ⟨files, ⟨_, _, rfl⟩, rfl⟩ := created
  refine ⟨.stage (.put id _ (.inr (.inl ⟨old, found, ?_⟩))), h.put found _⟩
  exact AList.lookup_insert_ne ordinary

theorem guards_ensureStagedDir (h : I.Preparing s id t) :
    Guards solo (I.Effect kind s₀)
      (fun _ u => (I.Preparing s id u ∧ u.command = t.command ∧
          (I.LauncherOwned t → I.LauncherOwned u)) ∧ ∃ old dir,
        t.transaction id = some old ∧ u.transaction id = some { old with version := some dir } ∧
        dir.isPrivate = true ∧ (old.version = some dir ∨ dir.members = ∅))
      (I.ensureStagedDir id) t := by
  refine Guards.write fun u hu => ?_
  obtain ⟨old, new, found, ensured, rfl⟩ := updateTransaction_eq_ok.mp hu
  have present : (t.putTransaction id new).transaction id = some new := transaction_put found
  split at ensured
  · cases ensured
    exact ⟨effect_putStaged found, ⟨h.put found _, rfl, fun owned => owned.putStaged found⟩, old, _,
      found, present, rfl, .inr rfl⟩
  · rename_i dir hdir
    simp only [bind_eq_ok, check_eq_ok, pure_eq_ok] at ensured
    obtain ⟨_, isPrivate, rfl⟩ := ensured
    have same : old = { old with version := some dir } := by rw [← hdir]
    refine ⟨?_, ⟨h.put found _, rfl, fun owned => ?_⟩, old, dir, found, ?_, isPrivate, .inl hdir⟩
    · exact effect_putStaged found
    · exact owned.putStaged found
    · rw [← same]
      exact present

/-- Extraction only writes into the staged directory. -/
theorem guards_extractArchiveFile {archive : String} {asset : ReleaseAsset}
    (h : I.Preparing s id t) :
    Guards solo (I.Effect kind s₀) (fun _ u => I.Preparing s id u)
      (I.extractArchiveFile id archive asset) t := by
  rw [extractArchiveFile]
  refine Guards.bind_reads fun bytes _ => ?_
  refine Guards.bind_require fun _ => ?_
  refine Guards.bind_ofExcept fun release _ => ?_
  refine Guards.bind_ofExcept fun target _ => ?_
  refine (Guards.onlyIf (Q := fun _ u => I.Preparing s id u)
    (fun _ => (guards_ensureStagedDir h).mono_post fun _ _ hu => hu.1.1) fun _ => h).bind ?_
  intro _ a ha
  split
  · exact guards_of_wp (wp_writeMember ha)
  · refine Guards.bind_ofExcept fun launcherName _ => ?_
    refine (guards_of_wp (wp_writeMember ha)).bind fun _ b hb => ?_
    refine (Guards.attempt (Q := fun _ u => I.Preparing s id u) (wp_writeMember hb)).bind ?_
    intro outcome c hc
    split
    · exact Guards.pure hc
    · refine (guards_of_wp (wp_removeStagedFile hc)).bind fun _ d hd => ?_
      exact Guards.throw _

/-! ## Files after the manifest -/

/-- Replacing a staged file. The manifest stays the downloaded one when it is
the downloaded one that is written, or when another file is. -/
theorem guards_replaceStagedFile {name : String} {bytes manifestBytes : Bytes}
    (h : I.Preparing s id t)
    (kept : name = manifestFile ∧ bytes = manifestBytes ∨
      manifestFile ≠ name ∧ StagedManifest id manifestBytes t) :
    Guards solo (I.Effect kind s₀) (fun _ u => I.Preparing s id u ∧ StagedManifest id manifestBytes u)
      (replaceStagedFile id name bytes : Action V Unit) t := by
  refine Guards.write fun u hu => ?_
  obtain ⟨old, dir, dir', found, hdir, replaced, rfl⟩ := updateStaged_eq_ok.mp hu
  refine ⟨effect_putStaged found, h.put found _, ?_⟩
  simp only [bind_eq_ok, pure_eq_ok] at replaced
  obtain ⟨members, inserted, rfl⟩ := replaced
  have written : members = dir.members.insert name (.file bytes) := by
    unfold Members.replace at inserted
    split at inserted
    · exact (Except.ok.inj inserted).symm
    · exact (Except.ok.inj inserted).symm
    · cases inserted
    · cases inserted
  intro x staged b present hx lookup
  rw [transaction_put found] at present
  cases present
  cases hx
  rw [written] at lookup
  rcases kept with ⟨rfl, rfl⟩ | ⟨other, before⟩
  · rw [AList.lookup_insert] at lookup
    cases lookup
    rfl
  · rw [AList.lookup_insert_ne other] at lookup
    exact before old dir b found hdir lookup

theorem guards_removeStagedFile {name : String} {manifestBytes : Bytes}
    (h : I.Preparing s id t) (manifest : StagedManifest id manifestBytes t) :
    Guards solo (I.Effect kind s₀)
      (fun _ u => (I.Preparing s id u ∧ StagedManifest id manifestBytes u) ∧
        u.command = t.command ∧ (I.LauncherOwned t → I.LauncherOwned u))
      (removeStagedFile id name : Action V Unit) t := by
  refine Guards.write fun u hu => ?_
  obtain ⟨old, dir, dir', found, hdir, removed, rfl⟩ := updateStaged_eq_ok.mp hu
  cases removed
  refine ⟨effect_putStaged found, ⟨h.put found _, ?_⟩, rfl, fun owned => owned.putStaged found⟩
  intro x staged b present hx lookup
  rw [transaction_put found] at present
  cases present
  cases hx
  apply manifest old dir b found hdir
  by_cases same : manifestFile = name
  · rw [same] at lookup
    simp [AList.lookup_erase] at lookup
  · rwa [AList.lookup_erase_ne same] at lookup

/-! ## The launcher -/

theorem guards_requireLauncherOwned {alreadyManaged : Bool} (windows : I.platform = .windows) :
    Guards solo (I.Effect kind s₀)
      (fun _ u => u = t ∧ (∃ bytes, t.command = .file bytes) ∧ I.LauncherOwned t)
      (I.requireLauncherOwned alreadyManaged) t := by
  rw [requireLauncherOwned]
  refine Guards.bind_require fun _ => ?_
  refine Guards.bind_reads fun install hi => ?_
  split
  · rename_i i
    refine Guards.reads fun _ verified => ⟨rfl, I.command_of_verified windows verified, ?_⟩
    exact I.launcherOwned_recorded windows (Document.readJson_eq_ok.mp hi) verified
  · refine Guards.bind_unchanged guards_proveRetainedLauncherOwnership fun proven h => ?_
    refine Guards.require fun yes => ⟨rfl, ?_⟩
    obtain ⟨bytes, launcher, retains⟩ := h yes
    exact ⟨⟨bytes, retains.command⟩, retains.owned⟩

omit [SemVer V] [Crates V] in
theorem stagedFile_eq_ok {name : String} {bytes : Bytes} :
    I.stagedFile id name t = .ok bytes ↔ ∃ x dir, t.transaction id = some x ∧
      x.version = some dir ∧ dir.members.lookup name = some (.file bytes) := by
  simp only [stagedFile, stagedVersion, bind_eq_ok, orError_eq_ok, Member.regular_eq_ok]
  constructor
  · rintro ⟨dir, ⟨x, found, hdir⟩, lookup⟩
    exact ⟨x, dir, found, hdir, lookup⟩
  · rintro ⟨x, dir, found, hdir, lookup⟩
    exact ⟨dir, ⟨x, found, hdir⟩, lookup⟩

/-- Creating the first launcher, with the staged bytes that were verified and
the marker that names them. -/
theorem guards_createLauncher {launcherName sha256 : String} {alreadyManaged : Bool}
    {manifestBytes bytes : Bytes} (windows : I.platform = .windows) (h : I.Preparing s id t)
    (manifest : StagedManifest id manifestBytes t)
    (staged : I.stagedFile id launcherName t = .ok bytes)
    (digest : Crates.sha256 V bytes = sha256)
    (missing : I.lexistsCommand t = .ok false)
    (first : alreadyManaged = false → s.install = .absent ∧
      ∀ other, other ≠ id → s.transaction other = none) :
    Guards solo (I.Effect kind s₀)
      (fun _ u => (I.Preparing s id u ∧ StagedManifest id manifestBytes u) ∧
        (∃ bytes, u.command = .file bytes) ∧ I.LauncherOwned u)
      (I.createLauncher id launcherName sha256 alreadyManaged) t := by
  unfold createLauncher
  refine Guards.bind_require fun fresh => ?_
  obtain ⟨install, alone⟩ := first fresh
  refine guards_ensureCommandParent.bind fun _ a ⟨_, ha⟩ => ?_
  have noFile : ∀ b, t.command ≠ .file b := by
    intro b here
    rcases I.lexistsCommand_false missing with absent | unreachable
    · rw [absent] at here; cases here
    · rw [unreachable] at here; cases here
  have same : a.transaction = t.transaction := by rw [ha]; rfl
  have prepA : I.Preparing s id a := by
    rw [ha]
    exact ⟨h.install, h.pending, h.active, h.versions, h.present, h.others, h.command⟩
  obtain ⟨x, dir, found, hdir, lookup⟩ := I.stagedFile_eq_ok.mp staged
  refine Guards.bind_write fun b hb => ?_
  obtain ⟨old, new, foundA, replaced, rfl⟩ := updateTransaction_eq_ok.mp hb
  rw [same, found] at foundA
  cases foundA
  have foundA : a.transaction id = some x := by rw [same]; exact found
  simp only [bind_eq_ok, pure_eq_ok] at replaced
  obtain ⟨files, inserted, rfl⟩ := replaced
  have marked : files.lookup launcherCreatedMarker = some (.file (encodeUtf8 sha256)) := by
    unfold Members.replace at inserted
    split at inserted
    · rw [← Except.ok.inj inserted, AList.lookup_insert]
    · rw [← Except.ok.inj inserted, AList.lookup_insert]
    · cases inserted
    · cases inserted
  have presentB : Disk.transaction _ id = some (⟨x.isPrivate, files, x.version⟩ : Transaction) :=
    transaction_put foundA
  have prepB := prepA.put foundA ⟨x.isPrivate, files, x.version⟩
  refine ⟨.stage (.put id _ (.inr (.inr ⟨?_, sha256, ?_, marked⟩))), ?_⟩
  · rw [ha]; exact noFile
  · rw [← digest]; exact Crates.sha256_lower bytes
  refine Guards.bind_reads fun bytes' stagedB => Guards.write fun u hu => ?_
  obtain ⟨y, dir', foundB, hdir', lookup'⟩ := I.stagedFile_eq_ok.mp stagedB
  rw [presentB] at foundB
  cases foundB
  rw [hdir] at hdir'
  cases hdir'
  rw [lookup] at lookup'
  cases lookup'
  simp only [bind_eq_ok, check_eq_ok, pure_eq_ok] at hu
  obtain ⟨_, absent, rfl⟩ := hu
  have installB : a.install = s.install := (Preparing.core prepA).install
  have commandS : s.command = .absent := by
    rcases prepB.command with kept | ⟨_, gone, _⟩
    · exact kept.symm.trans absent
    · exact gone
  have byMarker : MarkedBy (a.putTransaction id ⟨x.isPrivate, files, x.version⟩)
      (Crates.sha256 V bytes) :=
    ⟨id, _, encodeUtf8 sha256, presentB, marked, by rw [decodeUtf8_encodeUtf8, digest]⟩
  refine ⟨.createLauncher bytes ⟨windows, absent, installB.trans install, byMarker, ?_⟩, ⟨?_, ?_⟩,
    ⟨_, rfl⟩, fun _ bytes' here => ?_⟩
  · intro other tr marker hother hmarker
    by_cases same : other = id
    · subst same
      rw [presentB] at hother
      cases hother
      rw [marked] at hmarker
      cases hmarker
      rw [digest]
    · rw [prepB.transaction same, alone other same] at hother
      cases hother
  · exact ⟨prepB.install, prepB.pending, prepB.active, prepB.versions, ⟨_, presentB⟩, prepB.others,
      .inr ⟨windows, commandS, bytes, rfl⟩⟩
  · intro y staged b present hy hb
    have present : (a.putTransaction id ⟨x.isPrivate, files, x.version⟩).transaction id = some y :=
      present
    rw [presentB] at present
    cases present
    exact manifest x staged b found hy hb
  · cases here
    exact .inl byMarker

theorem guards_installLauncher {selected : SelectedAsset} {alreadyManaged : Bool}
    {manifestBytes : Bytes} (windows : I.platform = .windows) (h : I.Preparing s id t)
    (manifest : StagedManifest id manifestBytes t)
    (first : alreadyManaged = false → s.install = .absent ∧
      ∀ other, other ≠ id → s.transaction other = none) :
    Guards solo (I.Effect kind s₀)
      (fun _ u => (I.Preparing s id u ∧ StagedManifest id manifestBytes u) ∧
        (∃ bytes, u.command = .file bytes) ∧ I.LauncherOwned u)
      (I.installLauncher id selected alreadyManaged) t := by
  rw [installLauncher]
  refine Guards.bind_ofExcept fun launcher _ => ?_
  refine Guards.bind_require fun _ => ?_
  refine Guards.bind_ofExcept fun launcherName _ => ?_
  refine Guards.bind_reads fun bytes staged => ?_
  refine Guards.bind_ofExcept fun _ verified => ?_
  have digest := (verifyFileDigest_eq_ok.mp verified).2
  refine Guards.bind_reads fun present hp => ?_
  refine Guards.bind (M := fun _ u => (I.Preparing s id u ∧ StagedManifest id manifestBytes u) ∧
    (∃ bytes, u.command = .file bytes) ∧ I.LauncherOwned u) ?_
    fun _ a ⟨⟨ha, ma⟩, file, owned⟩ => ?_
  · cases present with
    | true =>
      refine (guards_requireLauncherOwned windows).mono_post fun _ u ⟨same, file⟩ => ?_
      subst same
      exact ⟨⟨h, manifest⟩, file⟩
    | false => exact guards_createLauncher windows h manifest staged digest hp first
  · refine (guards_removeStagedFile ha ma).mono_post fun _ u ⟨kept, command, stays⟩ => ⟨kept, ?_⟩
    rw [command]
    exact ⟨file, stays owned⟩

/-! ## Downloaded metadata -/

omit [Crates V] in
theorem validateTargets_eq_ok {manifest : ReleaseManifest V} {app : App} {list : List Target}
    (h : manifest.validateTargets app list = .ok ()) {target : Target} (listed : target ∈ list)
    {asset : ReleaseAsset} (present : manifest.targets target = some asset) :
    asset.validate app manifest.version target = .ok () := by
  induction list with
  | nil => cases listed
  | cons head rest ih =>
    unfold ReleaseManifest.validateTargets at h
    rcases List.mem_cons.mp listed with rfl | inRest
    · rw [present] at h
      exact (bind_eq_ok.mp h).choose_spec.1
    · refine ih ?_ inRest
      split at h
      · exact (bind_eq_ok.mp h).choose_spec.2
      · exact h

omit [Crates V] in
theorem assetFor_eq_ok {manifest : ReleaseManifest V} {readTime : TimestampReader} {app : App}
    {target : Target} {selected : SelectedAsset}
    (h : manifest.assetFor readTime app target = .ok selected) :
    selected.target = target ∧ manifest.targets target = some selected.asset ∧
      selected.asset.validate app manifest.version target = .ok () := by
  simp only [ReleaseManifest.assetFor, bind_eq_ok, orError_eq_ok, pure_eq_ok] at h
  obtain ⟨_, valid, asset, present, rfl⟩ := h
  refine ⟨rfl, present, ?_⟩
  simp only [ReleaseManifest.validate, bind_eq_ok] at valid
  obtain ⟨_, _, _, _, _, _, _, _, _, _, targets⟩ := valid
  exact validateTargets_eq_ok targets (Target.mem_all target) present

omit [Crates V] in
/-- No archive is called like the launcher marker. -/
theorem archiveName_ne_marker (target : Target) (app : App) (v : V) :
    launcherCreatedMarker ≠ target.archiveName app v := by
  intro same
  have lasts := congrArg (fun text : String => text.toList.getLast?) same
  simp only [Target.archiveName, Target.archiveSuffix, String.toList_append] at lasts
  split at lasts <;> simp [launcherCreatedMarker] at lasts

/-- What the second metadata check has established. -/
structure MetadataVerified (metadata : ReleaseMetadata V U) (target : Target) (now : Int)
    (selected : SelectedAsset) : Prop where
  version : metadata.version = metadata.manifest.version
  trusted : ∃ verified, verifyTrusted V I.app I.trustedKeys metadata.manifestBytes
    metadata.signatureBytes = .ok verified ∧ verified.keyId = metadata.verifiedSignature.keyId
  manifest : ReleaseManifest.fromBytes I.app metadata.manifestBytes = .ok metadata.manifest
  unexpired : metadata.manifest.ensureNotExpired (Crates.readTime V) now = .ok ()
  selected : metadata.manifest.assetFor (Crates.readTime V) I.app target = .ok selected

theorem verifyMetadata_eq_ok {metadata : ReleaseMetadata V U} {target : Target} {now : Int}
    {selected : SelectedAsset} :
    I.verifyMetadata metadata target now = .ok selected ↔
      I.MetadataVerified metadata target now selected := by
  simp only [verifyMetadata, bind_eq_ok, check_eq_ok, mapError_eq_ok]
  constructor
  · rintro ⟨_, version, _, _, verified, trusted, _, key, parsed, manifest, _, unexpired, _, rfl,
      selected⟩
    exact ⟨version, ⟨verified, trusted, key⟩, manifest, unexpired, selected⟩
  · rintro ⟨version, ⟨verified, trusted, key⟩, manifest, unexpired, selected⟩
    exact ⟨(), version, (), by rw [version], verified, trusted, (), key, metadata.manifest,
      manifest, (), unexpired, (), rfl, selected⟩

/-! ## The staged version -/

theorem guards_writeDownloadedVersion {inputs : Inputs V U} {metadata : ReleaseMetadata V U}
    {archive : DownloadedArchive} {installationId : String} {target : Target}
    {alreadyManaged : Bool} (h : I.Preparing s id t)
    (first : I.platform = .windows → alreadyManaged = false → s.install = .absent ∧
      ∀ other, other ≠ id → s.transaction other = none) :
    Guards solo (I.Effect kind s₀)
      (fun _ u => (I.Preparing s id u ∧ StagedManifest id metadata.manifestBytes u) ∧
        (I.platform = .windows → ∃ bytes, u.command = .file bytes) ∧ I.LauncherOwned u)
      (I.writeDownloadedVersion inputs id metadata archive installationId target alreadyManaged)
      t := by
  rw [writeDownloadedVersion]
  refine Guards.bind_ofExcept fun selected verified => ?_
  have chosen := (I.verifyMetadata_eq_ok.mp verified).selected
  have name : launcherCreatedMarker ≠ selected.asset.archive := by
    have valid := (assetFor_eq_ok chosen).2.2
    simp only [ReleaseAsset.validate, bind_eq_ok, check_eq_ok] at valid
    obtain ⟨_, canonical, _⟩ := valid
    rw [canonical]
    exact archiveName_ne_marker _ _ _
  refine (guards_createTransactionFile h name).bind fun _ a ha => ?_
  refine (guards_extractArchiveFile ha).bind fun _ b hb => ?_
  refine (guards_replaceStagedFile hb (.inl ⟨rfl, rfl⟩)).bind fun _ c found => ?_
  obtain ⟨hc, mc⟩ := found
  refine (guards_replaceStagedFile hc (.inr ⟨by decide, mc⟩)).bind fun _ d found => ?_
  obtain ⟨hd, md⟩ := found
  refine Guards.bind_reads fun payload _ => ?_
  have record : ∀ state, Guards solo (I.Effect kind s₀)
      (fun _ u => I.Preparing s id u ∧ StagedManifest id metadata.manifestBytes u)
      (I.writeVersionState id state) d := by
    intro state
    rw [writeVersionState]
    exact Guards.bind_ofExcept fun _ _ => guards_replaceStagedFile hd (.inr ⟨by decide, md⟩)
  refine (record _).bind fun _ e found => ?_
  obtain ⟨he, me⟩ := found
  refine Guards.onlyIf (fun windows => ?_) fun unix => ⟨⟨he, me⟩,
    fun windows => absurd windows unix, fun windows => absurd windows unix⟩
  exact (guards_installLauncher windows he me (first windows)).mono_post
    fun _ u found => ⟨found.1, fun _ => found.2.1, found.2.2⟩

/-- A staged version that has been verified completely. -/
structure StagedVersion (id : String) (v : V) (installationId : String) (manifestBytes : Bytes)
    (t : Disk V) (x : Transaction) (dir : VersionDir) (state : VersionState V)
    (c : Contents V) : Prop where
  present : t.transaction id = some x
  version : x.version = some dir
  isPrivate : dir.isPrivate = true
  complete : I.Complete dir state c
  named : state.version = v
  owner : state.installationId = installationId
  manifest : c.manifestBytes = manifestBytes

theorem guards_verifyStagedVersion {v : V} {installationId : String} {manifestBytes : Bytes}
    (h : I.Preparing s id t) (manifest : StagedManifest id manifestBytes t) :
    Guards solo (I.Effect kind s₀)
      (fun state u => (I.Preparing s id u ∧ u.command = t.command ∧
          (I.LauncherOwned t → I.LauncherOwned u)) ∧
        ∃ x dir c, I.StagedVersion id v installationId manifestBytes u x dir state c)
      (I.verifyStagedVersion id v installationId) t := by
  rw [verifyStagedVersion]
  apply (guards_ensureStagedDir h).bind
  rintro _ u ⟨kept, old, dir, found, present, isPrivate, origin⟩
  refine Guards.bind_reads fun dir' staged => ?_
  simp only [stagedVersion, bind_eq_ok, orError_eq_ok, present, Option.some.injEq] at staged
  obtain ⟨_, rfl, staged⟩ := staged
  cases staged
  refine Guards.bind_ofExcept fun state verified => ?_
  obtain ⟨ids, c, complete⟩ := I.verifyVersionFiles_eq_ok.mp verified
  refine Guards.bind_require fun named => Guards.pure ⟨kept, _, dir, c, present, rfl,
    isPrivate, complete, named, ?_, ?_⟩
  · rcases ids with none_ | same
    · cases none_
    · exact (Option.some.inj same).symm
  · rcases origin with kept | empty
    · exact manifest old dir c.manifestBytes found kept complete.manifest_at
    · have found := complete.manifest_at
      rw [empty] at found
      simp at found

end Guards

end Installation

end Relswap
