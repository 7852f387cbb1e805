import Relswap.Durable.Outcome
import Relswap.Proof.Selector

/-!
# Complete version directories

`Complete` lists what a successful verification of a version directory has
established. The verification is exact: it accepts a directory if and only if
these facts hold, whatever path its messages mention.
-/

namespace Relswap.Installation

open Durable Durable.Program Disk

variable {V : Type} [SemVer V] [Crates V] (I : Installation) {solo : Bool}

/-- The contents of a version directory that its verification reads. -/
structure Contents (V : Type) where
  target : Target
  record : Bytes
  manifestBytes : Bytes
  signatureBytes : Bytes
  payload : Bytes
  verified : VerifiedSignature
  manifest : ReleaseManifest V
  selected : SelectedAsset

/-- The facts a verified directory satisfies. -/
structure Complete (dir : VersionDir) (state : VersionState V) (c : Contents V) : Prop where
  target : I.currentTarget = some c.target
  record_at : dir.members.lookup versionFile = some (.file c.record)
  record_fits : c.record.length ≤ maxMetadataSize
  record : Crates.decodeVersionState c.record = .ok state
  valid : validateVersionState I.app state = .ok ()
  state_target : state.target = c.target
  manifest_at : dir.members.lookup manifestFile = some (.file c.manifestBytes)
  manifest_fits : c.manifestBytes.length ≤ maxMetadataSize
  signature_at : dir.members.lookup signatureFile = some (.file c.signatureBytes)
  signature_fits : c.signatureBytes.length ≤ maxMetadataSize
  trusted : verifyTrusted V I.app I.trustedKeys c.manifestBytes c.signatureBytes = .ok c.verified
  manifest : ReleaseManifest.fromBytes I.app c.manifestBytes = .ok c.manifest
  version : c.manifest.version = state.version
  selected : c.manifest.assetFor (Crates.readTime V) I.app c.target = .ok c.selected
  payload_path : c.selected.asset.payload.path = c.target.payloadPath I.app state.version
  key_id : c.verified.keyId ≠ ""
  payload_at : dir.members.lookup (c.target.payloadName I.app) = some (.file c.payload)
  payload_size : c.payload.length = c.selected.asset.payload.size
  payload_digest : Crates.sha256 V c.payload = c.selected.asset.payload.sha256
  state_size : state.size = c.selected.asset.payload.size
  state_digest : state.binarySha256 = c.selected.asset.payload.sha256
  launcher : I.verifyVersionLauncher c.target state c.selected = .ok ()
  members : (I.validateExactVersionMembers dir c.target : Except (InstallError V) Unit) = .ok ()

theorem readVersionState_eq_some {path : FsPath} {dir : VersionDir} {state : VersionState V} :
    I.readVersionState path dir = .ok (some state) ↔
      ∃ record, dir.members.lookup versionFile = some (.file record) ∧
        record.length ≤ maxMetadataSize ∧ Crates.decodeVersionState record = .ok state := by
  rw [readVersionState]
  cases hm : dir.members.lookup versionFile with
  | none => simp
  | some member =>
    cases member with
    | file record =>
      simp only [bind_eq_ok, check_eq_ok, mapError_eq_ok, pure_eq_ok, Option.some.injEq,
        Member.file.injEq]
      constructor
      · rintro ⟨_, fits, _, decoded, rfl⟩
        exact ⟨record, rfl, fits, decoded⟩
      · rintro ⟨_, rfl, fits, decoded⟩
        exact ⟨(), fits, state, decoded, rfl⟩
    | directory => simp
    | link => simp

/-- Verification accepts exactly the complete directories with the expected id. -/
theorem verifyVersionFiles_eq_ok {path : FsPath} {dir : VersionDir} {id : Option String}
    {state : VersionState V} :
    I.verifyVersionFiles path dir id = .ok state ↔
      (id = none ∨ id = some state.installationId) ∧ ∃ c, I.Complete dir state c := by
  constructor
  · intro h
    simp only [verifyVersionFiles, bind_eq_ok, orError_eq_ok, check_eq_ok, currentTargetOr,
      pure_eq_ok, Member.regular_eq_ok, verifyFileDigest_eq_ok, verifySignedMetadata,
      readRegularLimited_eq_ok, mapError_eq_ok] at h
    obtain ⟨read, hread, st, rfl, _, valid, _, hid, target, htarget, _, stTarget, sel,
      ⟨m, ⟨mAt, mFits⟩, sg, ⟨sAt, sFits⟩, ver, trusted, man, parsed, _, version, sel', selected,
        _, path, _, key, _, ⟨digest, size⟩, rfl⟩, payload, payloadAt, _, ⟨length, sha⟩, _, launcher,
      _, members, rfl⟩ := h
    obtain ⟨record, recordAt, recordFits, decoded⟩ := I.readVersionState_eq_some.mp hread
    refine ⟨hid, ⟨target, record, m, sg, payload, ver, man, sel'⟩, ?_⟩
    exact ⟨htarget, recordAt, recordFits, decoded, valid, stTarget, mAt, mFits, sAt, sFits,
      trusted, parsed, version, selected, path, key, payloadAt, length.trans size,
      sha.trans digest, size, digest, launcher, members⟩
  · rintro ⟨hid, c, h⟩
    simp only [verifyVersionFiles, bind_eq_ok, orError_eq_ok, check_eq_ok, currentTargetOr,
      pure_eq_ok, Member.regular_eq_ok, verifyFileDigest_eq_ok, verifySignedMetadata,
      readRegularLimited_eq_ok, mapError_eq_ok]
    refine ⟨some state, ?_, state, rfl, (), h.valid, (), hid, c.target, h.target, (),
      h.state_target, c.selected, ?_, c.payload, h.payload_at, (), ?_, (), h.launcher, (),
      h.members, rfl⟩
    · exact I.readVersionState_eq_some.mpr ⟨c.record, h.record_at, h.record_fits, h.record⟩
    · exact ⟨c.manifestBytes, ⟨h.manifest_at, h.manifest_fits⟩, c.signatureBytes,
        ⟨h.signature_at, h.signature_fits⟩, c.verified, h.trusted, c.manifest, h.manifest, (),
        h.version, c.selected, h.selected, (), h.payload_path, (), h.key_id, (),
        ⟨h.state_digest, h.state_size⟩, rfl⟩
    · exact ⟨h.payload_size.trans h.state_size.symm, h.payload_digest.trans h.state_digest.symm⟩

/-- A complete directory has one record and one set of contents. -/
theorem Complete.unique {dir : VersionDir} {state state' : VersionState V} {c c' : Contents V}
    (h : I.Complete dir state c) (h' : I.Complete dir state' c') : state = state' := by
  have bytes := h.record_at.symm.trans h'.record_at
  have same : c.record = c'.record := Member.file.inj (Option.some.inj bytes)
  have decoded := h.record
  rw [same, h'.record] at decoded
  exact (Except.ok.inj decoded).symm

/-- A version is retained: its directory is private and verifies under its name. -/
def Retained (s : Disk V) (v : V) (state : VersionState V) : Prop :=
  ∃ dir c, s.versionEntry (SemVer.toText v) = some (.directory dir) ∧ dir.isPrivate = true ∧
    I.Complete dir state c ∧ state.version = v

theorem Retained.unique {s : Disk V} {v : V} {state state' : VersionState V}
    (h : I.Retained s v state) (h' : I.Retained s v state') : state = state' := by
  obtain ⟨dir, c, entry, _, complete, _⟩ := h
  obtain ⟨dir', c', entry', _, complete', _⟩ := h'
  have same : dir = dir' := VersionEntry.directory.inj (Option.some.inj (entry.symm.trans entry'))
  subst same
  exact complete.unique I complete'

theorem Retained.of_entry {s t : Disk V} {v : V} {state : VersionState V}
    (h : I.Retained s v state)
    (same : t.versionEntry (SemVer.toText v) = s.versionEntry (SemVer.toText v)) :
    I.Retained t v state := by
  obtain ⟨dir, c, entry, rest⟩ := h
  exact ⟨dir, c, same.trans entry, rest⟩

theorem finalVersionState_eq_ok {s : Disk V} {v : V} {id : Option String}
    {state : VersionState V} :
    I.finalVersionState v id s = .ok state ↔
      (id = none ∨ id = some state.installationId) ∧
        ∃ dir c, s.versionEntry (SemVer.toText v) = some (.directory dir) ∧
          I.Complete dir state c ∧ state.version = v := by
  rw [finalVersionState]
  cases he : s.versionEntry (SemVer.toText v) with
  | none => simp
  | some entry =>
    cases entry with
    | foreign => simp
    | directory dir =>
      simp only [bind_eq_ok, check_eq_ok, pure_eq_ok, verifyVersionFiles_eq_ok,
        Option.some.injEq, VersionEntry.directory.injEq]
      constructor
      · rintro ⟨st, ⟨hid, c, complete⟩, _, version, rfl⟩
        exact ⟨hid, dir, c, rfl, complete, version⟩
      · rintro ⟨hid, _, c, rfl, complete, version⟩
        exact ⟨state, ⟨hid, c, complete⟩, (), version, rfl⟩

theorem Retained.final {s : Disk V} {v : V} {state : VersionState V} {id : Option String}
    (h : I.Retained s v state) (hid : id = none ∨ id = some state.installationId) :
    I.finalVersionState v id s = .ok state := by
  obtain ⟨dir, c, entry, _, complete, version⟩ := h
  exact I.finalVersionState_eq_ok.mpr ⟨hid, dir, c, entry, complete, version⟩

/-! ## The directory step of every verification -/

/-- The step from `s` to `t` creates an empty directory for `v`. -/
def AddsEmpty (v : V) (s t : Disk V) : Prop :=
  s.versionEntry (SemVer.toText v) = none ∧
    ((s.versions = .absent ∧
        t = { s with
          versions := .directory true (AList.singleton (SemVer.toText v) (.directory ⟨true, ∅⟩)) }) ∨
      ∃ isPrivate entries, s.versions = .directory isPrivate entries ∧
        t = { s with
          versions :=
            .directory isPrivate (entries.insert (SemVer.toText v) (.directory ⟨true, ∅⟩)) })

omit [Crates V] in
theorem AddsEmpty.entry {v : V} {s t : Disk V} (h : AddsEmpty v s t) (name : String) :
    t.versionEntry name =
      if name = SemVer.toText v then some (.directory ⟨true, ∅⟩) else s.versionEntry name := by
  rcases h with ⟨_, ⟨absent, rfl⟩ | ⟨p, entries, present, rfl⟩⟩
  · by_cases same : name = SemVer.toText v
    · subst same
      simp [Disk.versionEntry, AList.singleton, AList.lookup]
    · have other : AList.lookup name (AList.singleton (SemVer.toText v)
          (VersionEntry.directory ⟨true, ∅⟩) : AList fun _ : String => VersionEntry) = none := by
        rw [AList.lookup_eq_none, AList.mem_keys, AList.keys_singleton]
        simpa using same
      simp only [Disk.versionEntry, Folder.entries_directory, other, same, if_false, absent,
        Folder.entries_absent, AList.lookup_empty]
  · by_cases same : name = SemVer.toText v
    · subst same
      simp [Disk.versionEntry]
    · simp [Disk.versionEntry, same, present, AList.lookup_insert_ne same]

omit [Crates V] in
/-- What the directory step can do: nothing, when the directory is present. -/
theorem wp_ensureVersionDir {G : Disk V → Disk V → Prop} {v : V} {s : Disk V}
    {Q : Except (InstallError V) Unit → Disk V → Prop}
    (adds : ∀ t, AddsEmpty v s t → G s t ∧ Q (.ok ()) t)
    (present : ∀ dir, s.versionEntry (SemVer.toText v) = some (.directory dir) →
      dir.isPrivate = true → G s s ∧ Q (.ok ()) s)
    (fails : ∀ e, Q (.error e) s) : WP solo G Q (I.ensureVersionDir v) s := by
  rw [ensureVersionDir]
  rw [wp_write]
  refine ⟨fun t ht => ?_, fun e _ => fails e⟩
  cases hv : s.versions with
  | absent =>
    rw [hv] at ht
    cases ht
    exact adds _ ⟨by simp [Disk.versionEntry, hv], .inl ⟨hv, rfl⟩⟩
  | foreign => rw [hv] at ht; cases ht
  | directory p entries =>
    rw [hv] at ht
    have entry := versionEntry_directory hv (SemVer.toText v)
    cases he : entries.lookup (SemVer.toText v) with
    | none =>
      simp only [he] at ht
      cases ht
      exact adds _ ⟨entry.trans he, .inr ⟨p, entries, hv, rfl⟩⟩
    | some found =>
      cases found with
      | foreign => simp only [he] at ht; cases ht
      | directory dir =>
        simp only [he, bind_eq_ok, check_eq_ok, pure_eq_ok] at ht
        obtain ⟨_, isPrivate, rfl⟩ := ht
        exact present dir (entry.trans he) isPrivate

/-- An empty directory never verifies. -/
theorem not_complete_empty {state : VersionState V} {c : Contents V} {p : Bool}
    (h : I.Complete ⟨p, ∅⟩ state c) : False := by
  have found := h.record_at
  simp at found

/-- A verification that succeeds has found a retained version and changed
nothing; otherwise it may have added an empty directory. -/
theorem wp_verifyFinalVersion {G : Disk V → Disk V → Prop} {v : V} {id : Option String}
    {s : Disk V} {Q : Except (InstallError V) (VersionState V) → Disk V → Prop}
    (refl : G s s) (adds : ∀ t, AddsEmpty v s t → G s t ∧ ∀ e, Q (.error e) t)
    (ok : ∀ state, I.Retained s v state → (id = none ∨ id = some state.installationId) →
      Q (.ok state) s)
    (fails : ∀ e, Q (.error e) s) : WP solo G Q (I.verifyFinalVersion v id) s := by
  refine wp_bind_of (M := fun r t =>
    (∀ e, Q (.error e) t) ∧ (r = .ok () → ∀ state, I.finalVersionState v id t = .ok state →
      Q (.ok state) t)) ?_ ?_ ?_
  · refine I.wp_ensureVersionDir ?_ ?_ ?_
    · intro t added
      refine ⟨(adds t added).1, (adds t added).2, fun _ state found => ?_⟩
      obtain ⟨_, dir, c, entry, complete, _⟩ := I.finalVersionState_eq_ok.mp found
      rw [added.entry, if_pos rfl] at entry
      cases entry
      exact (I.not_complete_empty complete).elim
    · intro dir entry isPrivate
      refine ⟨refl, fails, fun _ state found => ?_⟩
      obtain ⟨hid, dir', c, entry', complete, version⟩ := I.finalVersionState_eq_ok.mp found
      refine ok state ⟨dir, c, entry, isPrivate, ?_, version⟩ hid
      rw [entry] at entry'
      cases entry'
      exact complete
    · exact fun e => ⟨fails, nofun⟩
  · intro _ t ⟨error, found⟩
    rw [wp_reads]
    cases hr : I.finalVersionState v id t with
    | ok state => exact found rfl state hr
    | error e => exact error e
  · exact fun e t ⟨error, _⟩ => error e

theorem guards_verifyFinalVersion {G : Disk V → Disk V → Prop} {v : V} {id : Option String}
    {s : Disk V} (refl : G s s) (adds : ∀ t, AddsEmpty v s t → G s t) :
    Guards solo G (fun state t => t = s ∧ I.Retained s v state ∧
      (id = none ∨ id = some state.installationId)) (I.verifyFinalVersion v id) s :=
  I.wp_verifyFinalVersion refl (fun t added => ⟨adds t added, fun _ => trivial⟩)
    (fun _ retained hid => ⟨rfl, retained, hid⟩) fun _ => trivial

omit [Crates V] in
theorem succeeds_ensureVersionDir {v : V} {s : Disk V} {dir : VersionDir}
    (entry : s.versionEntry (SemVer.toText v) = some (.directory dir))
    (isPrivate : dir.isPrivate = true) : Succeeds (I.ensureVersionDir v) s () s := by
  obtain ⟨p, entries, present, found⟩ := versions_of_entry entry
  apply Succeeds.write
  simp only [present, found]
  rw [check_pass isPrivate]
  rfl

/-- Verifying a retained version succeeds and changes nothing. -/
theorem Retained.succeeds {v : V} {s : Disk V} {state : VersionState V} {id : Option String}
    (h : I.Retained s v state) (hid : id = none ∨ id = some state.installationId) :
    Succeeds (I.verifyFinalVersion v id) s state s := by
  have final := h.final I hid
  obtain ⟨dir, c, entry, isPrivate, _⟩ := h
  exact (I.succeeds_ensureVersionDir entry isPrivate).bind (Succeeds.reads final)

end Relswap.Installation
