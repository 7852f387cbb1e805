import Relswap.Property.Identity

/-!
# Retained versions

Version directories are only ever added. A version that verifies once verifies at
every later moment of every run, with the same record, and every version that the
selector, the journal or `install.json` names is one that verifies.
-/

namespace Relswap

open Durable Durable.Program Disk

namespace Installation

variable {V U : Type} [SemVer V] [Crates V] [UrlCrate U] (I : Installation)

/-- The verification of the version succeeds with this record and writes nothing. -/
def Verifies (s : Disk V) (v : V) (state : VersionState V) : Prop :=
  (I.verifyFinalVersion v (some state.installationId)).exec s = (.ok state, s)

/-- The versions that a disk names outside the versions directory. -/
inductive Names (s : Disk V) : V → Prop where
  | selected {v : V} (selects : I.Selects s (some v)) : Names s v
  | target {p : PendingActivation V} (pending : s.pending = .value p) : Names s p.toVersion
  | source {p : PendingActivation V} {v : V} (pending : s.pending = .value p)
      (left : p.fromVersion = some v) : Names s v
  | active {i : InstallState V} {v : V} (install : s.install = .value i)
      (active : i.active = some v) : Names s v
  | previous {i : InstallState V} {v : V} (install : s.install = .value i)
      (previous : i.previous = some v) : Names s v

variable {I} {s : Disk V} {v : V} {state : VersionState V} {id : Option String}

theorem Retained.verifies (h : I.Retained s v state) : I.Verifies s v state :=
  h.succeeds I (.inr rfl)

/-- What verifies is retained. -/
theorem retained_of_verified (h : ((I.verifyFinalVersion v id).exec s).1 = .ok state) :
    I.Retained s v state := by
  have guarded : Guards false (fun _ _ => True) (fun state t => t = s ∧ I.Retained s v state ∧
      (id = none ∨ id = some state.installationId)) (I.verifyFinalVersion v id) s :=
    I.guards_verifyFinalVersion trivial fun _ _ => trivial
  have ended := guarded.exec
  generalize (I.verifyFinalVersion v id).exec s = outcome at h ended
  obtain ⟨result, t⟩ := outcome
  cases h
  exact ended.2.1

theorem Inv.names (h : I.Inv s) (named : I.Names s v) : ∃ state, I.Retained s v state := by
  cases named with
  | selected selects => exact h.selected selects
  | target pending => exact (h.journal _ pending).target
  | source pending left => exact (h.journal _ pending).source v left
  | active install active =>
    obtain ⟨w, state, active', retained⟩ := (h.described _ install).active
    have same : v = w := Option.some.inj (active.symm.trans active')
    exact ⟨state, same ▸ retained⟩
  | previous install previous => exact (h.described _ install).previous v previous

/-- Every entry of the versions directory is a private directory with a canonical
name. It is empty, or the version verifies. -/
theorem Inv.verified (h : I.Inv s) {name : String} {entry : VersionEntry}
    (found : s.versionEntry name = some entry) : ∃ (v : V) (dir : VersionDir),
      name = SemVer.toText v ∧ entry = .directory dir ∧ dir.isPrivate = true ∧
        (dir.members = ∅ ∨ ∃ state, I.Verifies s v state) := by
  obtain ⟨v, dir, named, same, isPrivate, ⟨state, c, complete, version⟩ | ⟨empty, _⟩⟩ :=
    h.entries name entry found
  · have retained : I.Retained s v state :=
      ⟨dir, c, named ▸ same ▸ found, isPrivate, complete, version⟩
    exact ⟨v, dir, named, same, isPrivate, .inr ⟨state, retained.verifies⟩⟩
  · exact ⟨v, dir, named, same, isPrivate, .inl empty⟩

/-- In every interleaving of managers, cut off anywhere: an entry of the versions
directory stays as it is, also when its directory is still empty; a version for which
one verification succeeds verifies at every later moment with the same record, without
a write; and all entries are empty directories or versions that verify. -/
theorem version_directories_kept {w w' : Managers V U} (reached : I.Reached w)
    (later : World.Reachable I.starts w w') :
    (∀ name entry, w.state.versionEntry name = some entry →
      w'.state.versionEntry name = some entry) ∧
    (∀ (v : V) id state, ((I.verifyFinalVersion v id).exec w.state).1 = .ok state →
      I.Verifies w'.state v state) ∧
    ∀ name entry, w'.state.versionEntry name = some entry → ∃ (v : V) (dir : VersionDir),
      name = SemVer.toText v ∧ entry = .directory dir ∧ dir.isPrivate = true ∧
        (dir.members = ∅ ∨ ∃ state, I.Verifies w'.state v state) := by
  obtain ⟨reached', bound⟩ := reached.later later
  refine ⟨bound.entries, ?_, fun name entry found => reached'.sound.inv.toInv.verified found⟩
  intro v id state verified
  exact ((retained_of_verified verified).later bound).verifies

open Sample in
theorem version_directories_kept_updated : ∃ (v : Edition) (dir : VersionDir),
    "2.0.0" = SemVer.toText v ∧ versionDirOf unixTarget secondRelease = .directory dir ∧
      dir.isPrivate = true ∧ (dir.members = ∅ ∨ ∃ state, unixHost.Verifies unixDisk v state) :=
  (version_directories_kept unixDisk_quiet .refl).2.2 _ _ (by decide +kernel)

/-- What a reachable disk names can be trusted. The version the selector names, both
versions of the journal and both versions of `install.json` verify without a write,
under the one installation id that `install.json` carries, and `install.json` is valid
and describes the launcher that is installed. -/
theorem named_versions_verify {w : Managers V U} (reached : I.Reached w) :
    (∀ v, I.Names w.state v → ∃ state, I.Verifies w.state v state ∧
      ∀ i, w.state.install = .value i → state.installationId = i.installationId) ∧
    ∀ i, w.state.install = .value i →
      validateInstallState I.platform i = .ok () ∧ I.verifyInstalledLauncher i w.state = .ok () := by
  have inv : I.Inv w.state := reached.sound.inv.toInv
  constructor
  · intro v named
    obtain ⟨state, retained⟩ := inv.names named
    exact ⟨state, retained.verifies, fun i install => (inv.described i install).owner v state retained⟩
  · intro i install
    exact ⟨(inv.described i install).valid, (inv.described i install).launcher⟩

open Sample in
theorem named_versions_verify_updated : ∃ state, unixHost.Verifies unixDisk secondRelease state ∧
    ∀ i, unixDisk.install = .value i → state.installationId = i.installationId :=
  (named_versions_verify unixDisk_quiet).1 secondRelease (.active rfl rfl)

end Installation

end Relswap
