import Relswap.Proof.Version

/-!
# What one write can do

Every write of every operation is one of ten effects. Each effect carries what
the code has checked when it performs the write, under the same lock and in the
very state it acts on. All safety results are derived from this list alone.

Effects are indexed by the kind of section that performs them and by the state
`s₀` in which the section began.
-/

namespace Relswap

open Durable Durable.Program Disk

/-- The kinds of locked sections. A download knows the clock it was checked by
and the installation id its randomness would give. -/
inductive Kind (V : Type) where
  | recovery
  | download (version : V) (now : Int) (fresh : Option String)
  | existing (target : V)

/-- The section activates a download of the version. -/
def Kind.Downloads {V : Type} (kind : Kind V) (v : V) : Prop :=
  ∃ now fresh, kind = .download v now fresh

/-- The installation id drawn when no version determines one. -/
def Kind.fresh {V : Type} : Kind V → Option String
  | .download _ _ fresh => fresh
  | _ => none

section Frames

variable {V : Type}

/-- Directories and the lock file are created; nothing else differs. -/
structure Scaffold (s t : Disk V) : Prop where
  root : t.root = s.root ∨ (s.root = .absent ∧ t.root = .directory true)
  lock : t.lock = s.lock ∨ (s.lock = .absent ∧ t.lock = .regular)
  versions : t.versions = s.versions ∨ (s.versions = .absent ∧ t.versions = .directory true ∅)
  staging : t.staging = s.staging ∨ (s.staging = .absent ∧ t.staging = .directory true ∅)
  commandParent : t.commandParent = s.commandParent ∨
    (s.commandParent = .absent ∧ t.commandParent = .directory true)
  install : t.install = s.install
  pending : t.pending = s.pending
  active : t.active = s.active
  command : t.command = s.command

namespace Scaffold

variable {s t u : Disk V}

theorem refl (s : Disk V) : Scaffold s s :=
  ⟨.inl rfl, .inl rfl, .inl rfl, .inl rfl, .inl rfl, rfl, rfl, rfl, rfl⟩

private theorem chain {α : Type} {a b c absent made : α} (distinct : made ≠ absent)
    (first : b = a ∨ (a = absent ∧ b = made)) (next : c = b ∨ (b = absent ∧ c = made)) :
    c = a ∨ (a = absent ∧ c = made) := by
  rcases first with rfl | ⟨ha, rfl⟩
  · exact next
  · rcases next with rfl | ⟨hb, _⟩
    · exact .inr ⟨ha, rfl⟩
    · exact absurd hb distinct

theorem trans (h : Scaffold s t) (h' : Scaffold t u) : Scaffold s u :=
  ⟨chain (by simp) h.root h'.root, chain (by simp) h.lock h'.lock,
    chain (by simp) h.versions h'.versions, chain (by simp) h.staging h'.staging,
    chain (by simp) h.commandParent h'.commandParent, h'.install.trans h.install,
    h'.pending.trans h.pending, h'.active.trans h.active, h'.command.trans h.command⟩

theorem versionEntries (h : Scaffold s t) : t.versions.entries = s.versions.entries := by
  rcases h.versions with same | ⟨absent, made⟩
  · rw [same]
  · rw [absent, made]
    rfl

theorem versionEntry (h : Scaffold s t) (name : String) :
    t.versionEntry name = s.versionEntry name := by
  rw [Disk.versionEntry, Disk.versionEntry, h.versionEntries]

theorem stagingEntries (h : Scaffold s t) : t.staging.entries = s.staging.entries := by
  rcases h.staging with same | ⟨absent, made⟩
  · rw [same]
  · rw [absent, made]
    rfl

theorem transaction (h : Scaffold s t) (id : String) : t.transaction id = s.transaction id := by
  rw [Disk.transaction, Disk.transaction, h.stagingEntries]

end Scaffold

end Frames

namespace Installation

variable {V : Type} [SemVer V] [Crates V] (I : Installation)

/-- Documents, selector and retained versions are the same. -/
structure Core (s t : Disk V) : Prop where
  install : t.install = s.install
  pending : t.pending = s.pending
  selector : I.SameSelector s t
  versions : ∀ name, t.versionEntry name = s.versionEntry name

/-- `Core`, and the command is the same as well. -/
structure Frame (s t : Disk V) : Prop extends I.Core s t where
  command : t.command = s.command

/-- The selector or a document names the version. -/
def Mentions (s : Disk V) (v : V) : Prop :=
  I.Selects s (some v) ∨ (∃ p, s.pending = .value p ∧ p.toVersion = v) ∨
    ∃ i, s.install = .value i ∧ i.previous = some v

/-- The version is the target of a rollback of a recorded installation, and
older than the selected version. -/
def Targets (kind : Kind V) (s : Disk V) (v : V) : Prop :=
  kind = .existing v ∧ (∃ i, s.install = .value i) ∧ ∃ f, I.Selects s (some f) ∧ v < f

/-- No launcher depends on its marker: something is selected or recorded, there
is no launcher, or a retained version carries it. -/
def MarkerFree (s : Disk V) : Prop :=
  I.platform = .windows → s.active = .absent → s.install = .absent →
    ∀ bytes, s.command = .file bytes →
      I.retainedLauncherMatches (Crates.sha256 V bytes) s = .ok true

/-- The marker of a transaction may go together with it. -/
def MarkerRemovable (s : Disk V) (id : String) : Prop :=
  ∀ transaction, s.transaction id = some transaction →
    transaction.files.lookup launcherCreatedMarker = none ∨ I.MarkerFree s

/-- Where the launcher marker of a rewritten transaction comes from: there is
none, it was there before, or no launcher exists yet. -/
def MarkerFrom (s : Disk V) (id : String) (transaction : Transaction) : Prop :=
  (transaction.files.lookup launcherCreatedMarker = none ∧ I.MarkerRemovable s id) ∨
    (∃ old, s.transaction id = some old ∧
      transaction.files.lookup launcherCreatedMarker = old.files.lookup launcherCreatedMarker) ∨
    ((∀ bytes, s.command ≠ .file bytes) ∧ ∃ digest, lowerSha256 digest = true ∧
      transaction.files.lookup launcherCreatedMarker = some (.file (encodeUtf8 digest)))

/-- One change of the staging directory. -/
inductive StageStep (s : Disk V) : Disk V → Prop where
  | first (id : String) (absent : s.staging = .absent) :
    StageStep s { s with
      staging := .directory true (AList.singleton id (.transaction ⟨true, ∅, none⟩)) }
  | put (id : String) (transaction : Transaction) (marker : I.MarkerFrom s id transaction) :
    StageStep s (s.putTransaction id transaction)
  | erase (id : String) (marker : I.MarkerRemovable s id) :
    StageStep s { s with staging := s.staging.erase id }

/-- Some transaction carries a marker with this launcher digest. -/
def MarkedBy (s : Disk V) (digest : String) : Prop :=
  ∃ id transaction bytes, s.transaction id = some transaction ∧
    transaction.files.lookup launcherCreatedMarker = some (.file bytes) ∧
    decodeUtf8 bytes = some digest

/-- The launcher is accounted for: by the marker of a transaction, by a retained
version, or by `install.json`. -/
def OwnsLauncher (s : Disk V) (bytes : Bytes) : Prop :=
  MarkedBy s (Crates.sha256 V bytes) ∨
    (∃ v state launcher, I.Retained s v state ∧ state.launcher = some launcher ∧
      launcher.sha256 = Crates.sha256 V bytes) ∨
    ∃ i launcher, s.install = .value i ∧ i.launcher = some launcher ∧
      launcher.sha256 = Crates.sha256 V bytes

def LauncherOwned (s : Disk V) : Prop :=
  I.platform = .windows → ∀ bytes, s.command = .file bytes → I.OwnsLauncher s bytes

/-- A launcher about to be removed: nothing is selected or recorded, a marker
names its digest, and no retained version carries it. -/
structure OrphanLauncher (s : Disk V) (bytes : Bytes) : Prop where
  windows : I.platform = .windows
  command : s.command = .file bytes
  active : s.active = .absent
  install : s.install = .absent
  marked : MarkedBy s (Crates.sha256 V bytes)
  unretained : I.retainedLauncherMatches (Crates.sha256 V bytes) s = .ok false

/-- A launcher about to be created, for the first time and with the only marker. -/
structure FreshLauncher (s : Disk V) (bytes : Bytes) : Prop where
  windows : I.platform = .windows
  command : s.command = .absent
  install : s.install = .absent
  marked : MarkedBy s (Crates.sha256 V bytes)
  only : ∀ id transaction marker, s.transaction id = some transaction →
    transaction.files.lookup launcherCreatedMarker = some marker →
    marker = .file (encodeUtf8 (Crates.sha256 V bytes))

/-- The id a new version carries: that of `install.json`, or else that of every
retained version, or else a fresh one. -/
structure ChosenId (kind : Kind V) (s : Disk V) (id : String) : Prop where
  recorded : ∀ i, s.install = .value i → i.installationId = id
  retained : s.install = .absent → ∀ v state, I.Retained s v state → state.installationId = id
  fresh : s.install = .absent → (∀ v state, ¬ I.Retained s v state) → kind.fresh = some id

/-- A staged directory about to be published under its final name. -/
structure Publishes (kind : Kind V) (s : Disk V) (v : V) (dir : VersionDir)
    (state : VersionState V) : Prop where
  downloads : kind.Downloads v
  free : s.versionEntry (SemVer.toText v) = none
  isPrivate : dir.isPrivate = true
  complete : ∃ c, I.Complete dir state c
  version : state.version = v
  chosen : I.ChosenId kind s state.installationId
  owned : I.LauncherOwned s

/-- The disk after publishing a staged directory. -/
def published (v : V) (dir : VersionDir) (id : String) (transaction : Transaction)
    (s : Disk V) : Disk V :=
  { s with
    versions := s.versions.insert (SemVer.toText v) (.directory dir)
    staging := s.staging.insert id (.transaction transaction.dropStaged) }

/-- `install.json` owns the selected version. -/
def OwnsActive (s : Disk V) (f : V) : Prop :=
  ∃ i, s.install = .value i ∧ i.active = some f

/-- A selector without any command, which only damage can produce. -/
def Orphaned (s : Disk V) : Prop :=
  I.platform = .windows ∧ I.lexistsCommand s = .ok false ∧ ∃ f, I.Selects s (some f)

/-- The order and the signed manifest that an activation has checked. -/
def Ordered (kind : Kind V) (s : Disk V) (p : PendingActivation V) (c : Contents V) : Prop :=
  match kind with
  | .recovery => False
  | .download v now _ =>
    p.toVersion = v ∧ c.manifest.ensureNotExpired (Crates.readTime V) now = .ok () ∧
      ∀ f i, p.fromVersion = some f → s.install = .value i → f < v
  | .existing v => p.toVersion = v ∧ ∃ f, p.fromVersion = some f ∧ v < f

/-- What has been checked before the intent `p` is journalled, and still holds
when the selector is switched. -/
structure Activates (kind : Kind V) (s₀ s : Disk V) (p : PendingActivation V) : Prop where
  valid : (validatePending p : Except (InstallError V) Unit) = .ok ()
  readable : I.readPointerUnlocked s = .ok p.fromVersion
  selector : I.SameSelector s₀ s
  install : s.install = s₀.install
  readable_install : ∃ i, s.install = Document.ofOption i
  target : ∃ dir c state, s.versionEntry (SemVer.toText p.toVersion) = some (.directory dir) ∧
    dir.isPrivate = true ∧ I.Complete dir state c ∧ state.version = p.toVersion ∧
    Ordered kind s p c ∧ ∀ i, s.install = .value i → i.installationId = state.installationId
  owner : ∀ f, p.fromVersion = some f → OwnsActive s f ∨ I.Orphaned s₀
  launcher : I.platform = .windows → ∃ bytes, s.command = .file bytes

/-- The Windows launcher record of a new `install.json` fits the command. -/
def LauncherRecorded (s : Disk V) (launcher : Option LauncherOwnership) : Prop :=
  match I.platform with
  | .unix => launcher = none
  | .windows => ∃ l, launcher = some l ∧ I.verifyInstalledLauncherRecord (V := V) l s = .ok ()

/-- Why `install.json` is rewritten: to finish a switch, or to repair it. -/
def RecordReason (s : Disk V) (v : V) (inst : InstallState V) (state : VersionState V) : Prop :=
  (∃ p, s.pending = .value p ∧ p.toVersion = v ∧ inst.previous = p.fromVersion) ∨
    (s.pending = .absent ∧ ∃ old, s.install = Document.ofOption old ∧
      I.needsRepair v old state s = true ∧
      ∀ w, inst.previous = some w → w ≠ v ∧
        ∃ st, I.Retained s w st ∧ st.installationId = inst.installationId)

/-- A new `install.json` describes the selected version. -/
structure Records (s : Disk V) (inst : InstallState V) : Prop where
  valid : validateInstallState I.platform inst = .ok ()
  selected : ∃ v state, inst.active = some v ∧ I.Selects s (some v) ∧ I.Retained s v state ∧
    state.installationId = inst.installationId ∧ I.RecordReason s v inst state
  readable_install : ∃ i, s.install = Document.ofOption i
  launcher : I.LauncherRecorded s inst.launcher
  owned : I.LauncherOwned s

/-- The journal is dropped when it is fulfilled, or when nothing happened yet. -/
def Drops (s : Disk V) : Prop :=
  ∃ p, s.pending = .value p ∧
    ((I.Selects s (some p.toVersion) ∧ ∃ i, s.install = .value i ∧
        i.active = some p.toVersion ∧ i.previous = p.fromVersion) ∨
      (I.Selects s p.fromVersion ∧ p.fromVersion ≠ some p.toVersion))

/-- The effects of a section of the given kind that began in `s₀`. -/
inductive Effect (kind : Kind V) (s₀ : Disk V) : Disk V → Disk V → Prop where
  | scaffold {s t : Disk V} (h : Scaffold s t) : Effect kind s₀ s t
  | emptyVersion {s t : Disk V} (v : V)
      (named : I.Mentions s v ∨ I.Targets kind s v)
      (h : AddsEmpty v s t) : Effect kind s₀ s t
  | stage {s t : Disk V} (h : I.StageStep s t) : Effect kind s₀ s t
  | createLauncher {s : Disk V} (bytes : Bytes) (h : I.FreshLauncher s bytes) :
    Effect kind s₀ s { s with command := .file bytes }
  | removeLauncher {s : Disk V} (bytes : Bytes) (h : I.OrphanLauncher s bytes) :
    Effect kind s₀ s { s with command := .absent }
  | publish {s : Disk V} (v : V) (dir : VersionDir) (state : VersionState V) (id : String)
      (transaction : Transaction) (present : s.transaction id = some transaction)
      (h : I.Publishes kind s v dir state) :
    Effect kind s₀ s (published v dir id transaction s)
  | journal {s : Disk V} (p : PendingActivation V) (h : I.Activates kind s₀ s p)
      (same : s.pending = s₀.pending) : Effect kind s₀ s { s with pending := .value p }
  | switch {s : Disk V} (p : PendingActivation V) (h : I.Activates kind s₀ s p)
      (journalled : s.pending = .value p)
      (replaceable : I.selectorReplaceable p.toVersion s = .ok ()) :
      Effect kind s₀ s (I.select p.toVersion s)
  | record {s : Disk V} (inst : InstallState V) (h : I.Records s inst) :
    Effect kind s₀ s { s with install := .value inst }
  | dropJournal {s : Disk V} (h : I.Drops s) : Effect kind s₀ s { s with pending := .absent }

namespace Core

variable {I} {s t u : Disk V}

omit [SemVer V] [Crates V] in
theorem trans (h : I.Core s t) (h' : I.Core t u) : I.Core s u := by
  refine ⟨h'.install.trans h.install, h'.pending.trans h.pending, ?_,
    fun name => (h'.versions name).trans (h.versions name)⟩
  have first := h.selector
  have next := h'.selector
  rw [SameSelector] at *
  cases hI : I.platform <;> simp only [hI] at first next ⊢ <;> exact next.trans first

theorem retained (h : I.Core s t) {v : V} {state : VersionState V} (r : I.Retained s v state) :
    I.Retained t v state := r.of_entry I (h.versions _)

end Core

omit [SemVer V] [Crates V] in
theorem Scaffold.frame {s t : Disk V} (h : Scaffold s t) : I.Frame s t :=
  ⟨⟨h.install, h.pending,
    by unfold SameSelector; cases I.platform <;> first | exact h.command | exact h.active,
    h.versionEntry⟩, h.command⟩

theorem StageStep.frame {s t : Disk V} (h : I.StageStep s t) : I.Frame s t := by
  cases h <;>
    exact ⟨⟨rfl, rfl, by unfold SameSelector; cases I.platform <;> rfl, fun _ => rfl⟩, rfl⟩

theorem Effect.refl {kind : Kind V} {s₀ : Disk V} (s : Disk V) : I.Effect kind s₀ s s :=
  .scaffold (.refl s)

end Installation

end Relswap
