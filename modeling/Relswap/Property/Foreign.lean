import Relswap.Sample.World

/-!
# Foreign commands are never touched

An object at the command path that the installation does not account for stays
there as it is, and no activation succeeds beside it. Nor does any operation ever
change a launcher on Windows; it can only delete one that a crashed first install
has left.
-/

namespace Relswap

open Durable Durable.Program Disk

namespace Installation

variable {V U : Type} [SemVer V] [Crates V] [UrlCrate U] (I : Installation)

/-- The command path holds an object of somebody else. On Unix that is anything
but the selector of some version, on Windows a file of which neither a marker,
nor a retained version, nor `install.json` has the digest. -/
def Foreign (s : Disk V) : Prop :=
  match I.platform with
  | .unix => s.command ≠ .absent ∧ ∀ v : V, s.command ≠ .symlink (I.payloadPath v)
  | .windows => ∃ bytes, s.command = .file bytes ∧ ¬ I.OwnsLauncher s bytes

/-- The launcher stays, unless it is the orphan of a crashed first install. -/
def LauncherKept (s t : Disk V) : Prop :=
  I.platform = .windows → ∀ bytes, s.command = .file bytes →
    t.command = s.command ∨ (t.command = .absent ∧ I.OrphanLauncher s bytes)

/-- The operations that activate a version. -/
def activates : Operation V U → Bool
  | .installVersion .. | .update _ | .rollback _ | .rollbackTo .. => true
  | .recoverIfManaged | .checkLatest _ => false

section Foreign

variable {I} {s t s₀ : Disk V} {kind : Kind V}

theorem Foreign.not_selects (foreign : I.Foreign s) (unix : I.platform = .unix) (p : Option V) :
    ¬ I.Selects s p := by
  unfold Foreign at foreign
  simp only [Selects]
  rw [unix] at foreign ⊢
  cases p with
  | none => exact foreign.1
  | some v => exact foreign.2 v

theorem Foreign.not_owned (foreign : I.Foreign s) (windows : I.platform = .windows) :
    ∃ bytes, s.command = .file bytes ∧ ¬ I.OwnsLauncher s bytes := by
  unfold Foreign at foreign
  rwa [windows] at foreign

/-- A command stays foreign while no new account of the launcher appears. -/
theorem Foreign.of_fewer (foreign : I.Foreign s) (command : t.command = s.command)
    (fewer : I.platform = .windows → ∀ bytes, s.command = .file bytes → I.OwnsLauncher t bytes →
      I.OwnsLauncher s bytes) : I.Foreign t := by
  rw [Foreign] at *
  cases hI : I.platform <;> simp only [hI] at foreign ⊢
  · rwa [command]
  · obtain ⟨bytes, held, unowned⟩ := foreign
    exact ⟨bytes, command.trans held, fun owned => unowned (fewer hI bytes held owned)⟩

/-- Accounts that change in the staging area only. -/
theorem OwnsLauncher.staging {bytes : Bytes} (install : t.install = s.install)
    (versions : ∀ name, t.versionEntry name = s.versionEntry name)
    (marked : MarkedBy t (Crates.sha256 V bytes) → MarkedBy s (Crates.sha256 V bytes))
    (owns : I.OwnsLauncher t bytes) : I.OwnsLauncher s bytes := by
  rcases owns with marker | ⟨v, state, launcher, retained, carried⟩ | ⟨i, launcher, recorded⟩
  · exact .inl (marked marker)
  · exact .inr (.inl ⟨v, state, launcher, retained.of_entry I (versions _).symm, carried⟩)
  · rw [install] at recorded
    exact .inr (.inr ⟨i, launcher, recorded⟩)

/-- While the command is a file, no change of the staging area marks a launcher
that was not marked before. -/
theorem StageStep.marked (step : I.StageStep s t) {bytes : Bytes} (command : s.command = .file bytes)
    {digest : String} (marked : MarkedBy t digest) : MarkedBy s digest := by
  obtain ⟨id, transaction, marker, found, lookup, decoded⟩ := marked
  cases step with
  | first new absent =>
    unfold Disk.transaction at found
    by_cases same : id = new
    · subst same
      simp only [Folder.entries_directory, AList.singleton, AList.lookup] at found
      simp at found
      subst found
      simp at lookup
    · have other : AList.lookup id (AList.singleton new
          (StagingEntry.transaction ⟨true, ∅, none⟩) : AList fun _ : String => StagingEntry) =
          none := by
        rw [AList.lookup_eq_none, AList.mem_keys, AList.keys_singleton]
        simpa using same
      rw [Folder.entries_directory, other] at found
      cases found
  | put id' new origin =>
    by_cases same : id = id'
    · subst same
      have here := eq_of_transaction_put found
      subst here
      rcases origin with ⟨unmarked, _⟩ | ⟨old, present, kept⟩ | ⟨noFile, _⟩
      · rw [unmarked] at lookup
        cases lookup
      · exact ⟨id, old, marker, present, kept ▸ lookup, decoded⟩
      · exact absurd command (noFile bytes)
    · unfold Disk.transaction at found
      rw [put_other same] at found
      exact ⟨id, transaction, marker, found, lookup, decoded⟩
  | erase id' removable =>
    refine ⟨id, transaction, marker, ?_, lookup, decoded⟩
    unfold Disk.transaction at found ⊢
    split at found
    · rename_i x hx
      rw [lookup_erase_folder hx]
      exact found
    · cases found

theorem Foreign.stage (foreign : I.Foreign s) (step : I.StageStep s t) : I.Foreign t := by
  have frame := StageStep.frame I step
  refine foreign.of_fewer frame.command fun _ bytes command owns => ?_
  exact owns.staging frame.install frame.versions (step.marked command)

theorem Foreign.scaffold (foreign : I.Foreign s) (step : Scaffold s t) : I.Foreign t := by
  refine foreign.of_fewer step.command fun _ bytes command owns => ?_
  apply owns.staging step.install step.versionEntry
  rintro ⟨id, transaction, marker, found, rest⟩
  exact ⟨id, transaction, marker, (step.transaction id).symm.trans found, rest⟩

theorem Foreign.emptyVersion (foreign : I.Foreign s) {v : V} (added : AddsEmpty v s t) :
    I.Foreign t := by
  refine foreign.of_fewer (AddsEmpty.core added).2.2.2 fun _ bytes command owns => ?_
  rcases owns with marker | ⟨w, state, launcher, retained, carried⟩ | ⟨i, launcher, install, rest⟩
  · rw [added.shape] at marker
    exact .inl marker
  · exact .inr (.inl ⟨w, state, launcher, (AddsEmpty.retained_iff added).mp retained, carried⟩)
  · rw [(AddsEmpty.core added).1] at install
    exact .inr (.inr ⟨i, launcher, install, rest⟩)

/-- No effect touches a foreign command, which stays foreign. -/
theorem Effect.foreign (step : I.Effect kind s₀ s t) (foreign : I.Foreign s) :
    t.command = s.command ∧ I.Foreign t := by
  cases step with
  | scaffold h => exact ⟨h.command, foreign.scaffold h⟩
  | emptyVersion v _ added => exact ⟨(AddsEmpty.core added).2.2.2, foreign.emptyVersion added⟩
  | stage h => exact ⟨(StageStep.frame I h).command, foreign.stage h⟩
  | createLauncher bytes fresh =>
    obtain ⟨bytes', command, _⟩ := foreign.not_owned fresh.windows
    rw [fresh.command] at command
    cases command
  | removeLauncher bytes orphan =>
    obtain ⟨bytes', command, unowned⟩ := foreign.not_owned orphan.windows
    rw [orphan.command] at command
    cases command
    exact absurd (.inl orphan.marked) unowned
  | publish v dir state id transaction present publishes =>
    refine ⟨rfl, foreign.of_fewer rfl fun windows bytes command _ => ?_⟩
    exact publishes.owned windows bytes command
  | journal p => exact ⟨rfl, foreign.of_fewer rfl fun _ _ _ owns => owns⟩
  | «switch» p a =>
    cases hI : I.platform with
    | unix => exact absurd (I.selects_of_read a.readable) (foreign.not_selects hI _)
    | windows =>
      have command := I.command_select hI p.toVersion s
      refine ⟨command, foreign.of_fewer command fun _ bytes _ owns => ?_⟩
      unfold select at owns
      rw [hI] at owns
      exact owns
  | record inst records =>
    refine ⟨rfl, foreign.of_fewer rfl fun windows bytes command _ => ?_⟩
    exact records.owned windows bytes command
  | dropJournal => exact ⟨rfl, foreign.of_fewer rfl fun _ _ _ owns => owns⟩

/-- No effect changes the bytes of a launcher. -/
theorem Effect.launcherKept (step : I.Effect kind s₀ s t) : I.LauncherKept s t := by
  intro windows bytes command
  cases step with
  | scaffold h => exact .inl h.command
  | emptyVersion v _ added => exact .inl (AddsEmpty.core added).2.2.2
  | stage h => exact .inl (StageStep.frame I h).command
  | createLauncher bytes' fresh =>
    rw [fresh.command] at command
    cases command
  | removeLauncher bytes' orphan =>
    have same := orphan.command
    rw [command] at same
    cases same
    exact .inr ⟨rfl, orphan⟩
  | publish => exact .inl rfl
  | journal => exact .inl rfl
  | «switch» p => exact .inl (I.command_select windows p.toVersion s)
  | record => exact .inl rfl
  | dropJournal => exact .inl rfl

theorem Changes.foreign {op : Operation V U} (h : I.Changes op s t) (foreign : I.Foreign s) :
    t.command = s.command ∧ I.Foreign t := by
  obtain ⟨_, _, _, step⟩ := h
  exact step.foreign foreign

/-! ## Nothing is activated beside a foreign command -/

theorem Foreign.not_recorded (foreign : I.Foreign s) {i : InstallState V}
    {launcher : LauncherOwnership} (windows : I.platform = .windows) (install : s.install = .value i)
    (named : i.launcher = some launcher)
    (verified : I.verifyInstalledLauncherRecord (V := V) launcher s = .ok ()) : False := by
  obtain ⟨bytes, command, unowned⟩ := foreign.not_owned windows
  obtain ⟨bytes', command', _, digest⟩ := I.verifyInstalledLauncherRecord_eq_ok verified
  rw [command] at command'
  cases command'
  exact unowned (.inr (.inr ⟨i, launcher, install, named, digest.symm⟩))

/-- Nothing is selected and recorded beside a foreign command. -/
theorem Foreign.not_settled (foreign : I.Foreign s) {v : V} {i : InstallState V}
    (selects : I.Selects s (some v)) (install : s.install = .value i)
    (fits : I.LauncherRecorded s i.launcher) : False := by
  cases hI : I.platform with
  | unix => exact foreign.not_selects hI _ selects
  | windows =>
    unfold LauncherRecorded at fits
    rw [hI] at fits
    obtain ⟨launcher, named, verified⟩ := fits
    exact foreign.not_recorded hI install named verified

theorem Foreign.not_verified (foreign : I.Foreign s) {v : V} {i : InstallState V}
    (selects : I.Selects s (some v)) (install : s.install = .value i)
    (verified : I.verifyInstalledLauncher i s = .ok ()) : False := by
  cases hI : I.platform with
  | unix => exact foreign.not_selects hI _ selects
  | windows =>
    obtain ⟨launcher, named, fits⟩ := I.verifyInstalledLauncher_windows hI verified
    exact foreign.not_recorded hI install named fits

theorem Foreign.not_downloaded (foreign : I.Foreign t) {v : V} {result : ActivationResult V}
    (h : DownloadOutcome I v s result t) : False := by
  rcases h with ⟨_, rfl, confirmed⟩ | ⟨_, fromVersion, id, done⟩
  · obtain ⟨i, owned, install⟩ := confirmed.owned
    rcases owned with ⟨i', state, same, _, _, _, verified⟩ | ⟨_, none_⟩
    · cases same
      exact foreign.not_verified (I.selects_of_read confirmed.read) install verified
    · cases none_
  · obtain ⟨launcher, install, fits⟩ := done.install
    exact foreign.not_settled done.selected install fits

theorem Foreign.not_rolledBack (foreign : I.Foreign t) {target active : V} {id : String}
    (done : I.RolledBack s t target active id) : False := by
  obtain ⟨launcher, install, fits⟩ := done.install
  exact foreign.not_settled done.selected install fits

theorem Foreign.not_managed (foreign : I.Foreign s) {v : V} (h : I.ManagedCurrent s v) : False := by
  obtain ⟨i, state, install, _, _, _, _, verified⟩ := h.recorded
  exact foreign.not_verified (I.selects_of_read h.read) install verified

/-- An activation among foreign commands does not return successfully. -/
theorem guards_foreign {op : Operation V U} (activating : activates op = true)
    (foreign : I.Foreign s) :
    WP true (fun _ _ => True) (fun r _ => r ≠ .ok ()) (I.perform op) s := by
  have refused : ∀ {α : Type} {p : Action V α} {Q : α → Disk V → Prop},
      Guards true (I.Changes op) Q p s → (∀ a t, I.Foreign t → ¬ Q a t) →
      WP true (fun _ _ => True) (fun r _ => r ≠ .ok ()) (p >>= fun _ => Pure.pure ()) s := by
    intro α p Q guarded impossible
    have kept := WP.with_invariant guarded foreign fun a b fa step => (step.foreign fa).2
    refine wp_bind_of (kept.mono (fun _ _ _ => trivial) fun _ _ h => h) ?_ fun _ _ _ => nofun
    exact fun a t ⟨q, ft⟩ => absurd q (impossible a t ft)
  cases op with
  | installVersion inputs v =>
    exact refused guards_installVersion fun _ t ft ⟨_, _, done⟩ => ft.not_downloaded done
  | update inputs =>
    refine refused guards_update fun _ t ft done => ?_
    rcases done with ⟨_, _, managed⟩ | ⟨_, _, _, done⟩
    · exact ft.not_managed managed
    · exact ft.not_downloaded done
  | rollback inputs =>
    exact refused guards_rollback fun _ t ft ⟨_, _, _, _, _, _, done⟩ => ft.not_rolledBack done
  | rollbackTo inputs target =>
    exact refused guards_rollbackTo fun _ t ft ⟨_, _, _, _, _, done⟩ => ft.not_rolledBack done
  | recoverIfManaged => cases activating
  | checkLatest => cases activating

end Foreign

/-- Foreign commands are never touched. Wherever an operation is cut off, a
foreign command is still there as it was, and whatever boundaries strike, an
activation beside it returns an error. On Windows, on any disk, no step changes a
launcher; a step can only delete one while nothing is selected or recorded and a
staging marker names it. -/
theorem foreign_command_untouched (op : Operation V U) (s : Disk V) :
    (I.Foreign s →
      (∀ t, (I.perform op).Leaves s t → t.command = s.command) ∧
      (activates op = true → ∀ inject, ((I.perform op).run inject s).1 ≠ .ok ())) ∧
    EveryStep I.LauncherKept (I.perform op) s := by
  refine ⟨fun foreign => ⟨fun t left => ?_, fun activating inject => ?_⟩, ?_⟩
  · have kept : ∀ a b, (a.command = s.command ∧ I.Foreign a) → I.Changes op a b →
        b.command = s.command ∧ I.Foreign b := fun a b ⟨same, fa⟩ step =>
      ⟨(step.foreign fa).1.trans same, (step.foreign fa).2⟩
    exact (WP.invariant (guards_perform op) kept ⟨rfl, foreign⟩ left).1
  · exact (guards_foreign activating foreign).run inject
  · refine WP.everyStep (guards_perform op) (fun a _ bytes command => .inl rfl) ?_
    exact fun _ _ ⟨_, _, _, step⟩ => step.launcherKept

section Sample

open Sample

/-- A program of somebody else at the command path. -/
def toolDisk : Disk Edition :=
  { freshDisk with commandParent := .directory true, command := .file (encodeUtf8 "tool") }

theorem toolDisk_foreign : unixHost.Foreign toolDisk ∧ windowsHost.Foreign toolDisk := by
  refine ⟨⟨nofun, fun _ => nofun⟩, _, rfl, ?_⟩
  rintro (⟨id, transaction, bytes, present, _⟩ | ⟨v, state, launcher, retained, _⟩ |
    ⟨i, launcher, recorded, _⟩)
  · cases present
  · obtain ⟨dir, _, entry, _⟩ := retained
    cases entry
  · cases recorded

/-- An installation beside the program fails on either host, and leaves it alone. -/
theorem foreign_command_untouched_tool :
    (∀ t, (unixHost.perform (install unixTarget firstRelease)).Leaves toolDisk t →
      t.command = .file (encodeUtf8 "tool")) ∧
    (∀ inject,
      ((unixHost.perform (install unixTarget firstRelease)).run inject toolDisk).1 ≠ .ok ()) ∧
    (∀ t, (windowsHost.perform (install windowsTarget firstRelease)).Leaves toolDisk t →
      t.command = .file (encodeUtf8 "tool")) ∧
    ∀ inject,
      ((windowsHost.perform (install windowsTarget firstRelease)).run inject toolDisk).1 ≠ .ok () := by
  obtain ⟨unix, windows⟩ := toolDisk_foreign
  have beside := (foreign_command_untouched (I := unixHost) (install unixTarget firstRelease)
    toolDisk).1 unix
  have besideLauncher := (foreign_command_untouched (I := windowsHost)
    (install windowsTarget firstRelease) toolDisk).1 windows
  exact ⟨beside.1, beside.2 rfl, besideLauncher.1, besideLauncher.2 rfl⟩

end Sample

end Installation

end Relswap
