import Relswap.Proof.Recovery

/-!
# Ownership of the command

What the ownership checks establish: on Unix the command is the selector itself,
on Windows it is a file that `install.json` or a retained version accounts for.
The checks change nothing when they succeed.
-/

namespace Relswap

open Durable Durable.Program Disk

namespace Installation

variable {V : Type} [SemVer V] [Crates V] (I : Installation)

/-- A retained version carries the launcher at the command path. -/
structure RetainsLauncher (s : Disk V) (bytes : Bytes) (launcher : LauncherMetadata) : Prop where
  command : s.command = .file bytes
  version : ∃ v state, I.Retained s v state ∧ state.launcher = some launcher
  size : bytes.length = launcher.size
  digest : Crates.sha256 V bytes = launcher.sha256

theorem launcherMatches_eq_ok {s : Disk V} {launcher : LauncherMetadata}
    (h : I.launcherMatches launcher s = .ok true) :
    ∃ bytes, s.command = .file bytes ∧ bytes.length = launcher.size ∧
      Crates.sha256 V bytes = launcher.sha256 := by
  simp only [launcherMatches, bind_eq_ok] at h
  obtain ⟨present, _, h⟩ := h
  split at h
  · simp only [bind_eq_ok, pure_eq_ok, commandFile_eq_ok, Bool.and_eq_true, beq_iff_eq] at h
    obtain ⟨bytes, command, size, digest⟩ := h
    exact ⟨bytes, command, size, digest⟩
  · cases h

omit [Crates V] in
theorem lexistsCommand_selected {s : Disk V} {v : V} (unix : I.platform = .unix)
    (selects : I.Selects s (some v)) : I.lexistsCommand s = .ok true := by
  unfold Selects at selects
  rw [unix] at selects
  rw [lexistsCommand]
  rw [selects]

theorem RetainsLauncher.owned {I : Installation} {s : Disk V} {bytes : Bytes}
    {launcher : LauncherMetadata} (h : I.RetainsLauncher s bytes launcher) : I.LauncherOwned s := by
  intro _ bytes' command
  rw [h.command] at command
  cases command
  obtain ⟨v, state, retained, carried⟩ := h.version
  exact .inr (.inl ⟨v, state, launcher, retained, carried, h.digest.symm⟩)

/-- The launcher that `install.json` records and that has just been verified. -/
theorem launcherOwned_recorded {s : Disk V} {i : InstallState V} (windows : I.platform = .windows)
    (install : s.install = .value i) (verified : I.verifyInstalledLauncher i s = .ok ()) :
    I.LauncherOwned s := by
  intro _ bytes command
  obtain ⟨launcher, recorded, fits⟩ := I.verifyInstalledLauncher_windows windows verified
  obtain ⟨bytes', command', _, digest⟩ := I.verifyInstalledLauncherRecord_eq_ok fits
  rw [command] at command'
  cases command'
  exact .inr (.inr ⟨i, launcher, install, recorded, digest.symm⟩)

/-- What a successful ownership check of the command has established. -/
def CommandOwned (s : Disk V) (active : Option V) (install : Option (InstallState V)) : Prop :=
  match active with
  | some f =>
    (∃ i state, install = some i ∧ i.active = some f ∧ I.Retained s f state ∧
      i.installationId = state.installationId ∧ I.verifyInstalledLauncher i s = .ok ()) ∨
    (I.Orphaned s ∧ install = none)
  | none =>
    I.lexistsCommand s = .ok false ∨
      (I.platform = .windows ∧ install = none ∧ ∃ bytes launcher, I.RetainsLauncher s bytes launcher)

section Guards

variable {I} {solo : Bool} {kind : Kind V} {s₀ s : Disk V}

theorem lookup_of_mem {α : Type} {es : AList fun _ : String => α} {name : String} {entry : α}
    (h : ⟨name, entry⟩ ∈ es.entries) : es.lookup name = some entry := AList.mem_lookup_iff.mpr h

theorem guards_retainedLauncherAmong {list : List (Sigma fun _ : String => VersionEntry)}
    (present : ∀ entry ∈ list, s.versionEntry entry.1 = some entry.2) :
    Guards solo (I.Effect kind s₀)
      (fun found t => t = s ∧ ∀ owner, found = some owner →
        ∃ bytes launcher, owner = I.ownershipOf launcher ∧ I.RetainsLauncher s bytes launcher)
      (I.retainedLauncherAmong list) s := by
  induction list with
  | nil => exact Guards.pure ⟨rfl, nofun⟩
  | cons entry rest ih =>
    obtain ⟨name, entry⟩ := entry
    have later := ih fun e he => present e (List.mem_cons_of_mem _ he)
    cases entry with
    | foreign => exact later
    | directory dir =>
      rw [retainedLauncherAmong]
      refine Guards.bind_ofExcept fun v parsed => ?_
      have here := present _ List.mem_cons_self
      rw [parseCanonicalVersion_eq_ok.mp parsed] at here
      refine (guards_verifyPresent here).bind fun state t ⟨same, retained, _⟩ => ?_
      subst same
      split
      · exact later
      · rename_i launcher carried
        refine Guards.bind_reads fun found matched => ?_
        split
        · rename_i yes
          subst yes
          obtain ⟨bytes, command, size, digest⟩ := I.launcherMatches_eq_ok matched
          refine Guards.pure ⟨rfl, fun owner same => ⟨bytes, launcher, ?_, ?_⟩⟩
          · exact (Option.some.inj same).symm
          · exact ⟨command, ⟨v, state, retained, carried⟩, size, digest⟩
        · exact later

theorem guards_retainedLauncherOwnership :
    Guards solo (I.Effect kind s₀)
      (fun found t => t = s ∧ ∀ owner, found = some owner →
        ∃ bytes launcher, owner = I.ownershipOf launcher ∧ I.RetainsLauncher s bytes launcher)
      I.retainedLauncherOwnership s :=
  Guards.bind_get (guards_retainedLauncherAmong fun _ he => lookup_of_mem he)

theorem guards_proveRetainedLauncherOwnership :
    Guards solo (I.Effect kind s₀)
      (fun proven t => t = s ∧ (proven = true → ∃ bytes launcher,
        I.RetainsLauncher s bytes launcher))
      I.proveRetainedLauncherOwnership s := by
  rw [proveRetainedLauncherOwnership]
  refine guards_retainedLauncherOwnership.bind fun found t ⟨same, hfound⟩ => ?_
  refine Guards.pure ⟨same, fun proven => ?_⟩
  obtain ⟨owner, some_⟩ := Option.isSome_iff_exists.mp proven
  obtain ⟨bytes, launcher, _, retains⟩ := hfound owner some_
  exact ⟨bytes, launcher, retains⟩

theorem guards_provenWithoutInstall {install : Option (InstallState V)} :
    Guards solo (I.Effect kind s₀)
      (fun proven t => t = s ∧ (proven = true → I.platform = .windows ∧ install = none ∧
        ∃ bytes launcher, I.RetainsLauncher s bytes launcher))
      (I.provenWithoutInstall install) s := by
  rw [provenWithoutInstall]
  split
  · rename_i first
    refine guards_proveRetainedLauncherOwnership.mono_post fun proven t ⟨same, h⟩ => ?_
    exact ⟨same, fun yes => ⟨first.1, first.2, h yes⟩⟩
  · exact Guards.pure ⟨rfl, nofun⟩

theorem guards_ensureActiveOwned {active : V} {install : Option (InstallState V)}
    (selects : I.Selects s (some active)) :
    Guards solo (I.Effect kind s₀) (fun _ t => t = s ∧ I.CommandOwned s (some active) install)
      (I.ensureActiveOwned active install) s := by
  unfold ensureActiveOwned
  split
  · exact Guards.throw _
  · rename_i i
    refine Guards.bind_require fun matches_ => ?_
    refine (guards_verifyNamed (.inl selects)).bind fun state t ⟨same, retained, id⟩ => ?_
    subst same
    have ids : i.installationId = state.installationId := by
      rcases id with none_ | same
      · cases none_
      · exact Option.some.inj same
    have owned : I.verifyInstalledLauncher i t = .ok () → t = t ∧
        I.CommandOwned t (some active) (some i) := fun verified =>
      ⟨rfl, .inl ⟨i, state, rfl, matches_, retained, ids, verified⟩⟩
    split
    · rename_i unix
      apply Guards.bind_get
      split
      · refine Guards.require fun _ => owned ?_
        rw [verifyInstalledLauncher, unix]
      · exact Guards.throw _
    · exact Guards.reads fun _ verified => owned verified

theorem guards_ensureCommandOwned {active : Option V} {install : Option (InstallState V)}
    (selects : ∀ f, active = some f → I.Selects s (some f)) :
    Guards solo (I.Effect kind s₀) (fun _ t => t = s ∧ I.CommandOwned s active install)
      (I.ensureCommandOwned active install) s := by
  simp only [ensureCommandOwned]
  refine Guards.bind_reads fun present hp => ?_
  split
  · rename_i yes
    subst yes
    split
    · exact guards_ensureActiveOwned (selects _ rfl)
    · refine guards_provenWithoutInstall.bind fun proven t found => ?_
      obtain ⟨same, h⟩ := found
      subst same
      exact Guards.require fun yes => ⟨rfl, .inr (h yes)⟩
  · rename_i no
    rw [Bool.not_eq_true] at no
    subst no
    refine Guards.require fun allowed => ⟨rfl, ?_⟩
    cases active with
    | none => exact .inl hp
    | some f =>
      right
      have windows : I.platform = .windows := by
        cases hI : I.platform with
        | windows => rfl
        | unix =>
          have present := I.lexistsCommand_selected hI (selects f rfl)
          rw [hp] at present
          cases present
      refine ⟨⟨windows, hp, f, selects f rfl⟩, ?_⟩
      by_contra some_
      exact allowed ⟨windows, Option.some_ne_none f, some_⟩

/-- An unlocked caller that gets past the check has seen a selected, recorded
and retained version. -/
theorem guards_requireManagedCurrent :
    Guards solo (I.Effect kind s₀)
      (fun current t => t = s ∧ I.readPointerUnlocked s = .ok (some current) ∧
        ∃ i state, s.install = .value i ∧ validateInstallState I.platform i = .ok () ∧
          i.active = some current ∧ I.Retained s current state ∧
          i.installationId = state.installationId ∧ I.verifyInstalledLauncher i s = .ok ())
      I.requireManagedCurrent s := by
  rw [requireManagedCurrent]
  refine Guards.bind_reads fun pointer read => ?_
  refine Guards.bind_ofExcept fun current hc => ?_
  rw [orError_eq_ok] at hc
  subst hc
  refine Guards.bind_reads fun install hi => ?_
  refine Guards.bind_ofExcept fun i some_ => ?_
  rw [orError_eq_ok] at some_
  subst some_
  refine Guards.bind_ofExcept fun _ valid => ?_
  refine Guards.bind_require fun active => ?_
  have selects : I.Selects s (some current) := I.selects_of_read read
  refine (guards_verifyNamed (.inl selects)).bind fun state t ⟨same, _, _⟩ => ?_
  subst same
  refine (guards_ensureCommandOwned fun f same => ?_).bind fun _ t' ⟨same, owned⟩ => ?_
  · cases same
    exact selects
  · subst same
    rcases owned with ⟨i', state', same, _, retained, ids, verified⟩ | ⟨_, none_⟩
    · cases same
      exact Guards.pure ⟨rfl, read, i, state', Document.readJson_eq_ok.mp hi, valid, active,
        retained, ids, verified⟩
    · cases none_

end Guards

end Installation

end Relswap
