import Relswap.Property.Retention
import Relswap.Sample.World

/-!
# What operations report

A successful activation is reported truthfully, on any disk and whatever faults are
injected. An empty version directory, as a refused rollback leaves one, is never filled:
no activation of that version succeeds any more.
-/

namespace Relswap

open Durable Durable.Program Disk

namespace Installation

variable {V U : Type} [SemVer V] [Crates V] [UrlCrate U] (I : Installation)

/-- The reported version is selected and recorded, and verifies. After a change nothing
is pending, and the version is recorded beside the one that `s` selects; without one the
selector has not moved. -/
structure Reported (s t : Disk V) (result : ActivationResult V) : Prop where
  selected : I.Selects t (some result.version)
  active : activeOf t = some result.version
  verified : ∃ state, I.Verifies t result.version state
  settled : result.changed = true → t.pending = .absent ∧
    ∃ fromVersion id launcher, I.readPointerUnlocked s = .ok fromVersion ∧ t.install =
      .value (Installation.recorded result.version fromVersion id launcher)
  unmoved : result.changed = false → I.SameSelector s t

variable {I} {s s' t : Disk V} {v target active : V} {result : ActivationResult V} {id : String}

theorem DownloadOutcome.reported (begun : I.SameSelector s s')
    (h : DownloadOutcome I v s' result t) : result.version = v ∧ I.Reported s t result := by
  rcases h with ⟨rfl, rfl, confirmed⟩ | ⟨rfl, fromVersion, id, downloaded⟩
  · obtain ⟨i, install, active⟩ := confirmed.recorded
    obtain ⟨state, retained⟩ := confirmed.target
    refine ⟨rfl, I.selects_of_read confirmed.read, (activeOf_value install).trans active,
      ⟨state, retained.verifies⟩, fun changed => ?_, fun _ => begun⟩
    cases changed
  · obtain ⟨launcher, install, _⟩ := downloaded.install
    obtain ⟨state, retained, _⟩ := downloaded.target
    have before := (I.readPointerUnlocked_same begun).symm.trans downloaded.before
    exact ⟨rfl, downloaded.selected, activeOf_value install, ⟨state, retained.verifies⟩,
      fun _ => ⟨downloaded.pending, fromVersion, id, launcher, before, install⟩, nofun⟩

theorem ManagedCurrent.reported (begun : I.SameSelector s t) (h : I.ManagedCurrent t result.version)
    (unchanged : result.changed = false) : I.Reported s t result := by
  obtain ⟨i, state, install, _, active, retained, _⟩ := h.recorded
  refine ⟨I.selects_of_read h.read, (activeOf_value install).trans active,
    ⟨state, retained.verifies⟩, fun changed => ?_, fun _ => begun⟩
  rw [unchanged] at changed
  cases changed

theorem RolledBack.reported (begun : I.SameSelector s s') (h : I.RolledBack s' t target active id) :
    I.Reported s t ⟨target, true⟩ := by
  obtain ⟨launcher, install, _⟩ := h.install
  obtain ⟨state, retained, _⟩ := h.target
  have before := (I.readPointerUnlocked_same begun).symm.trans h.before
  exact ⟨h.selected, activeOf_value install, ⟨state, retained.verifies⟩,
    fun _ => ⟨h.pending, some active, id, launcher, before, install⟩, nofun⟩

/-- A rollback has left a newer version, and records it as the previous one. -/
theorem RolledBack.left (begun : I.SameSelector s s') (h : I.RolledBack s' t target active id) :
    ∃ active i, I.Selects s (some active) ∧ target < active ∧ t.install = .value i ∧
      i.previous = some active := by
  obtain ⟨launcher, install, _⟩ := h.install
  exact ⟨active, _, (I.selects_of_read h.before).of_same I begun, h.older, install, rfl⟩

omit [SemVer V] [Crates V] in
/-- What a successful run satisfies, from its guards. -/
theorem Guards.ran {α : Type} {solo : Bool} {G : Disk V → Disk V → Prop} {Q : α → Disk V → Prop}
    {p : Action V α} {a : α} {inject : Nat → Bool} (h : Guards solo G Q p s)
    (ran : p.run inject s = (.ok a, t)) : Q a t := by
  have ended := WP.run h inject
  rw [ran] at ended
  exact ended

/-- A successful activation tells the truth. On any disk, damaged ones included, and
under any injected faults: when an activating operation returns a version, the selector
and `install.json` name that version, it verifies, and after a change no journal is left.
A rollback always changes the version, from the selected one to an older one, and records
the version it has left. -/
theorem success_is_reported (s : Disk V) (inputs : Inputs V U) (inject : Nat → Bool) :
    (∀ v result t, (I.installVersion inputs v).run inject s = (.ok result, t) →
      result.version = v ∧ I.Reported s t result) ∧
    (∀ result t, (I.update inputs).run inject s = (.ok result, t) → I.Reported s t result) ∧
    (∀ result t, (I.rollback inputs).run inject s = (.ok result, t) →
      result.changed = true ∧ I.Reported s t result ∧ ∃ active i, I.Selects s (some active) ∧
        result.version < active ∧ t.install = .value i ∧ i.previous = some active) ∧
    ∀ target result t, (I.rollbackTo inputs target).run inject s = (.ok result, t) →
      result = ⟨target, true⟩ ∧ I.Reported s t result ∧ ∃ active i, I.Selects s (some active) ∧
        target < active ∧ t.install = .value i ∧ i.previous = some active := by
  refine ⟨fun v result t ran => ?_, fun result t ran => ?_, fun result t ran => ?_,
    fun target result t ran => ?_⟩
  · obtain ⟨s', begun, outcome⟩ := Guards.ran guards_installVersion ran
    exact outcome.reported begun
  · rcases Guards.ran guards_update ran with ⟨unchanged, begun, managed⟩ | ⟨v, s', begun, outcome⟩
    · exact managed.reported begun unchanged
    · exact (outcome.reported begun).2
  · obtain ⟨target, s', active, id, rfl, begun, rolled⟩ := Guards.ran guards_rollback ran
    exact ⟨rfl, rolled.reported begun, rolled.left begun⟩
  · obtain ⟨s', active, id, rfl, begun, rolled⟩ := Guards.ran guards_rollbackTo ran
    exact ⟨rfl, rolled.reported begun, rolled.left begun⟩

/-! ## Empty version directories -/

/-- There is an empty directory for the version. -/
def Emptied (s : Disk V) (v : V) : Prop :=
  ∃ dir, s.versionEntry (SemVer.toText v) = some (.directory dir) ∧ dir.members = ∅

omit [Crates V] in
theorem Emptied.later (h : Emptied s v) (bound : Later s t) : Emptied t v := by
  obtain ⟨dir, entry, empty⟩ := h
  exact ⟨dir, bound.entries _ _ entry, empty⟩

theorem Emptied.not_retained (h : Emptied s v) {state : VersionState V} :
    ¬ I.Retained s v state := by
  intro retained
  obtain ⟨⟨isPrivate, members⟩, entry, empty⟩ := h
  obtain ⟨dir, c, entry', _, complete, _⟩ := retained
  rw [entry] at entry'
  cases entry'
  have gone : members = ∅ := empty
  subst gone
  exact I.not_complete_empty complete

/-- The writes of an operation only ever add to the versions directory. -/
theorem later_of_changes {op : Operation V U} {α : Type} {Q : α → Disk V → Prop} {p : Action V α}
    (h : Guards true (I.Changes op) Q p s) (left : p.Leaves s t) : Later s t := by
  have steps := WP.leaves h left
  clear left
  induction steps with
  | refl => exact Later.refl _
  | tail _ last ih =>
    obtain ⟨_, _, _, effect⟩ := last
    exact ih.trans effect.later

theorem Emptied.not_reported {op : Operation V U} {Q : ActivationResult V → Disk V → Prop}
    {p : Action V (ActivationResult V)} {inject : Nat → Bool} (h : Emptied s result.version)
    (guarded : Guards true (I.Changes op) Q p s) (ran : p.run inject s = (.ok result, t))
    (reported : I.Reported s t result) : False := by
  have left : p.Leaves s t := by
    have leaves := run_leaves inject p s
    rwa [ran] at leaves
  obtain ⟨state, verified⟩ := reported.verified
  have retained : I.Retained t result.version state :=
    retained_of_verified (congrArg Prod.fst verified)
  exact (h.later (later_of_changes guarded left)).not_retained retained

/-- Once the directory of a version is there and empty, it stays empty in every run of
the managers, the version is never selected, and no operation activates it: an
installation of the version and a rollback to it fail under all circumstances, and an
update or a rollback that succeeds has activated another version. -/
theorem emptied_version_blocked {w w' : Managers V U} (reached : I.Reached w)
    (later : World.Reachable I.starts w w') {v : V} (emptied : Emptied w.state v) :
    Emptied w'.state v ∧ ¬ I.Selects w'.state (some v) ∧
    ∀ (inputs : Inputs V U) (inject : Nat → Bool) result t,
      (I.installVersion inputs v).run inject w'.state ≠ (.ok result, t) ∧
      (I.rollbackTo inputs v).run inject w'.state ≠ (.ok result, t) ∧
      ((I.update inputs).run inject w'.state = (.ok result, t) → result.version ≠ v) ∧
      ((I.rollback inputs).run inject w'.state = (.ok result, t) → result.version ≠ v) := by
  obtain ⟨reached', bound⟩ := reached.later later
  have still : Emptied w'.state v := emptied.later bound
  refine ⟨still, ?_, fun inputs inject result t => ⟨?_, ?_, ?_, ?_⟩⟩
  · intro selects
    obtain ⟨state, retained⟩ := reached'.sound.inv.toInv.selected selects
    exact still.not_retained retained
  · intro ran
    obtain ⟨_, begun, outcome⟩ := Guards.ran guards_installVersion ran
    obtain ⟨rfl, reported⟩ := outcome.reported begun
    exact still.not_reported guards_installVersion ran reported
  · intro ran
    obtain ⟨_, _, _, rfl, begun, rolled⟩ := Guards.ran guards_rollbackTo ran
    exact Emptied.not_reported still guards_rollbackTo ran (rolled.reported begun)
  · rintro ran rfl
    rcases Guards.ran guards_update ran with ⟨unchanged, begun, managed⟩ | ⟨_, _, begun, outcome⟩
    · exact still.not_reported guards_update ran (managed.reported begun unchanged)
    · exact still.not_reported guards_update ran (outcome.reported begun).2
  · rintro ran rfl
    obtain ⟨_, _, _, _, rfl, begun, rolled⟩ := Guards.ran guards_rollback ran
    exact Emptied.not_reported still guards_rollback ran (rolled.reported begun)

/-- The first and the third release are installed, and a rollback to the second, which
never was, has been refused. -/
def refusedDisk : Disk Sample.Edition :=
  Sample.after Sample.unixHost (.rollbackTo
      (Sample.inputs Sample.unixTarget Sample.thirdRelease Sample.signatureBytes) Sample.secondRelease)
    (Sample.after Sample.unixHost (Sample.install Sample.unixTarget Sample.thirdRelease)
      (Sample.after Sample.unixHost (Sample.install Sample.unixTarget Sample.firstRelease)
        Sample.freshDisk))

theorem refusedDisk_quiet : Sample.unixHost.Quiet Sample.Url refusedDisk :=
  Sample.quiet_after (Sample.quiet_after (Sample.quiet_after (Sample.freshDisk_quiet _) _) _) _

theorem refusedDisk_emptied : Emptied refusedDisk Sample.secondRelease :=
  ⟨⟨true, ∅⟩, by decide +kernel, rfl⟩

/-- The second release can never be installed on that disk. -/
theorem emptied_version_blocked_refused :
    Emptied refusedDisk Sample.secondRelease ∧
      ¬ Sample.unixHost.Selects refusedDisk (some Sample.secondRelease) :=
  have blocked := emptied_version_blocked refusedDisk_quiet .refl refusedDisk_emptied
  ⟨blocked.1, blocked.2.1⟩

end Installation

end Relswap
