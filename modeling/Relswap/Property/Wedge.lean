import Relswap.Proof.Progress
import Relswap.Sample.World

/-!
# Recovery never wedges

On Unix, in every interleaving of any number of managers, the journal, the
selector and `install.json` stay in one of the few relations recovery knows, and
recovery succeeds.
-/

namespace Relswap

open Durable Durable.Program Disk

namespace Installation

variable {V U : Type} [SemVer V] [Crates V] [UrlCrate U] (I : Installation)

/-- The documents can be read, and they fit the selector. -/
structure Consistent (s : Disk V) : Prop where
  install : ∃ i, s.install = .ofOption i
  pending : ∃ p, s.pending = .ofOption p
  journalled : ∀ p, s.pending = .value p → ∃ pointer, I.readPointerUnlocked s = .ok pointer ∧
    (pointer = p.fromVersion ∨ pointer = some p.toVersion) ∧
    (pointer = p.fromVersion → activeOf s = p.fromVersion) ∧
    (pointer = some p.toVersion → activeOf s = p.fromVersion ∨ activeOf s = some p.toVersion)
  settled : s.pending = .absent → I.readPointerUnlocked s = .ok (activeOf s)
  selected : ∀ v, I.readPointerUnlocked s = .ok (some v) →
    ∃ state, Succeeds (I.verifyFinalVersion v none) s state s

variable {I} {s : Disk V}

theorem Inv.readPointer (h : I.Inv s) (unix : I.platform = .unix) {p : Option V}
    (selects : I.Selects s p) : I.readPointerUnlocked s = .ok p := by
  cases p with
  | none => exact I.readPointerUnlocked_eq_none.mpr selects
  | some v =>
    exact I.readPointerUnlocked_eq_some.mpr ⟨selects, (h.replaceable unix v selects).1⟩

theorem Inv.consistent (h : I.Inv s) (unix : I.platform = .unix) : I.Consistent s := by
  refine ⟨h.install, h.pending, fun p journal => ?_, fun absent => ?_, fun v read => ?_⟩
  · have facts := h.journal p journal
    have apart := (validatePending_eq_ok.mp facts.valid).2
    rcases facts.selector with ⟨from_, active⟩ | ⟨to_, active⟩
    · refine ⟨_, h.readPointer unix from_, .inl rfl, fun _ => active, fun same => ?_⟩
      exact absurd same apart
    · refine ⟨_, h.readPointer unix to_, .inr rfl, fun same => ?_, fun _ => active⟩
      exact absurd same.symm apart
  · exact h.readPointer unix (h.settled absent)
  · obtain ⟨state, retained⟩ := h.selected (I.selects_of_read read)
    exact ⟨state, retained.succeeds I (.inl rfl)⟩

/-- Recovery never wedges. In every interleaving of any managers, started on a
disk on which nothing was installed, the documents fit the selector, the selected
version verifies, and recovery succeeds unless the configuration is refused. -/
theorem recovery_never_wedges (unix : I.platform = .unix) {w : Managers V U}
    (reached : I.Reached w) :
    I.Consistent w.state ∧
      ((I.validateConfiguration : Except (InstallError V) Unit) = .ok () →
        ∃ b t, I.recoverIfManaged.exec w.state = (.ok b, t)) :=
  ⟨reached.sound.inv.toInv.consistent unix,
    fun configured => returns_recoverIfManaged_unix unix reached.sound.inv configured⟩

open Sample in
theorem recovery_never_wedges_updated :
    Consistent unixHost unixDisk ∧
      ((unixHost.validateConfiguration : Except (InstallError Edition) Unit) = .ok () →
        ∃ b t, unixHost.recoverIfManaged.exec unixDisk = (.ok b, t)) :=
  recovery_never_wedges rfl unixDisk_quiet

end Installation

end Relswap
