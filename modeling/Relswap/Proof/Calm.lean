import Relswap.Proof.Progress

/-!
# Calm installations

An installation is calm when nothing is pending, nothing is staged, and
`install.json` describes the selected version. Recovery leaves a calm disk
exactly as it is, and most of its outcomes are calm.
-/

namespace Relswap

open Durable Durable.Program Disk

namespace Installation

variable {V : Type} [SemVer V] [Crates V] (I : Installation)

/-- The version is selected, described by `install.json`, and nothing is left to do. -/
structure Calm (s : Disk V) (v : V) (i : InstallState V) (state : VersionState V) : Prop where
  laid : I.Laid s
  lock : s.lock = .regular
  staging : s.staging = .directory true ∅
  pending : s.pending = .absent
  pointer : I.readPointerUnlocked s = .ok (some v)
  install : s.install = .value i
  valid : validateInstallState I.platform i = .ok ()
  retained : I.Retained s v state
  fits : I.needsRepair v (some i) state s = false

variable {I} {s t : Disk V} {v : V} {i : InstallState V} {state : VersionState V}

omit [SemVer V] [Crates V] in
theorem Laid.succeeds (h : I.Laid s) : Succeeds I.ensurePrivateLayout s () s := by
  have same : ∀ {f : Disk V → Except (InstallError V) (Disk V)}, f s = .ok s →
      Succeeds (write f : Action V Unit) s () s := Succeeds.write
  obtain ⟨versions, hv⟩ := h.versions
  obtain ⟨staging, hs⟩ := h.staging
  rw [ensurePrivateLayout]
  refine (same ?_).bind ((same ?_).bind ((same ?_).bind (Succeeds.onlyIf (fun windows => same ?_)
    fun _ => rfl)))
  · rw [h.root]
    simp only [Place.ensurePrivate]
    rw [← h.root]
    rfl
  · rw [hv]
    simp only [Folder.ensurePrivate]
    rw [← hv]
    rfl
  · rw [hs]
    simp only [Folder.ensurePrivate]
    rw [← hs]
    rfl
  · rw [h.bin windows]
    simp only [Place.ensurePrivate]
    rw [← h.bin windows]
    rfl

/-- There is nothing to clean up. -/
theorem succeeds_cleanupStaging (staging : s.staging = .directory true ∅)
    (selector : ∃ pointer, I.readPointerUnlocked s = .ok pointer)
    (install : ∃ i, s.install = .ofOption i) : Succeeds I.cleanupStaging s () s := by
  obtain ⟨r, t, orphans⟩ := returns_removesOrphans (fun _ => selector) install
  obtain ⟨same, _⟩ := orphans.guarded (guards_removesOrphans : Guards true (I.Effect .recovery s) _ _ _)
  subst same
  rw [cleanupStaging]
  apply Succeeds.get.bind
  simp only [staging]
  refine (succeeds_ensureStagingDir staging).bind (orphans.bind (Succeeds.get.bind ?_))
  rw [staging]
  exact Succeeds.pure

namespace Calm

theorem recoverLocked (h : I.Calm s v i state) : Succeeds I.recoverLocked s true s := by
  rw [Installation.recoverLocked]
  apply h.laid.succeeds.bind
  apply (Succeeds.reads (a := none) (by rw [readPending, h.pending]; rfl)).bind
  apply (Succeeds.reads (a := some i) (by rw [readInstallState, h.install]; rfl)).bind
  refine (Succeeds.ofExcept h.valid).bind ((Succeeds.reads h.pointer).bind ?_)
  dsimp only
  rw [reconcileSelected]
  refine (h.retained.succeeds I (.inl rfl)).bind (Succeeds.get.bind ?_)
  refine (Succeeds.onlyIf (t := s) (fun repair => ?_) fun _ => rfl).bind ?_
  · rw [h.fits] at repair
    cases repair
  · exact (succeeds_cleanupStaging h.staging ⟨_, h.pointer⟩ ⟨some i, h.install⟩).bind Succeeds.pure

/-- Recovery of a calm installation succeeds and changes nothing. -/
theorem recoverIfManaged (h : I.Calm s v i state)
    (configured : (I.validateConfiguration : Except (InstallError V) Unit) = .ok ()) :
    Succeeds I.recoverIfManaged s true s := by
  unfold Installation.recoverIfManaged
  refine (Succeeds.ofExcept configured).bind (Succeeds.get.bind ?_)
  rw [if_neg (by rw [h.laid.root]; nofun)]
  have reachable : (I.reachRoot s : Except (InstallError V) Unit) = .ok () := by
    unfold reachRoot
    exact check_pass fun file => nomatch h.laid.root.symm.trans file.2
  refine (Succeeds.reads reachable).bind (Succeeds.get.bind (Succeeds.get.bind ?_))
  have pointerExists : ∃ b, I.pointerPathExists s = .ok b := by
    have selects := I.selects_of_read h.pointer
    unfold Selects at selects
    unfold pointerPathExists
    cases hI : I.platform with
    | windows => exact ⟨_, rfl⟩
    | unix =>
      rw [hI] at selects
      rw [selects]
      exact ⟨_, rfl⟩
  obtain ⟨b, exists_⟩ := pointerExists
  refine (Succeeds.reads exists_).bind (Succeeds.get.bind ?_)
  dsimp only
  rw [if_neg (by simp [h.install])]
  have rooted : Succeeds I.ensureRoot s () s := by
    refine Succeeds.write ?_
    rw [h.laid.root]
    simp only [Place.ensurePrivate]
    rw [← h.laid.root]
    rfl
  refine rooted.bind ?_
  have related : Succeeds (I.pointerIsUnrelated b (decide (s.install ≠ .absent))
      (decide (s.pending ≠ .absent))) s false s := by
    unfold pointerIsUnrelated
    rw [if_neg (by simp [h.install])]
    exact Succeeds.pure
  refine related.bind ?_
  rw [if_neg Bool.false_ne_true]
  unfold lockExisting
  have locked : (checkLockFile false s : Except (InstallError V) Unit) = .ok () := by
    rw [checkLockFile, h.lock]
  exact (Succeeds.reads locked).bind (Succeeds.locked (Succeeds.mark.bind h.recoverLocked))

end Calm

end Installation

end Relswap
