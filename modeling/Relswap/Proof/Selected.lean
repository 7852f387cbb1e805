import Relswap.Proof.Calm

/-!
# A disk with a readable selector

Where the root and the lock file are in place and the selector names a version,
recovery is the locked recovery. On Windows the launcher that a retained version
carries makes a valid ownership record.
-/

namespace Relswap

open Durable Durable.Program Disk

theorem FsPath.display_ne_empty {platform : Platform} {path : FsPath} (above : path.parent ≠ none)
    (deep : ∀ root, path.parent = some root → root ≠ []) : path.display platform ≠ "" := by
  obtain ⟨root, parent⟩ := Option.ne_none_iff_exists'.mp above
  have shape : ∃ c, path = root ++ [c] := by
    unfold FsPath.parent at parent
    cases last : path.getLast? with
    | none => simp [last] at parent
    | some c =>
      have whole := List.dropLast_append_getLast? c last
      refine ⟨c, ?_⟩
      cases c <;> simp [last] at parent <;> rw [← parent, whole]
  obtain ⟨c, rfl⟩ := shape
  intro empty
  have lengths := congrArg (fun text => text.toList.length) empty
  unfold FsPath.display at lengths
  dsimp only at lengths
  rw [List.map_append, String.intercalate_append_of_ne_nil (by simpa using deep root parent)
    (by simp)] at lengths
  by_cases windows : platform = .windows <;> simp [windows] at lengths

namespace Installation

open Layout

variable {V U : Type} [SemVer V] [Crates V] [UrlCrate U] {I : Installation}
variable {s t : Disk V} {v : V}

/-- With a selector that reads as a version, nothing keeps recovery from its lock. -/
theorem exec_recoverIfManaged
    (configured : (I.validateConfiguration : Except (InstallError V) Unit) = .ok ())
    (anchored : Settled s) (read : I.readPointerUnlocked s = .ok (some v)) :
    I.recoverIfManaged.exec s = I.recoverLocked.exec s := by
  have reachable : (I.reachRoot s : Except (InstallError V) Unit) = .ok () := by
    unfold reachRoot
    apply check_pass
    rw [anchored.root]
    exact fun file => nomatch file.2
  have present : (I.pointerPathExists s : Except (InstallError V) Bool) = .ok true := by
    have selects := I.selects_of_read read
    unfold Selects at selects
    unfold Installation.pointerPathExists
    cases hI : I.platform with
    | windows =>
      rw [hI] at selects
      simp [selects]
    | unix =>
      rw [hI] at selects
      rw [selects]
  have rooted : Succeeds I.ensureRoot s () s := by
    refine Succeeds.write ?_
    rw [anchored.root]
    simp only [Place.ensurePrivate]
    rw [← anchored.root]
    rfl
  have related : Succeeds (I.pointerIsUnrelated true (decide (s.install ≠ .absent))
      (decide (s.pending ≠ .absent))) s false s := by
    unfold pointerIsUnrelated
    split
    · apply Succeeds.bind (a := .ok (some v)) (t := s)
      · rw [Succeeds, exec_attempt, exec_reads, read]
      · exact Succeeds.pure
    · exact Succeeds.pure
  have locked : (checkLockFile false s : Except (InstallError V) Unit) = .ok () := by
    rw [checkLockFile, anchored.lock]
  unfold Installation.recoverIfManaged
  rw [(Succeeds.ofExcept configured).exec_bind, Succeeds.get.exec_bind,
    if_neg (by rw [anchored.root]; exact Place.noConfusion),
    (Succeeds.reads reachable).exec_bind, Succeeds.get.exec_bind, Succeeds.get.exec_bind,
    (Succeeds.reads present).exec_bind, Succeeds.get.exec_bind]
  simp only [Bool.not_true, Bool.and_false, Bool.false_and, Bool.false_eq_true, if_false]
  rw [rooted.exec_bind, related.exec_bind, if_neg Bool.false_ne_true]
  unfold lockExisting
  rw [(Succeeds.reads locked).exec_bind]
  unfold underLock
  rw [exec_locked, Succeeds.mark.exec_bind]

/-! ## The launcher a version carries -/

omit [SemVer V] [Crates V] in
theorem command_text_ne_empty (windows : I.platform = .windows)
    (configured : (I.validateConfiguration : Except (InstallError V) Unit) = .ok ()) :
    I.text I.commandPath ≠ "" := by
  simp only [validateConfiguration, windows, validateCommandPath, validateWindowsCommand,
    bind_eq_ok, check_eq_ok, orError_eq_ok] at configured
  obtain ⟨_, _, _, _, launcherName, _, _, _, _, _, _, _, parent, above, _, same, _⟩ := configured
  apply FsPath.display_ne_empty
  · rw [above]
    exact Option.some_ne_none parent
  · rintro root found rfl
    rw [above] at found
    cases found
    cases hb : I.binDir with
    | nil => simp [binDir, FsPath.join] at hb
    | cons c rest => simp [hb, FsPath.samePath] at same

/-- The launcher metadata of a verified Windows version makes a valid record. -/
theorem Retained.ownership_valid {state : VersionState V} {carried : LauncherMetadata}
    (h : I.Retained s v state) (windows : I.platform = .windows)
    (configured : (I.validateConfiguration : Except (InstallError V) Unit) = .ok ())
    (carries : state.launcher = some carried) :
    (validateLauncherOwnership (I.ownershipOf carried) : Except (InstallError V) Unit) = .ok () ∧
      carried.protocol = 1 := by
  obtain ⟨dir, c, _, _, complete, _⟩ := h
  have isWindows : state.target.isWindows = true := by
    rw [complete.state_target]
    exact (I.target_platform _ complete.target).mpr windows
  have valid := complete.valid
  simp only [validateVersionState, isWindows, if_true, bind_eq_ok, check_eq_ok, orError_eq_ok,
    carries, Option.some.injEq, validateLauncherMetadata, validateLauncherFields] at valid
  obtain ⟨_, _, _, _, _, rfl, protocol, size, digest, _⟩ := valid
  refine ⟨?_, protocol⟩
  simp only [validateLauncherOwnership, check_eq_ok, ownershipOf]
  exact ⟨trivial, protocol, command_text_ne_empty windows configured, I.command_openable,
    size, digest⟩

/-- The launcher at the command path has the size and the digest that the
version records. -/
def CarriesInstalled (I : Installation) (s : Disk V) (v : V) : Prop :=
  ∃ state carried bytes, I.Retained s v state ∧ state.launcher = some carried ∧
    s.command = .file bytes ∧ bytes.length = carried.size ∧ Crates.sha256 V bytes = carried.sha256

theorem CarriesInstalled.known (h : CarriesInstalled I s v)
    (configured : (I.validateConfiguration : Except (InstallError V) Unit) = .ok ()) :
    LauncherKnown I s v none := by
  intro windows
  obtain ⟨state, carried, bytes, retained, carries, command, size, digest⟩ := h
  obtain ⟨valid, protocol⟩ := retained.ownership_valid windows configured carries
  refine ⟨state, carried, retained, carries, valid, ?_⟩
  have file : I.commandFile s = .ok bytes := I.commandFile_eq_ok.mpr command
  simp [verifyInstalledLauncherRecord, sameRegularFileObject, file, ownershipOf, protocol,
    verifyFileDigest, size, digest, check]

end Installation

end Relswap
