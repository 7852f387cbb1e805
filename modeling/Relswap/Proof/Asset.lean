import Relswap.Release.Names

/-!
# Assets that pass validation

What validation establishes about an asset, and why its archive name and its
payload path each name one version and one target only.
-/

namespace Relswap

open Durable

variable {V : Type} [SemVer V] {app : App} {asset : ReleaseAsset} {v w : V} {target other : Target}

theorem lowerSha256_chars {digest : String} (lower : lowerSha256 digest = true) :
    ∀ c ∈ digest.toList, (48 ≤ c.toNat ∧ c.toNat ≤ 57) ∨ (97 ≤ c.toNat ∧ c.toNat ≤ 102) := by
  simp only [lowerSha256, Bool.and_eq_true, List.all_eq_true] at lower
  intro c inside
  obtain ⟨byte, here⟩ : ∃ byte, byte ∈ String.utf8EncodeChar c :=
    List.exists_mem_of_length_pos (by
      rw [String.length_utf8EncodeChar]
      exact c.utf8Size_pos)
  have encoded : byte ∈ encodeUtf8 digest := by
    rw [← String.ofList_toList (s := digest), encodeUtf8_ofList]
    exact List.mem_flatMap_of_mem inside here
  have digit := lower.2 byte encoded
  simp only [lowerHexDigit, Bool.or_eq_true, Bool.and_eq_true, decide_eq_true_eq,
    UInt8.le_iff_toNat_le] at digit
  have range : (48 ≤ byte.toNat ∧ byte.toNat ≤ 57) ∨ (97 ≤ byte.toNat ∧ byte.toNat ≤ 102) := digit
  rwa [toNat_of_byte here (by omega)]

/-- The launcher of a validated asset. -/
structure CanonicalLauncher (app : App) (v : V) (target : Target) (asset : ReleaseAsset)
    (launcher : LauncherInfo) : Prop where
  windows : target.isWindows = true
  listed : asset.launcher = some launcher
  path : target.launcherPath app v = some launcher.path
  protocol : launcher.protocol = (target.launcherProtocol app).getD 0
  memberPath : validateMemberPath launcher.path "launcher path" = .ok ()
  size : launcher.size ≠ 0 ∧ launcher.size ≤ maxMemberSize
  digest : lowerSha256 launcher.sha256 = true
  distinct : launcher.path ≠ asset.payload.path

/-- What validation establishes about an asset. -/
structure CanonicalAsset (app : App) (v : V) (target : Target) (asset : ReleaseAsset) : Prop where
  archive : asset.archive = target.archiveName app v
  basename : validateBasename asset.archive "archive name" = .ok ()
  archiveSize : asset.archiveSize ≠ 0 ∧ asset.archiveSize ≤ maxArchiveSize
  archiveDigest : lowerSha256 asset.archiveSha256 = true
  path : asset.payload.path = target.payloadPath app v
  memberPath : validateMemberPath asset.payload.path "payload path" = .ok ()
  size : asset.payload.size ≠ 0 ∧ asset.payload.size ≤ maxMemberSize
  digest : lowerSha256 asset.payload.sha256 = true
  launcher : (target.isWindows = false ∧ asset.launcher = none) ∨
    ∃ launcher, CanonicalLauncher app v target asset launcher

theorem validateSize_eq_ok {size maximum : Nat} {label : String} {u : Unit} :
    validateSize size maximum label = .ok u ↔ size ≠ 0 ∧ size ≤ maximum := by
  simp [validateSize]

theorem validateSha256_eq_ok {value label : String} {u : Unit} :
    validateSha256 value label = .ok u ↔ lowerSha256 value = true := check_eq_ok

theorem validateLauncher_eq_ok :
    asset.validateLauncher app v target = .ok () ↔
      (target.isWindows = false ∧ asset.launcher = none) ∨
        ∃ launcher, CanonicalLauncher app v target asset launcher := by
  rw [ReleaseAsset.validateLauncher]
  cases windows : target.isWindows with
  | false =>
    have never : ¬ ∃ launcher, CanonicalLauncher app v target asset launcher := by
      intro h
      obtain ⟨launcher, canonical⟩ := h
      rw [canonical.windows] at windows
      cases windows
    cases listed : asset.launcher with
    | none => simp
    | some launcher => simp [never]
  | true =>
    cases listed : asset.launcher with
    | none =>
      have never : ¬ ∃ launcher, CanonicalLauncher app v target asset launcher := by
        intro h
        obtain ⟨launcher, canonical⟩ := h
        rw [canonical.listed] at listed
        cases listed
      simp [never]
    | some launcher =>
      simp only [bind_eq_ok, orError_eq_ok, check_eq_ok, validateSize_eq_ok, validateSha256_eq_ok]
      constructor
      · intro h
        obtain ⟨expected, named, _, path, _, protocol, _, memberPath, _, size, _, digest,
          distinct⟩ := h
        refine .inr ⟨launcher, windows, listed, ?_, protocol, memberPath, size, digest, distinct⟩
        rw [named, path]
      · intro h
        obtain ⟨clash, _⟩ | ⟨found, canonical⟩ := h
        · cases clash
        · have same := canonical.listed.symm.trans listed
          cases same
          exact ⟨_, canonical.path, (), rfl, (), canonical.protocol, (), canonical.memberPath, (),
            canonical.size, (), canonical.digest, canonical.distinct⟩

theorem validate_eq_ok : asset.validate app v target = .ok () ↔ CanonicalAsset app v target asset := by
  simp only [ReleaseAsset.validate, bind_eq_ok, check_eq_ok, validateSize_eq_ok,
    validateSha256_eq_ok, validateLauncher_eq_ok]
  constructor
  · intro h
    obtain ⟨_, archive, _, basename, _, archiveSize, _, archiveDigest, _, path, _, memberPath, _,
      size, _, digest, launcher⟩ := h
    exact ⟨archive, basename, archiveSize, archiveDigest, path, memberPath, size, digest, launcher⟩
  · intro h
    exact ⟨(), h.archive, (), h.basename, (), h.archiveSize, (), h.archiveDigest, (), h.path, (),
      h.memberPath, (), h.size, (), h.digest, h.launcher⟩

/-! ## Names -/

/-- What follows the version in the name of an archive. -/
def archiveEnding (target : Target) : String := "-" ++ target.asStr ++ target.archiveSuffix

theorem archiveName_eq (app : App) (v : V) (target : Target) :
    target.archiveName app v = app.archivePrefix ++ SemVer.toText v ++ archiveEnding target := by
  simp only [Target.archiveName, Target.rootName, App.rootName, App.archivePrefix, archiveEnding,
    String.append_assoc]

/-- No ending is the end of another. -/
theorem archiveEnding_suffix : ∀ target ∈ Target.all, ∀ other ∈ Target.all,
    (archiveEnding target).toList.isSuffixOf (archiveEnding other).toList = true →
      target = other := by
  decide +kernel

theorem target_of_archiveName (same : target.archiveName app v = other.archiveName app w) :
    target = other := by
  have chars := congrArg String.toList same
  rw [archiveName_eq, archiveName_eq, String.toList_append, String.toList_append] at chars
  have left : (archiveEnding target).toList <:+ (other.archiveName app w).toList := by
    rw [← same, archiveName_eq, String.toList_append]
    exact List.suffix_append _ _
  have right : (archiveEnding other).toList <:+ (other.archiveName app w).toList := by
    rw [archiveName_eq, String.toList_append]
    exact List.suffix_append _ _
  obtain inside | inside := List.suffix_or_suffix_of_suffix left right
  · exact archiveEnding_suffix target (Target.mem_all _) other (Target.mem_all _)
      (List.isSuffixOf_iff_suffix.mpr inside)
  · exact (archiveEnding_suffix other (Target.mem_all _) target (Target.mem_all _)
      (List.isSuffixOf_iff_suffix.mpr inside)).symm

theorem version_of_archiveName (same : target.archiveName app v = target.archiveName app w) :
    v = w := by
  rw [archiveName_eq, archiveName_eq] at same
  have chars := congrArg String.toList same
  simp only [String.toList_append] at chars
  have text := List.append_cancel_left (List.append_cancel_right chars)
  exact SemVer.toText_injective (String.toList_injective text)

/-- An asset is canonical for one version and one target only. -/
theorem CanonicalAsset.unique (h : CanonicalAsset app v target asset)
    (h' : CanonicalAsset app w other asset) : v = w ∧ target = other := by
  have same := h.archive.symm.trans h'.archive
  have targets := target_of_archiveName same
  subst targets
  exact ⟨version_of_archiveName same, rfl⟩

/-- The canonical root has no slash, because the archive name has none. -/
theorem CanonicalAsset.root_plain (h : CanonicalAsset app v target asset) :
    '/' ∉ (target.rootName app v).toList := by
  intro slash
  have basename := h.basename
  simp only [validateBasename, check_eq_ok] at basename
  have inside : '/' ∈ asset.archive.toList := by
    rw [h.archive, Target.archiveName, String.toList_append]
    exact List.mem_append_left _ slash
  have allowed := List.all_eq_true.mp basename.2.2.2 '/' inside
  revert allowed
  decide

end Relswap
