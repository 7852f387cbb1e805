import Relswap.Proof.Asset
import Relswap.Sample.World

/-!
# Archive checks without a version

The archive code is given an asset only and reads the version and the target off
its names. It finds the ones the asset was validated for, and every asset it
accepts is valid for exactly those.
-/

namespace Relswap

open Durable

variable {V : Type} [SemVer V] [Crates V]
variable {app : App} {asset : ReleaseAsset} {v : V} {target : Target}

variable (V) in
/-- The checks of `inspectArchive` that concern the asset alone, in their order. -/
def checkAsset (app : App) (asset : ReleaseAsset) : Except ReleaseError Unit := do
  validateAssetAgainstManifestShape V app asset
  let target ← targetFromAsset V app asset
  let version ← canonicalVersionFromAsset V app asset target
  asset.validate app version target

/-! ## Reading names back -/

omit [Crates V] in
theorem versionOrZero_toText (v : V) : versionOrZero V (SemVer.toText v) = .ok v := by
  rw [versionOrZero, SemVer.parse_toText]

omit [Crates V] in
theorem canonicalVersionFromArchiveName_archiveName (app : App) (v : V) (target : Target) :
    canonicalVersionFromArchiveName V app (target.archiveName app v) target = .ok v := by
  have stem : stripSuffix (target.archiveName app v) target.archiveSuffix =
      some (target.rootName app v) := stripSuffix_eq_some.mpr rfl
  have rest : stripPrefix (target.rootName app v) app.archivePrefix =
      some (SemVer.toText v ++ ("-" ++ target.asStr)) := by
    rw [stripPrefix_eq_some, Target.rootName, App.rootName, App.archivePrefix]
    simp only [String.append_assoc]
  have version : stripSuffix (SemVer.toText v ++ ("-" ++ target.asStr)) ("-" ++ target.asStr) =
      some (SemVer.toText v) := stripSuffix_eq_some.mpr rfl
  simp only [canonicalVersionFromArchiveName, stem, rest, version, Option.getD_some,
    Option.bind_some, versionOrZero_toText]

omit [Crates V] in
theorem archiveNamedFor_iff :
    archiveNamedFor V app asset target = true ↔
      ∃ v : V, asset.archive = target.archiveName app v := by
  rw [archiveNamedFor]
  constructor
  · intro h
    split at h
    · rename_i version _
      exact ⟨version, eq_of_beq h⟩
    · cases h
  · intro h
    obtain ⟨v, named⟩ := h
    rw [named, canonicalVersionFromArchiveName_archiveName]
    exact beq_self_eq_true _

omit [Crates V] in
theorem targetFromAsset_eq_ok :
    targetFromAsset V app asset = .ok target ↔ ∃ v : V, asset.archive = target.archiveName app v := by
  rw [targetFromAsset, orError_eq_ok]
  constructor
  · intro found
    exact archiveNamedFor_iff.mp (List.find?_some found)
  · intro h
    obtain ⟨v, named⟩ := h
    cases found : Target.all.find? (archiveNamedFor V app asset) with
    | none =>
      have missed := List.find?_eq_none.mp found target (Target.mem_all target)
      exact absurd (archiveNamedFor_iff.mpr ⟨v, named⟩) missed
    | some first =>
      obtain ⟨w, named'⟩ := archiveNamedFor_iff.mp (List.find?_some found)
      rw [target_of_archiveName (named'.symm.trans named)]

omit [Crates V] in
theorem CanonicalAsset.canonicalVersion (h : CanonicalAsset app v target asset) :
    canonicalVersionFromAsset V app asset target = .ok v := by
  have root : String.ofList ((splitSlash asset.payload.path.toList).headD []) =
      target.rootName app v := by
    have chars : asset.payload.path.toList =
        (target.rootName app v).toList ++ '/' :: (target.payloadName app).toList := by
      rw [h.path]
      simp [Target.payloadPath]
    rw [chars, splitSlash_append, splitSlash_plain h.root_plain]
    simp
  have rest : stripPrefix (target.rootName app v) app.archivePrefix =
      some (SemVer.toText v ++ ("-" ++ target.asStr)) := by
    rw [stripPrefix_eq_some, Target.rootName, App.rootName, App.archivePrefix]
    simp only [String.append_assoc]
  have version : stripSuffix (SemVer.toText v ++ ("-" ++ target.asStr)) ("-" ++ target.asStr) =
      some (SemVer.toText v) := stripSuffix_eq_some.mpr rfl
  simp only [canonicalVersionFromAsset, root, rest, version, Option.getD_some,
    Option.bind_some, versionOrZero_toText]

theorem lowerSha256_size {value : String} (h : lowerSha256 value = true) :
    value.utf8ByteSize = 64 := by
  simp only [lowerSha256, Bool.and_eq_true, beq_iff_eq, encodeUtf8_length] at h
  exact h.1

omit [Crates V] in
theorem CanonicalAsset.shape (h : CanonicalAsset app v target asset) :
    validateAssetAgainstManifestShape V app asset = .ok () := by
  have named : targetFromAsset V app asset = .ok target := targetFromAsset_eq_ok.mpr ⟨v, h.archive⟩
  simp only [validateAssetAgainstManifestShape, bind_eq_ok, check_eq_ok]
  refine ⟨(), ⟨h.archiveSize.1, h.archiveSize.2, h.size.1, h.size.2⟩, (),
    ⟨lowerSha256_size h.archiveDigest, lowerSha256_size h.digest⟩, target, named, ?_⟩
  obtain ⟨unix, none⟩ | ⟨launcher, canonical⟩ := h.launcher
  · simp [unix, none]
  · have path := canonical.path
    simp only [Target.launcherPath, Target.launcherName, canonical.windows, if_true,
      Option.map_eq_some_iff] at path
    obtain ⟨name, configured, _⟩ := path
    have protocol : app.launcherProtocol = some launcher.protocol := by
      have same := canonical.protocol
      rw [Target.launcherProtocol, if_pos canonical.windows] at same
      unfold App.launcherName at configured
      unfold App.launcherProtocol at same ⊢
      cases activation : app.activation with
      | unixSymlink =>
        rw [activation] at configured
        cases configured
      | windowsLauncher launcherName protocol =>
        rw [activation] at same
        rw [same]
        rfl
    simp only [canonical.windows, if_true, canonical.listed, bind_eq_ok, orError_eq_ok, check_eq_ok]
    exact ⟨launcher, rfl, protocol.symm, canonical.size⟩

omit [Crates V] in
theorem CanonicalAsset.checkAsset (h : CanonicalAsset app v target asset) :
    checkAsset V app asset = .ok () := by
  have named : targetFromAsset V app asset = .ok target := targetFromAsset_eq_ok.mpr ⟨v, h.archive⟩
  rw [Relswap.checkAsset, h.shape, ok_bind, named, ok_bind, h.canonicalVersion, ok_bind]
  exact validate_eq_ok.mpr h

/-- The archive code recovers the version and the target an asset was validated for, so
that its own checks on the asset pass; and every asset that passes them is valid for
exactly one version and target. Inspection fails with the error of these checks, if any. -/
theorem archive_checks_recover (app : App) (asset : ReleaseAsset) :
    (∀ (v : V) target, asset.validate app v target = .ok () →
      targetFromAsset V app asset = .ok target ∧
      canonicalVersionFromAsset V app asset target = .ok v ∧
      validateAssetAgainstManifestShape V app asset = .ok () ∧
      ∀ bytes, verifyArchiveBytes V app bytes asset = (do
        check (bytes.length ≤ maxArchiveSize)
          (.archive s!"archive exceeds maximum size {maxArchiveSize}")
        verifyBytes V bytes asset.archiveSize asset.archiveSha256 "release archive")) ∧
    (checkAsset V app asset = .ok () →
      ∃! named : V × Target, asset.validate app named.1 named.2 = .ok ()) ∧
    ∀ bytes error, checkAsset V app asset = .error error →
      inspectArchive V app bytes asset = .error error := by
  refine ⟨?_, ?_, ?_⟩
  · intro v target valid
    have canonical := validate_eq_ok.mp valid
    have named : targetFromAsset V app asset = .ok target :=
      targetFromAsset_eq_ok.mpr ⟨v, canonical.archive⟩
    refine ⟨named, canonical.canonicalVersion, canonical.shape, fun bytes => ?_⟩
    rw [verifyArchiveBytes, named, ok_bind, canonical.canonicalVersion, ok_bind, valid, ok_bind]
  · intro passes
    simp only [checkAsset, bind_eq_ok] at passes
    obtain ⟨_, _, target, _, v, _, valid⟩ := passes
    refine ⟨(v, target), valid, ?_⟩
    intro other valid'
    obtain ⟨version, targets⟩ := (validate_eq_ok.mp valid').unique (validate_eq_ok.mp valid)
    exact Prod.ext version targets
  · intro bytes error fails
    unfold checkAsset at fails
    rw [inspectArchive, verifyArchiveBytes]
    cases shape : validateAssetAgainstManifestShape V app asset with
    | error e =>
      rw [shape, error_bind] at fails
      cases fails
      rfl
    | ok =>
      rw [shape, ok_bind] at fails
      rw [ok_bind]
      cases named : targetFromAsset V app asset with
      | error e =>
        rw [named, error_bind] at fails
        cases fails
        rfl
      | ok target =>
        rw [named, ok_bind] at fails
        simp only [ok_bind]
        cases version : canonicalVersionFromAsset V app asset target with
        | error e =>
          rw [version, error_bind] at fails
          cases fails
          rfl
        | ok v =>
          rw [version, ok_bind] at fails
          rw [ok_bind, fails]
          rfl

section Sample

open Sample

theorem archive_checks_recover_windows :
    targetFromAsset Edition (Sample.app windowsTarget) (Sample.asset windowsTarget longRelease) =
        .ok windowsTarget ∧
      ∃! named : Edition × Target,
        (Sample.asset windowsTarget longRelease).validate (Sample.app windowsTarget) named.1 named.2 =
          .ok () := by
  have valid : (Sample.asset windowsTarget longRelease).validate (Sample.app windowsTarget) longRelease
      windowsTarget = .ok () := by
    obtain ⟨_, passes⟩ := ok_of_isSome (r := (Sample.asset windowsTarget longRelease).validate
      (Sample.app windowsTarget) longRelease windowsTarget) (by decide +kernel)
    exact passes
  have recovered := archive_checks_recover (V := Edition) (Sample.app windowsTarget)
    (Sample.asset windowsTarget longRelease)
  exact ⟨(recovered.1 longRelease windowsTarget valid).1,
    recovered.2.1 (validate_eq_ok.mp valid).checkAsset⟩

end Sample

end Relswap
