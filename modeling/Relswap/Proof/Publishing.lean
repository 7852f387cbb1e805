import Relswap.Proof.Asset
import Relswap.Proof.Signing
import Relswap.Proof.Staging
import Relswap.Tool.Verify

/-!
# What publishing leaves for the verifier

The archives that the manifest command lists stay in place with their checksum files,
and the checks of the verifier repeat those of the publisher.
-/

namespace Relswap.Tool

open Durable Checked Checked.Script

/-! ## Paths -/

theorem parentPrefix_fileName (path : String) : parentPrefix path ++ fileName path = path := by
  apply String.toList_injective
  have whole := List.takeWhile_append_dropWhile (p := fun c => c != '/') (l := path.toList.reverse)
  have chars := congrArg List.reverse whole
  rw [List.reverse_append, List.reverse_reverse] at chars
  simpa [parentPrefix, fileName] using chars

theorem endsWith_fileName {path ending : String} (inside : endsWith (fileName path) ending = true) :
    ending.toList <:+ path.toList := by
  rw [← parentPrefix_fileName path, String.toList_append]
  exact (List.isSuffixOf_iff_suffix.mp inside).trans (List.suffix_append _ _)

/-- Endings of which none is the end of another end different texts. -/
theorem ne_of_endings {first second path : String} (one : first.toList <:+ path.toList)
    (apart : (first.toList.isSuffixOf second.toList || second.toList.isSuffixOf first.toList) =
      false) : ¬ second.toList <:+ path.toList := by
  intro two
  rw [Bool.or_eq_false_iff] at apart
  obtain inside | inside := List.suffix_or_suffix_of_suffix one two
  · rw [List.isSuffixOf_iff_suffix.mpr inside] at apart
    cases apart.1
  · rw [List.isSuffixOf_iff_suffix.mpr inside] at apart
    cases apart.2

/-- An archive is no checksum file, manifest or envelope. -/
theorem isArchiveName_ending {app : App} {path : String} (archive : isArchiveName app path = true)
    {ending : String} (known : ending ∈ [".sha256", "-release.json", "-release.signatures.json"]) :
    ¬ ending.toList <:+ path.toList := by
  simp only [isArchiveName, Bool.and_eq_true, Bool.or_eq_true] at archive
  obtain ⟨_, tar | zip⟩ := archive
  · apply ne_of_endings (endsWith_fileName tar)
    revert ending
    decide
  · apply ne_of_endings (endsWith_fileName zip)
    revert ending
    decide

/-! ## Checksum files -/

theorem splitOnP_plain {p : Char → Bool} {text part : List Char} (inside : part ∈ text.splitOnP p) :
    ∀ c ∈ part, p c = false := by
  induction text generalizing part with
  | nil =>
    rw [List.splitOnP_nil, List.mem_singleton] at inside
    subst inside
    intro c absurd_
    cases absurd_
  | cons c text ih =>
    rw [List.splitOnP_cons_eq_if_modifyHead] at inside
    split at inside
    · cases inside with
      | head =>
        intro d absurd_
        cases absurd_
      | tail _ inside => exact ih inside
    · rename_i other
      obtain ⟨first, rest, split⟩ := List.exists_cons_of_ne_nil (List.splitOnP_ne_nil p text)
      rw [split, List.modifyHead_cons] at inside
      cases inside with
      | head =>
        intro d here
        cases here with
        | head => exact Bool.eq_false_iff.mpr other
        | tail _ here => exact ih (split ▸ List.mem_cons_self) d here
      | tail _ inside => exact ih (split ▸ List.mem_cons_of_mem _ inside)

theorem splitWhitespace_plain {text part : String} (inside : part ∈ splitWhitespace text) :
    ∀ c ∈ part.toList, whiteSpace c = false := by
  obtain ⟨chars, here, rfl⟩ := List.mem_map.mp inside
  rw [String.toList_ofList]
  exact splitOnP_plain (List.mem_of_mem_filter here)

/-- The first field of a checksum file is the digest. -/
theorem splitWhitespace_checksum {digest name : String}
    (plain : ∀ c ∈ digest.toList, whiteSpace c = false) (some_ : digest ≠ "") :
    splitWhitespace s!"{digest}  {name}\n" = digest :: splitWhitespace (name ++ "\n") := by
  have chars : s!"{digest}  {name}\n".toList =
      digest.toList ++ ' ' :: ' ' :: (name ++ "\n").toList := by
    simp [toString]
  have blank : whiteSpace ' ' = true := by decide
  have filled : digest.toList ≠ [] := fun empty => some_ (String.toList_eq_nil_iff.mp empty)
  rw [splitWhitespace, chars, List.splitOnP_append_cons_of_forall_mem plain ' ' blank,
    List.splitOnP_cons_eq_if_modifyHead, if_pos blank, List.filter_cons_of_pos (by simpa using filled),
    List.filter_cons_of_neg (by simp), List.map_cons, String.ofList_toList]
  rfl

/-- A name without white space is a field of its own. -/
theorem splitWhitespace_name {name : String} (plain : ∀ c ∈ name.toList, whiteSpace c = false)
    (some_ : name ≠ "") : splitWhitespace (name ++ "\n") = [name] := by
  have newline : whiteSpace '\n' = true := by decide
  have chars : (name ++ "\n").toList = name.toList ++ ['\n'] := by simp
  have filled : name.toList ≠ [] := fun empty => some_ (String.toList_eq_nil_iff.mp empty)
  rw [splitWhitespace, chars, List.splitOnP_append_cons_of_forall_mem plain '\n' newline,
    List.splitOnP_nil, List.filter_cons_of_pos (by simpa using filled),
    List.filter_cons_of_neg (by simp), List.filter_nil, List.map_cons, List.map_nil,
    String.ofList_toList]

theorem lowerSha256_plain {digest : String} (lower : lowerSha256 digest = true) :
    (∀ c ∈ digest.toList, whiteSpace c = false) ∧ digest ≠ "" := by
  constructor
  · intro c inside
    have table : ∀ n : Fin 128, (48 ≤ n.val ∧ n.val ≤ 57) ∨ (97 ≤ n.val ∧ n.val ≤ 102) →
        whiteSpace (Char.ofNat n) = false := by
      decide
    have range := lowerSha256_chars lower c inside
    have plain := table ⟨c.toNat, by omega⟩ range
    rwa [Char.ofNat_toNat] at plain
  · rintro rfl
    exact absurd lower (by decide)

/-! ## What a command leaves unchanged -/

/-- Only checksum files may differ, and directories stay. -/
structure Keeps (files files' : Files) : Prop where
  same : ∀ path : String, ¬ ".sha256".toList <:+ path.toList → files'.lookup path = files.lookup path
  directories : ∀ path, files.lookup path = some .directory → files'.lookup path = some .directory

theorem Keeps.refl (files : Files) : Keeps files files := ⟨fun _ _ => rfl, fun _ => id⟩

theorem Keeps.trans {a b c : Files} (first : Keeps a b) (second : Keeps b c) : Keeps a c where
  same path other := (second.same path other).trans (first.same path other)
  directories path opened := second.directories path (first.directories path opened)

theorem Keeps.read {files files' : Files} (keeps : Keeps files files') {path : String}
    (other : ¬ ".sha256".toList <:+ path.toList) : files'.read path = files.read path := by
  rw [Files.read, keeps.same path other, Files.read]

/-- No directory is written over. -/
theorem write_directory {files : Files} {path other : String} {bytes : Bytes}
    (writable : files.writable path = true) (opened : files.lookup other = some .directory) :
    (files.write path bytes).lookup other = some .directory := by
  rw [Files.lookup_write_other, opened]
  intro same
  rw [same] at opened
  rw [Files.not_writable_directory opened] at writable
  cases writable

/-- The checksum file of an archive. -/
def checksumPath (archive : String) : String := withFileName archive (fileName archive ++ ".sha256")

def checksumText (digest name : String) : Bytes := encodeUtf8 s!"{digest}  {name}\n"

theorem checksumPath_eq (archive : String) : checksumPath archive = archive ++ ".sha256" := by
  rw [checksumPath, withFileName, ← String.append_assoc, parentPrefix_fileName]

theorem checksumPath_ending (archive : String) :
    ".sha256".toList <:+ (checksumPath archive).toList := by
  rw [checksumPath_eq, String.toList_append]
  exact List.suffix_append _ _

theorem writeChecksum_eq_ok {archive digest : String} {files files' : Files} {u : Unit} :
    (writeChecksum archive digest).outcome files = (.ok u, files') ↔
      files.writable (checksumPath archive) = true ∧
        files' = files.write (checksumPath archive) (checksumText digest (fileName archive)) := by
  have shape : writeChecksum archive digest =
      writeFile (checksumPath archive) (checksumText digest (fileName archive)) := by
    simp [writeChecksum, checksumPath, checksumText, toString]
  rw [shape, writeFile_eq_ok]

/-! ## Publishing -/

section

variable {V : Type} [SemVer V] [Crates V] [ContainerCrates]
variable {app : App} {files files' : Files} {archive versionText : String} {version : V}

omit [ContainerCrates] in
theorem keeps_checksum {files : Files} {archive : String}
    (writable : files.writable (checksumPath archive) = true) (bytes : Bytes) :
    Keeps files (files.write (checksumPath archive) bytes) where
  same path plain := by
    refine Files.lookup_write_other fun same => plain ?_
    rw [same]
    exact checksumPath_ending archive
  directories _ := write_directory writable

/-- What the probe of an archive says about its file. -/
theorem probeArchive_eq_ok {probe : ArtifactProbe}
    (ended : (probeArchive V app archive versionText).outcome files = (.ok probe, files')) :
    files' = files ∧ isArchiveName app archive = true ∧
      ∃ bytes, files.read archive = some bytes ∧ probe.size = bytes.length ∧
        probe.sha256 = Crates.sha256 V bytes ∧
        ∀ target, Target.fromStr probe.target = .ok target →
          fileName archive = app.archivePrefix ++ versionText ++ "-" ++ target.asStr ++
            target.archiveSuffix := by
  simp only [probeArchive, Script.bind_eq_ok, outcome_lift, Prod.mk.injEq, check_eq_ok,
    orError_eq_ok, outcome_pure] at ended
  obtain ⟨_, _, ⟨named, rfl⟩, targetText, _, ⟨stripped, rfl⟩, _, _, ⟨known, rfl⟩, _, _,
    ⟨format, rfl⟩, bytes, _, read, rest⟩ := ended
  obtain ⟨launcherName, _, ⟨_, rfl⟩, contents, _, ⟨_, rfl⟩, _, _, ⟨_, rfl⟩, _, _, ⟨_, rfl⟩, same,
    rfl⟩ := rest
  obtain ⟨found, rfl⟩ := (readFile_eq_ok _).mp read
  cases same
  refine ⟨rfl, named, bytes, found, rfl, rfl, fun target parsed => ?_⟩
  have text : target.asStr = targetText := Target.asStr_fromStr _ _ parsed
  have windows : targetIsWindows targetText = target.isWindows := by
    rw [targetIsWindows, parsed]
  rw [windows] at format
  obtain ⟨stem, unsuffixed, unprefixed⟩ := Option.bind_eq_some_iff.mp stripped
  rw [stripSuffix_eq_some] at unsuffixed
  rw [stripPrefix_eq_some] at unprefixed
  rw [unsuffixed, unprefixed, text, Target.archiveSuffix, format]
  by_cases zip : endsWith (fileName archive) ".zip" = true
  · rw [if_pos zip]
    rfl
  · rw [if_neg zip]
    rfl

omit [Crates V] [ContainerCrates] in
theorem parseVersion_eq_ok {v : V} :
    parseVersion V versionText = .ok v ↔ SemVer.toText v = versionText := by
  simp only [parseVersion, Durable.bind_eq_ok, check_eq_ok, mapError_eq_ok, pure_eq_ok]
  constructor
  · intro parsed
    obtain ⟨w, _, _, canonical, rfl⟩ := parsed
    exact canonical
  · intro canonical
    subst canonical
    exact ⟨v, SemVer.parse_toText v, (), rfl, rfl⟩

omit [Crates V] [ContainerCrates] in
/-- The fields of a probed asset that the archive file decides. -/
theorem probedAsset_eq_ok {target : Target} {probe : ArtifactProbe} {asset : ReleaseAsset}
    (made : probedAsset app version target probe = .ok asset) :
    asset.archive = target.archiveName app version ∧ asset.archiveSize = probe.size ∧
      asset.archiveSha256 = probe.sha256 := by
  unfold probedAsset at made
  split at made
  · simp only [Durable.bind_eq_ok, orError_eq_ok, pure_eq_ok] at made
    obtain ⟨launcher, _, protocol, _, rfl⟩ := made
    rw [ReleaseAsset.withLauncher]
    split
    · exact ⟨rfl, rfl, rfl⟩
    · exact ⟨rfl, rfl, rfl⟩
  · cases pure_eq_ok.mp made
    exact ⟨rfl, rfl, rfl⟩

/-- An archive in its place with its checksum file, as its asset lists it. -/
structure Published (app : App) (version : V) (files : Files) (path : String) (target : Target)
    (asset : ReleaseAsset) : Prop where
  archive : isArchiveName app path = true
  canonical : asset.archive = target.archiveName app version
  name : fileName path = asset.archive
  content : ∃ bytes, files.read path = some bytes ∧
    (∃ release, inspectArchive V app bytes asset = .ok release) ∧
    bytes.length = asset.archiveSize ∧ Crates.sha256 V bytes = asset.archiveSha256
  checksum : files.read (checksumPath path) = some (checksumText asset.archiveSha256 asset.archive)

theorem publishArchive_eq_ok {targets targets' : Target → Option ReleaseAsset}
    (versioned : SemVer.toText version = versionText)
    (ended : (publishArchive app versionText version targets archive).outcome files =
      (.ok targets', files')) :
    files.writable (checksumPath archive) = true ∧
      (∃ bytes, files' = files.write (checksumPath archive) bytes) ∧
      ∃ target asset, targets target = none ∧
        targets' = Function.update targets target (some asset) ∧
        Published app version files' archive target asset := by
  simp only [publishArchive, Script.bind_eq_ok, outcome_lift, Prod.mk.injEq, check_eq_ok,
    outcome_pure] at ended
  obtain ⟨probe, _, probed, target, _, ⟨parsed, rfl⟩, asset, _, ⟨made, rfl⟩, bytes, _, read,
    release, _, ⟨inspected, rfl⟩, _, _, wrote, _, _, ⟨fresh, rfl⟩, same, rfl⟩ := ended
  obtain ⟨rfl, named, content, found, size, digest, path⟩ := probeArchive_eq_ok probed
  obtain ⟨found', rfl⟩ := (readFile_eq_ok _).mp read
  obtain ⟨writable, rfl⟩ := writeChecksum_eq_ok.mp wrote
  have bytesSame : content = bytes := Option.some.inj (found.symm.trans found')
  subst bytesSame
  cases same
  obtain ⟨canonical, archiveSize, archiveSha256⟩ := probedAsset_eq_ok made
  have name : fileName archive = asset.archive := by
    rw [path target parsed, canonical, archiveName_eq, archiveEnding, versioned]
    simp only [String.append_assoc]
  have other : archive ≠ checksumPath archive := by
    intro same
    have ending := checksumPath_ending archive
    rw [← same] at ending
    exact isArchiveName_ending named (by simp) ending
  refine ⟨writable, ⟨_, rfl⟩, target, asset, fresh, rfl, named, canonical, name,
    ⟨content, ?_, ⟨release, mapError_eq_ok.mp inspected⟩, ?_, ?_⟩, ?_⟩
  · rw [Files.read_write_other other, found]
  · rw [archiveSize, size]
  · rw [archiveSha256, digest]
  · rw [Files.read_write_same, archiveSha256, name]

omit [ContainerCrates] in
/-- Files other than the archive and its checksum file do not matter. -/
theorem Published.write {path : String} {target : Target} {asset : ReleaseAsset}
    (published : Published app version files path target asset) {other : String}
    (archive : path ≠ other) (checksum : checksumPath path ≠ other) (bytes : Bytes) :
    Published app version (files.write other bytes) path target asset where
  archive := published.archive
  canonical := published.canonical
  name := published.name
  content := by
    obtain ⟨content, found, rest⟩ := published.content
    exact ⟨content, by rw [Files.read_write_other archive, found], rest⟩
  checksum := by
    rw [Files.read_write_other checksum, published.checksum]

omit [ContainerCrates] in
theorem Published.writeChecksum {path : String} {target : Target} {asset : ReleaseAsset}
    (published : Published app version files path target asset) {other : String}
    (different : path ≠ other) (bytes : Bytes) :
    Published app version (files.write (checksumPath other) bytes) path target asset := by
  refine published.write ?_ ?_ bytes
  · intro same
    have known : ".sha256" ∈ [".sha256", "-release.json", "-release.signatures.json"] := by simp
    apply isArchiveName_ending published.archive known
    rw [same]
    exact checksumPath_ending other
  · intro same
    rw [checksumPath_eq, checksumPath_eq] at same
    have chars := congrArg String.toList same
    rw [String.toList_append, String.toList_append] at chars
    exact different (String.toList_injective (List.append_cancel_right chars))

/-- All listed archives are in their places. -/
structure AllPublished (app : App) (version : V) (files : Files) (paths : List String)
    (targets : Target → Option ReleaseAsset) : Prop where
  listed : ∀ target asset, targets target = some asset →
    ∃ path ∈ paths, Published app version files path target asset
  covered : ∀ path ∈ paths, ∃ target asset, targets target = some asset ∧
    Published app version files path target asset

omit [ContainerCrates] in
theorem allPublished_nil (files : Files) :
    AllPublished app version files [] fun _ => none where
  listed _ _ absent := by cases absent
  covered _ absent := by cases absent

/-- Publishing the archives one by one publishes them all. -/
theorem publishArchives_eq_ok {paths done : List String} {targets targets' : Target → Option ReleaseAsset}
    (versioned : SemVer.toText version = versionText) (distinct : (done ++ paths).Nodup)
    (before : AllPublished app version files done targets)
    (ended : (publishArchives app versionText version targets paths).outcome files =
      (.ok targets', files')) :
    Keeps files files' ∧ AllPublished app version files' (done ++ paths) targets' := by
  induction paths generalizing done targets files with
  | nil =>
    cases ended
    rw [List.append_nil]
    exact ⟨Keeps.refl _, before⟩
  | cons path paths ih =>
    rw [publishArchives] at ended
    obtain ⟨next, files₁, first, rest⟩ := Script.bind_eq_ok.mp ended
    obtain ⟨writable, ⟨bytes, rfl⟩, target, asset, fresh, rfl, published⟩ :=
      publishArchive_eq_ok versioned first
    have apart : ∀ earlier ∈ done, earlier ≠ path := by
      intro earlier inside same
      rw [List.nodup_append] at distinct
      exact distinct.2.2 earlier inside path List.mem_cons_self same
    have whole : (done ++ [path]) ++ paths = done ++ path :: paths := by
      rw [List.append_assoc, List.singleton_append]
    have after : AllPublished app version (files.write (checksumPath path) bytes) (done ++ [path])
        (Function.update targets target (some asset)) := by
      constructor
      · intro other found here
        by_cases same : other = target
        · subst same
          rw [Function.update_self] at here
          cases here
          exact ⟨path, List.mem_append_right _ List.mem_cons_self, published⟩
        · rw [Function.update_of_ne same] at here
          obtain ⟨earlier, inside, known⟩ := before.listed other found here
          exact ⟨earlier, List.mem_append_left _ inside, known.writeChecksum (apart earlier inside) bytes⟩
      · intro other inside
        rcases List.mem_append.mp inside with earlier | here
        · obtain ⟨t, a, here, known⟩ := before.covered other earlier
          have different : t ≠ target := by
            intro same
            rw [same, fresh] at here
            cases here
          exact ⟨t, a, by rw [Function.update_of_ne different, here],
            known.writeChecksum (apart other earlier) bytes⟩
        · obtain rfl := List.mem_singleton.mp here
          exact ⟨target, asset, Function.update_self .., published⟩
    obtain ⟨keeps, all⟩ := ih (by rwa [whole]) after rest
    rw [whole] at all
    exact ⟨(keeps_checksum writable bytes).trans keeps, all⟩

/-! ## The manifest command -/

omit [ContainerCrates] in
theorem readDir_eq_ok {directory : String} {paths : List String} :
    (readDir directory).outcome files = (.ok paths, files') ↔
      files.lookup directory = some .directory ∧ files' = files ∧
        paths = files.keys.filter fun path => parentPrefix path == directory ++ "/" := by
  constructor
  · intro ended
    rw [readDir, Script.bind_ok (outcome_get files)] at ended
    obtain ⟨_, _, opened, ended⟩ := Script.bind_eq_ok.mp ended
    rw [outcome_lift, Prod.mk.injEq, check_eq_ok] at opened
    obtain ⟨opened, rfl⟩ := opened
    cases ended
    exact ⟨opened, rfl, rfl⟩
  · intro parts
    obtain ⟨opened, rfl, rfl⟩ := parts
    rw [readDir, Script.bind_ok (outcome_get _), lift_bind_ok (check_pass opened)]
    rfl

/-- A directory whose archives are published, and nothing else. -/
structure OnlyArtifacts (args : Arguments) (directory : String) : Prop where
  directory : args.optionalOne "artifacts-dir" = .ok (some directory)
  archives : args.many "archive" = []
  positionals : args.positionals = []

omit [ContainerCrates] in
theorem collectArchives_eq_ok {args : Arguments} {directory : String} {paths : List String}
    (only : OnlyArtifacts args directory)
    (ended : (collectArchives args app).outcome files = (.ok paths, files')) :
    files' = files ∧ files.lookup directory = some .directory ∧ paths.Nodup ∧
      ∀ path, path ∈ paths ↔ (files.read path).isSome = true ∧ isArchiveName app path = true ∧
        parentPrefix path = directory ++ "/" := by
  simp only [collectArchives, only.archives, only.positionals, Script.bind_eq_ok, outcome_lift,
    outcome_pure, Prod.mk.injEq, List.append_nil] at ended
  obtain ⟨listed, store, found, _, _, ⟨_, rfl⟩, same, rfl⟩ := ended
  cases same
  rw [directoryArchives, lift_bind_ok only.directory] at found
  obtain ⟨entries, _, read, found⟩ := Script.bind_eq_ok.mp found
  obtain ⟨opened, rfl, rfl⟩ := readDir_eq_ok.mp read
  rw [Script.bind_ok (outcome_get _)] at found
  cases found
  have sorted := List.perm_insertionSort PathOrder ((store.keys.filter fun path =>
    parentPrefix path == directory ++ "/").filter fun path =>
      (store.read path).isSome && isArchiveName app path)
  have distinct := sorted.nodup_iff.mpr ((store.keys_nodup.filter _).filter _)
  have chain := List.destutter_of_isChain (· ≠ ·) _ distinct.isChain
  rw [chain]
  refine ⟨rfl, opened, distinct, fun path => ?_⟩
  rw [sorted.mem_iff, List.mem_filter, List.mem_filter, Bool.and_eq_true, beq_iff_eq]
  constructor
  · intro inside
    exact ⟨inside.2.1, inside.2.2, inside.1.2⟩
  · intro parts
    obtain ⟨isFile, archive, below⟩ := parts
    refine ⟨⟨?_, below⟩, isFile, archive⟩
    rw [← AList.mem_keys, ← AList.lookup_isSome]
    obtain ⟨bytes, content⟩ := Option.isSome_iff_exists.mp isFile
    rw [Files.read_eq_some.mp content]
    rfl

variable [JsonText] [SigningCrates V] [PublishingCrates V]

/-- What a successful manifest command has done. -/
structure Generated (run : Invocation) (directory : String) (files middle files' : Files)
    (paths : List String) (app : App) (output : String) (manifest : ReleaseManifest V) : Prop where
  named : appFromArgs run.args = .ok app
  written : run.args.one "output" = .ok output
  opened : files.lookup directory = some .directory
  found : ∀ path, path ∈ paths ↔ (files.read path).isSome = true ∧
    isArchiveName app path = true ∧ parentPrefix path = directory ++ "/"
  keeps : Keeps files middle
  writable : middle.writable output = true
  published : AllPublished app manifest.version middle paths manifest.targets
  valid : manifest.validate (Crates.readTime V) app = .ok ()
  result : files' = middle.write output (printJson (Codecs.releaseManifest.encode manifest))

theorem generateManifest_eq_ok {run : Invocation} {directory : String}
    (only : OnlyArtifacts run.args directory)
    (ended : (generateManifest V run).outcome files = (.ok (), files')) :
    ∃ middle paths app output, ∃ manifest : ReleaseManifest V,
      Generated run directory files middle files' paths app output manifest := by
  simp only [generateManifest, Script.bind_eq_ok, outcome_lift, Prod.mk.injEq] at ended
  obtain ⟨app, _, ⟨named, rfl⟩, versionText, _, ⟨_, rfl⟩, version, _, ⟨parsed, rfl⟩, output, _,
    ⟨written, rfl⟩, paths, _, collected, targets, middle, published, expiresAt, _, ⟨_, rfl⟩,
    manifest, _, ⟨made, rfl⟩, bytes, _, ⟨encoded, rfl⟩, wrote⟩ := ended
  obtain ⟨rfl, opened, distinct, found⟩ := collectArchives_eq_ok only collected
  have versioned := parseVersion_eq_ok.mp (mapError_eq_ok.mp parsed)
  obtain ⟨keeps, all⟩ := publishArchives_eq_ok versioned (by rwa [List.nil_append])
    (allPublished_nil _) published
  obtain ⟨writable, rfl⟩ := writeFile_eq_ok.mp wrote
  have created := mapError_eq_ok.mp made
  simp only [ReleaseManifest.new, Durable.bind_eq_ok, pure_eq_ok] at created
  obtain ⟨_, valid, rfl⟩ := created
  have printed := mapError_eq_ok.mp encoded
  simp only [ManifestJson.toBytes, Durable.bind_eq_ok, pure_eq_ok] at printed
  obtain ⟨_, _, rfl⟩ := printed
  exact ⟨middle, paths, app, output, _, named, written, opened, found, keeps, writable,
    by rwa [List.nil_append] at all, valid, rfl⟩

omit [Crates V] [ContainerCrates] [JsonText] [SigningCrates V] [PublishingCrates V] in
theorem validate_targets {manifest : ReleaseManifest V} {readTime : TimestampReader}
    (valid : manifest.validate readTime app = .ok ()) {target : Target} {asset : ReleaseAsset}
    (listed : manifest.targets target = some asset) :
    CanonicalAsset app manifest.version target asset := by
  simp only [ReleaseManifest.validate, Durable.bind_eq_ok] at valid
  obtain ⟨_, _, _, _, _, _, _, _, _, _, targets⟩ := valid
  exact validate_eq_ok.mp (Installation.validateTargets_eq_ok targets (Target.mem_all target) listed)

omit [Crates V] [ContainerCrates] [JsonText] [SigningCrates V] [PublishingCrates V] in
/-- Validated manifests have a target. -/
theorem validate_listed {manifest : ReleaseManifest V} {readTime : TimestampReader}
    (valid : manifest.validate readTime app = .ok ()) :
    ∃ target asset, manifest.targets target = some asset := by
  simp only [ReleaseManifest.validate, Durable.bind_eq_ok, check_eq_ok] at valid
  obtain ⟨_, _, _, _, _, _, _, _, _, some_, _⟩ := valid
  obtain ⟨target, inside⟩ := List.exists_mem_of_ne_nil _ some_
  obtain ⟨asset, listed⟩ := Option.isSome_iff_exists.mp (List.mem_filter.mp inside).2
  exact ⟨target, asset, listed⟩

omit [ContainerCrates] [JsonText] in
theorem launcherProtocol_of_args {args : Arguments} (named : appFromArgs args = .ok app) :
    app.launcherProtocol = some 1 := by
  simp only [appFromArgs, Durable.bind_eq_ok, pure_eq_ok] at named
  obtain ⟨_, _, _, _, rfl⟩ := named
  rfl

omit [Crates V] [ContainerCrates] [JsonText] [SigningCrates V] [PublishingCrates V] in
theorem manifest_inRange {manifest : ReleaseManifest V} {readTime : TimestampReader}
    (protocol : app.launcherProtocol = some 1)
    (valid : manifest.validate readTime app = .ok ()) :
    Codecs.releaseManifest.InRange manifest := by
  have schema : manifest.schemaVersion = manifestSchemaVersion := by
    simp only [ReleaseManifest.validate, Durable.bind_eq_ok, check_eq_ok] at valid
    exact valid.choose_spec.1
  have small : manifestSchemaVersion < 2 ^ 32 := by decide
  have archiveBound : maxArchiveSize < 2 ^ 64 := by decide
  have memberBound : maxMemberSize < 2 ^ 64 := by decide
  rw [← schema] at small
  refine ⟨small, trivial, trivial, trivial, fun target asset listed => ?_⟩
  have canonical := validate_targets valid listed
  refine Codecs.releaseAsset_inRange (by have := canonical.archiveSize.2; omega)
    (by have := canonical.size.2; omega) fun launcher here => ?_
  obtain ⟨_, absent⟩ | ⟨other, signed⟩ := canonical.launcher
  · rw [absent] at here
    cases here
  · have same : other = launcher := Option.some.inj (signed.listed.symm.trans here)
    subst same
    have bound := signed.size.2
    have first := signed.protocol
    rw [Target.launcherProtocol, if_pos signed.windows, protocol, Option.getD_some] at first
    exact ⟨by omega, by omega⟩

omit [ContainerCrates] [SigningCrates V] in
/-- A written manifest is read as what was written. -/
theorem fromBytes_printed {manifest found : ReleaseManifest V} {args : Arguments}
    (named : appFromArgs args = .ok app)
    (valid : manifest.validate (Crates.readTime V) app = .ok ())
    (read : ReleaseManifest.fromBytes app (printJson (Codecs.releaseManifest.encode manifest)) =
      .ok found) : found = manifest := by
  have inRange := manifest_inRange (launcherProtocol_of_args named) valid
  simp only [ReleaseManifest.fromBytes, Durable.bind_eq_ok, mapError_eq_ok, pure_eq_ok] at read
  obtain ⟨_, _, decoded, read, _, _, rfl⟩ := read
  rw [PublishingCrates.decodeManifest_eq, JsonText.parse_print _
    ((Codecs.releaseManifest.encode_shallow manifest).mono (by change 4 ≤ 127; omega)), ok_bind,
    Codecs.releaseManifest.decode_encode manifest inRange] at read
  exact (Except.ok.inj read).symm

/-! ## The verify command -/

/-- A name that a checksum file carries unharmed. -/
def CarriedName (name : String) : Prop :=
  (∀ c ∈ name.toList, whiteSpace c = false) ∧ name.toList.head? ≠ some '*'

omit [ContainerCrates] [JsonText] in
theorem trimStartStars_eq {name : String} (plain : name.toList.head? ≠ some '*') :
    trimStartStars name = name := by
  apply String.toList_injective
  rw [trimStartStars, String.toList_ofList]
  cases chars : name.toList with
  | nil => rfl
  | cons c rest =>
    rw [chars, List.head?_cons] at plain
    apply List.dropWhile_cons_of_neg
    rw [beq_iff_eq]
    intro same
    exact plain (congrArg some same)

omit [ContainerCrates] [JsonText] in
theorem carried_of_trimmed {part name : String} (plain : ∀ c ∈ part.toList, whiteSpace c = false)
    (trimmed : trimStartStars part = name) : CarriedName name := by
  subst trimmed
  rw [CarriedName, trimStartStars, String.toList_ofList]
  constructor
  · intro c inside
    exact plain c ((List.dropWhile_sublist _).subset inside)
  · intro star
    have stops := List.head?_dropWhile_not (fun c => c == '*') part.toList
    rw [star] at stops
    cases stops

omit [ContainerCrates] [JsonText] in
theorem checkListing_eq_ok (location : String) {digest name : String} (lower : lowerSha256 digest = true)
    (some_ : name ≠ "") :
    checkListing location s!"{digest}  {name}\n" name digest = .ok () ↔ CarriedName name := by
  obtain ⟨plain, filled⟩ := lowerSha256_plain lower
  simp only [checkListing, splitWhitespace_checksum plain filled, Durable.bind_eq_ok, orError_eq_ok,
    check_eq_ok, List.getElem?_cons_zero, List.getElem?_cons_succ]
  constructor
  · intro accepted
    obtain ⟨_, _, listed, second, _, _, trimmed, _⟩ := accepted
    exact carried_of_trimmed (splitWhitespace_plain (List.mem_of_getElem? second)) trimmed
  · intro carried
    rw [splitWhitespace_name carried.1 some_]
    exact ⟨digest, rfl, name, rfl, rfl, lower, trimStartStars_eq carried.2, rfl⟩

omit [ContainerCrates] [JsonText] [SigningCrates V] [PublishingCrates V] in
theorem readOnly_verifyChecksumFile (path expected : String) :
    ReadOnly Gains (verifyChecksumFile V path expected) := by
  refine ReadOnly.bind (readOnly_readFile _ _) fun _ => ReadOnly.bind (ReadOnly.lift _) fun _ => ?_
  refine ReadOnly.bind (ReadOnly.lift _) fun _ => ?_
  exact ReadOnly.bind (readOnly_readFile _ _) fun _ => ReadOnly.lift _

omit [SigningCrates V] [PublishingCrates V] [ContainerCrates] [JsonText] in
/-- The checksum file of a published archive is accepted exactly when it carries the name. -/
theorem verifyChecksumFile_iff {path : String} {target : Target} {asset : ReleaseAsset}
    (published : Published app version files path target asset)
    (digest : lowerSha256 asset.archiveSha256 = true) (some_ : asset.archive ≠ "") :
    (verifyChecksumFile V path asset.archiveSha256).outcome files = (.ok (), files) ↔
      CarriedName asset.archive := by
  obtain ⟨content, found, _, _, same⟩ := published.content
  have readChecksum := (readFile_eq_ok "").mpr ⟨published.checksum, rfl⟩
  have readContent := (readFile_eq_ok "").mpr ⟨found, rfl⟩
  have location : withFileName path s!"{fileName path}.sha256" = checksumPath path := rfl
  have text : decodeUtf8 (checksumText asset.archiveSha256 asset.archive) =
      some s!"{asset.archiveSha256}  {asset.archive}\n" := decodeUtf8_encodeUtf8 _
  have listed := checkListing_eq_ok (checksumPath path) digest some_
  simp only [verifyChecksumFile, location]
  rw [Script.bind_ok readChecksum, lift_bind_ok (orError_eq_ok.mpr text), published.name]
  constructor
  · intro accepted
    obtain ⟨_, _, named, _⟩ := Script.bind_eq_ok.mp accepted
    rw [outcome_lift, Prod.mk.injEq] at named
    exact listed.mp named.1
  · intro carried
    rw [lift_bind_ok (listed.mpr carried), Script.bind_ok readContent, same, check_pass rfl]
    rfl

variable {manifest : ReleaseManifest V} {directory : String}

def listedArchives (manifest : ReleaseManifest V) (list : List Target) : List String :=
  list.filterMap fun target => (manifest.targets target).map ReleaseAsset.archive

omit [SemVer V] [Crates V] [ContainerCrates] [JsonText] [SigningCrates V] [PublishingCrates V] in
theorem mem_listedArchives {list : List Target} {name : String} :
    name ∈ listedArchives manifest list ↔
      ∃ target ∈ list, ∃ asset, manifest.targets target = some asset ∧ asset.archive = name := by
  simp only [listedArchives, List.mem_filterMap, Option.map_eq_some_iff]

/-- Every listed archive is published in the directory. -/
def InPlace (app : App) (manifest : ReleaseManifest V) (directory : String) (files : Files) : Prop :=
  ∀ target asset, manifest.targets target = some asset →
    Published app manifest.version files (joinPath directory asset.archive) target asset

omit [Crates V] [ContainerCrates] [JsonText] [SigningCrates V] [PublishingCrates V] in
theorem CanonicalAsset.archive_some {target : Target} {asset : ReleaseAsset}
    (canonical : CanonicalAsset app version target asset) : asset.archive ≠ "" := by
  have basename := canonical.basename
  simp only [validateBasename, check_eq_ok] at basename
  exact basename.1

omit [ContainerCrates] [JsonText] [SigningCrates V] [PublishingCrates V] in
theorem readOnly_verifyTargets (directory : String) (expected : List String) (list : List Target) :
    ReadOnly Gains (verifyTargets V app manifest directory expected list) := by
  induction list generalizing expected with
  | nil => exact ReadOnly.pure _
  | cons target rest ih =>
    rw [verifyTargets]
    split
    · exact ih expected
    · refine ReadOnly.bind (ReadOnly.lift _) fun _ => ReadOnly.bind (readOnly_readFile _ _) fun _ => ?_
      refine ReadOnly.bind (ReadOnly.lift _) fun _ => ReadOnly.bind (ReadOnly.lift _) fun _ => ?_
      exact ReadOnly.bind (readOnly_verifyChecksumFile _ _) fun _ => ih _

omit [SigningCrates V] [PublishingCrates V] [ContainerCrates] [JsonText] in
theorem verifyTargets_iff (inPlace : InPlace app manifest directory files)
    (valid : manifest.validate (Crates.readTime V) app = .ok ()) {list : List Target}
    {expected names : List String} (distinct : list.Nodup)
    (apart : ∀ name ∈ listedArchives manifest list, name ∉ expected) :
    (verifyTargets V app manifest directory expected list).outcome files = (.ok names, files) ↔
      names = (listedArchives manifest list).reverse ++ expected ∧
        ∀ name ∈ listedArchives manifest list, CarriedName name := by
  induction list generalizing expected with
  | nil =>
    rw [verifyTargets, outcome_pure, Prod.mk.injEq, Except.ok.injEq]
    constructor
    · intro same
      exact ⟨same.1.symm, fun _ absent => by cases absent⟩
    · intro same
      exact ⟨same.1.symm, rfl⟩
  | cons target rest ih =>
    rw [List.nodup_cons] at distinct
    rw [verifyTargets]
    cases listed : manifest.targets target with
    | none =>
      have skipped : listedArchives manifest (target :: rest) = listedArchives manifest rest := by
        rw [listedArchives, List.filterMap_cons, listed]
        rfl
      rw [skipped] at apart ⊢
      exact ih distinct.2 apart
    | some asset =>
      have split : listedArchives manifest (target :: rest) =
          asset.archive :: listedArchives manifest rest := by
        rw [listedArchives, List.filterMap_cons, listed]
        rfl
      rw [split] at apart ⊢
      have canonical := validate_targets valid listed
      have published := inPlace target asset listed
      obtain ⟨content, found, ⟨release, inspected⟩, size, digest⟩ := published.content
      have checksum := verifyChecksumFile_iff published canonical.archiveDigest
        (CanonicalAsset.archive_some canonical)
      have others : ∀ name ∈ listedArchives manifest rest, name ∉ asset.archive :: expected := by
        intro name inside known
        rcases List.mem_cons.mp known with same | known
        · obtain ⟨other, here, otherAsset, otherListed, otherName⟩ := mem_listedArchives.mp inside
          have otherCanonical := validate_targets valid otherListed
          have archives := otherCanonical.archive.symm.trans
            (otherName.trans (same.trans canonical.archive))
          exact distinct.1 (target_of_archiveName archives ▸ here)
        · exact apart name (List.mem_cons_of_mem _ inside) known
      dsimp only
      rw [lift_bind_ok (check_pass (apart _ List.mem_cons_self)),
        Script.bind_ok ((readFile_eq_ok "").mpr ⟨found, rfl⟩),
        lift_bind_ok (mapError_eq_ok.mpr inspected), lift_bind_ok (check_pass size)]
      constructor
      · intro accepted
        obtain ⟨_, middle, carried, later⟩ := Script.bind_eq_ok.mp accepted
        have same := (readOnly_verifyChecksumFile _ _ files files middle _ (fun _ _ => id) carried).1
        subst same
        obtain ⟨rfl, names⟩ := (ih distinct.2 others).mp later
        refine ⟨by simp, fun name inside => ?_⟩
        rcases List.mem_cons.mp inside with rfl | inside
        · exact checksum.mp carried
        · exact names name inside
      · intro both
        obtain ⟨rfl, carried⟩ := both
        rw [Script.bind_ok (checksum.mpr (carried _ List.mem_cons_self))]
        refine (ih distinct.2 others).mpr ⟨by simp, fun name inside => ?_⟩
        exact carried name (List.mem_cons_of_mem _ inside)

omit [Crates V] [ContainerCrates] [JsonText] [SigningCrates V] [PublishingCrates V] in
/-- The rest of an archive name carries no white space and no star. -/
theorem carriedName_archiveName {target : Target} :
    CarriedName (target.archiveName app version) ↔ CarriedName app.name := by
  have ending : ∀ target : Target,
      (archiveEnding target).toList.all (fun c => !whiteSpace c) = true := by
    intro target
    cases target <;> decide +kernel
  have chars : (target.archiveName app version).toList = app.name.toList ++
      '-' :: ((SemVer.toText version).toList ++ (archiveEnding target).toList) := by
    rw [archiveName_eq, App.archivePrefix]
    simp
  have hyphen : whiteSpace '-' = false := by decide
  rw [CarriedName, CarriedName, chars]
  refine and_congr ⟨fun plain c inside => plain c (List.mem_append_left _ inside), ?_⟩ ?_
  · intro plain c inside
    rcases List.mem_append.mp inside with inName | rest
    · exact plain c inName
    · rcases List.mem_cons.mp rest with rfl | rest
      · exact hyphen
      · rcases List.mem_append.mp rest with inVersion | inEnding
        · exact (versionChar_cases (SemVer.toText_chars version c inVersion)).1
        · have plain := List.all_eq_true.mp (ending target) c inEnding
          rwa [Bool.not_eq_true'] at plain
  · cases app.name.toList with
    | nil => simp
    | cons c rest => simp

omit [SigningCrates V] [PublishingCrates V] [ContainerCrates] [JsonText] in
theorem verifyArtifacts_iff (inPlace : InPlace app manifest directory files)
    (valid : manifest.validate (Crates.readTime V) app = .ok ())
    (opened : files.lookup directory = some .directory) :
    (verifyArtifacts V app manifest directory).outcome files = (.ok (), files) ↔
      CarriedName app.name ∧ ∀ path ∈ files.keys, parentPrefix path = directory ++ "/" →
        isArchiveName app path = true → fileName path ∈ listedArchives manifest Target.all := by
  have all : Target.all.Nodup := by decide
  have targets : ∀ names, _ ↔ names = _ ++ [] ∧ _ := fun names =>
    verifyTargets_iff inPlace valid all fun _ _ => List.not_mem_nil
  have carried : (∀ name ∈ listedArchives manifest Target.all, CarriedName name) ↔
      CarriedName app.name := by
    constructor
    · intro each
      obtain ⟨target, asset, listed⟩ := validate_listed valid
      have named := each asset.archive
        (mem_listedArchives.mpr ⟨target, Target.mem_all target, asset, listed, rfl⟩)
      rw [(validate_targets valid listed).archive] at named
      exact carriedName_archiveName.mp named
    · intro plain name inside
      obtain ⟨target, _, asset, listed, rfl⟩ := mem_listedArchives.mp inside
      rw [(validate_targets valid listed).archive]
      exact carriedName_archiveName.mpr plain
  rw [verifyArtifacts, Script.bind_ok (outcome_get files), lift_bind_ok (check_pass opened)]
  have read := readDir_eq_ok.mpr ⟨opened, rfl, rfl⟩
  have unlisted : ∀ expected : List String, (∀ name, name ∈ expected ↔
      name ∈ listedArchives manifest Target.all) →
      (((files.keys.filter fun path => parentPrefix path == directory ++ "/").find? fun path =>
        isArchiveName app path && !expected.contains (fileName path)) = none ↔
      ∀ path ∈ files.keys, parentPrefix path = directory ++ "/" → isArchiveName app path = true →
        fileName path ∈ listedArchives manifest Target.all) := by
    intro expected same
    rw [List.find?_eq_none]
    simp only [List.mem_filter, beq_iff_eq, Bool.and_eq_true, Bool.not_eq_true',
      List.contains_eq_mem, decide_eq_false_iff_not, same, not_and, not_not, and_imp]
  have reversed : ∀ name, name ∈ (listedArchives manifest Target.all).reverse ++ [] ↔
      name ∈ listedArchives manifest Target.all := by
    simp
  constructor
  · intro accepted
    obtain ⟨names, middle, verified, later⟩ := Script.bind_eq_ok.mp accepted
    have same := (readOnly_verifyTargets directory [] Target.all files files middle _
      (fun _ _ => id) verified).1
    subst same
    obtain ⟨rfl, plain⟩ := (targets _).mp verified
    rw [Script.bind_ok read] at later
    refine ⟨carried.mp plain, (unlisted _ reversed).mp ?_⟩
    split at later
    · assumption
    · cases later
  · intro both
    obtain ⟨plain, known⟩ := both
    rw [Script.bind_ok ((targets _).mpr ⟨rfl, carried.mpr plain⟩), Script.bind_ok read,
      (unlisted _ reversed).mpr known]
    rfl

end

end Relswap.Tool
