import Relswap.Sample.Web

/-!
# Release bases and manifest URLs

Exact resolution joins a release path to the repository, and latest resolution
cuts the base out of the manifest URL it was redirected to. Both arrive at the
same base, and the base leads back to the manifest.
-/

namespace Relswap

open Durable

variable {V U : Type} [SemVer V] [Crates V] [UrlCrate U] [LawfulUrl U]
variable {app : App} {url repository : U} {directory : String} {v : V}

/-- A hierarchical URL of the given path, without query and fragment. -/
structure At (url : U) (path : String) : Prop where
  rooted : Rooted url
  path : UrlCrate.path url = path
  query : UrlCrate.hasQuery url = false
  fragment : UrlCrate.hasFragment url = false

/-- The path of a release below its repository. -/
def releasePath (v : V) : String := "releases/download/v" ++ SemVer.toText v ++ "/"

/-! ## Plain paths -/

omit [Crates V] in
theorem releasePath_eq (v : V) (name : String) :
    releasePath v ++ name = "releases" ++ "/" ++ "download" ++ "/" ++ tagOf v ++ "/" ++ name := by
  have start : "releases/download/v" = "releases" ++ "/" ++ "download" ++ "/" ++ "v" := rfl
  unfold releasePath tagOf
  generalize SemVer.toText v = text
  rw [start]
  simp only [String.append_assoc]

omit [Crates V] in
theorem plainSegment_tagOf (v : V) : PlainSegment (tagOf v) := by
  have digit := SemVer.toText_digit v
  refine ⟨?_, ?_, ?_⟩
  · intro same
    have chars := congrArg String.toList same
    simp [tagOf] at chars
  · intro same
    have chars := congrArg String.toList same
    simp [tagOf] at chars
  · intro c member
    rw [tagOf, String.toList_append, List.mem_append] at member
    obtain start | inside := member
    · obtain rfl : c = 'v' := by simpa using start
      decide
    · exact urlSafe_of_versionChar (SemVer.toText_chars v c inside)

/-- The metadata file of an application with a plain name. -/
theorem plainSegment_metadata (plain : PlainSegment app.name) :
    PlainSegment app.metadataFilename := by
  apply PlainSegment.append
  · simp
  · exact plain.safe
  · intro c member
    have all : "-release.json".toList.all urlSafe = true := by decide
    exact List.all_eq_true.mp all c member

theorem metadataFilename_ne_empty (app : App) : app.metadataFilename ≠ "" := by
  intro same
  have chars := congrArg String.toList same
  simp [App.metadataFilename] at chars

omit [Crates V] in
theorem plainRelative_release (v : V) {name : String} (plain : PlainSegment name) :
    PlainRelative (releasePath v ++ name) := by
  have releases : PlainSegment "releases" := plainSegment_of_all (by decide) (by decide)
  have download : PlainSegment "download" := plainSegment_of_all (by decide) (by decide)
  rw [releasePath_eq]
  exact (((releases.relative (by decide)).append download).append (plainSegment_tagOf v)).append plain

/-! ## Setting and joining paths -/

theorem At.setPath {path rest : String} (h : At url path)
    (inside : path ++ "/" = directory ++ "/" ++ rest) {name : String} (plain : PlainRelative name) :
    At (UrlCrate.setPath url (directory ++ "/" ++ name)) (directory ++ "/" ++ name) := by
  have set : UrlCrate.path (UrlCrate.setPath url (directory ++ "/" ++ name)) =
      directory ++ "/" ++ name := by
    apply LawfulUrl.path_setPath url directory rest name h.rooted _ (.inr plain)
    rw [h.path, inside]
  constructor
  · obtain ⟨below, rooted⟩ := h.rooted
    rw [h.path] at rooted
    rw [rooted] at inside
    obtain ⟨start, whole⟩ := rooted_directory inside
    exact ⟨start ++ name, by rw [set, whole, String.append_assoc]⟩
  · exact set
  · rw [LawfulUrl.hasQuery_setPath, h.query]
  · rw [LawfulUrl.hasFragment_setPath, h.fragment]

theorem At.setPath_setPath {path rest : String} (h : At url path)
    (inside : path ++ "/" = directory ++ "/" ++ rest) (name second : String) :
    UrlCrate.setPath (UrlCrate.setPath url (directory ++ "/" ++ name)) second =
      UrlCrate.setPath url second := by
  obtain ⟨below, rooted⟩ := h.rooted
  rw [h.path] at rooted
  rw [rooted] at inside
  obtain ⟨start, whole⟩ := rooted_directory inside
  rw [whole, String.append_assoc, LawfulUrl.setPath_setPath _ _ _ h.rooted]

theorem At.join (h : At url (directory ++ "/")) {name : String} (plain : PlainRelative name) :
    UrlCrate.join url name = .ok (UrlCrate.setPath url (directory ++ "/" ++ name)) := by
  rw [LawfulUrl.join_plain url directory name h.rooted h.path plain,
    LawfulUrl.withoutQuery_eq url h.query h.fragment]

/-- The base of a repository ends in a slash. -/
theorem repositoryBase_at (https : UrlCrate.scheme repository = "https")
    (query : UrlCrate.hasQuery repository = false)
    (fragment : UrlCrate.hasFragment repository = false) :
    ∃ base directory, repositoryBase repository = .ok base ∧ At base (directory ++ "/") := by
  have rooted := LawfulUrl.rooted_of_https repository https
  rw [repositoryBase, requireHttps]
  simp only [https, query, fragment, check_pass, ok_bind, and_self]
  split
  · rename_i slash
    obtain ⟨stem, whole⟩ := List.getLast?_eq_some_iff.mp slash
    refine ⟨repository, String.ofList stem, rfl, rooted, ?_, query, fragment⟩
    apply String.toList_injective
    simpa using whole
  · have path : UrlCrate.path (UrlCrate.setPath repository (UrlCrate.path repository ++ "/")) =
        UrlCrate.path repository ++ "/" := by
      have set := LawfulUrl.path_setPath repository (UrlCrate.path repository) "" "" rooted
        (by simp) (.inl rfl)
      simpa using set
    refine ⟨_, UrlCrate.path repository, rfl, ?_, path, ?_, ?_⟩
    · obtain ⟨rest, whole⟩ := rooted
      exact ⟨rest ++ "/", by rw [path, whole, String.append_assoc]⟩
    · rw [LawfulUrl.hasQuery_setPath, query]
    · rw [LawfulUrl.hasFragment_setPath, fragment]

/-! ## Manifest URLs -/

theorem pathSegments_rooted {rest : String} (rooted : UrlCrate.path url = "/" ++ rest) :
    UrlCrate.pathSegments url = some (segmentsOf rest) := by
  rw [LawfulUrl.pathSegments_eq, stripPrefix_eq_some.mpr rooted, Option.map_some]

omit [Crates V] in
/-- A URL that ends in the release path of a version and the metadata file
resolves to that version, and its base is the directory of the manifest. -/
theorem At.manifest (h : At url (directory ++ "/" ++ (releasePath v ++ app.metadataFilename)))
    (plain : PlainSegment app.metadataFilename) :
    versionedManifestUrl V app url = .ok (some v) ∧
      releaseBaseFromManifestUrl V app url =
        .ok (UrlCrate.setPath url (directory ++ "/" ++ releasePath v)) := by
  obtain ⟨rest, rooted⟩ := h.rooted
  have whole : UrlCrate.path url = directory ++ "/" ++ "releases" ++ "/" ++ "download" ++ "/" ++
      tagOf v ++ "/" ++ app.metadataFilename := by
    rw [h.path, releasePath_eq]
    simp only [String.append_assoc]
  have segments : ∃ before, UrlCrate.pathSegments url =
      some (before ++ ["releases", "download", tagOf v, app.metadataFilename]) := by
    have split : segmentsOf (UrlCrate.path url) = segmentsOf directory ++
        ["releases", "download", tagOf v, app.metadataFilename] := by
      rw [whole]
      simp only [segmentsOf_append, plain.segmentsOf, (plainSegment_tagOf v).segmentsOf]
      rw [segmentsOf_plain (by decide : '/' ∉ "releases".toList),
        segmentsOf_plain (by decide : '/' ∉ "download".toList)]
      simp only [List.append_assoc, List.cons_append, List.nil_append]
    rw [rooted, segmentsOf_rooted] at split
    obtain ⟨first, before, parts⟩ := List.exists_cons_of_ne_nil (segmentsOf_ne_nil directory)
    rw [parts, List.cons_append, List.cons.injEq] at split
    exact ⟨before, by rw [pathSegments_rooted rooted, split.2]⟩
  obtain ⟨before, segments⟩ := segments
  have named : versionedManifestUrl V app url = .ok (some v) :=
    versionedManifestUrl_eq_some.mpr
      ⟨_, segments, manifestTag_append _ _ before, h.query, h.fragment⟩
  refine ⟨named, ?_⟩
  have slash : "/releases/download/v" = "/" ++ "releases/download/v" := rfl
  have path := h.path
  unfold releaseBaseFromManifestUrl
  simp only [named, ok_bind, orError]
  rw [LawfulUrl.withoutQuery_eq url h.query h.fragment]
  unfold releasePath at path ⊢
  generalize SemVer.toText v = text at path ⊢
  have strips : stripSuffix (UrlCrate.path url)
      ("/releases/download/v" ++ text ++ "/" ++ app.metadataFilename) = some directory := by
    rw [stripSuffix_eq_some, path, slash]
    simp only [String.append_assoc]
  rw [strips, slash]
  simp only [String.append_assoc]
  rfl

omit [Crates V] in
/-- A URL that resolves to a version ends in the release path of that version. -/
theorem at_of_versionedManifestUrl (named : versionedManifestUrl V app url = .ok (some v)) :
    ∃ directory, At url (directory ++ "/" ++ (releasePath v ++ app.metadataFilename)) := by
  obtain ⟨segments, path, tagged, query, fragment⟩ := versionedManifestUrl_eq_some.mp named
  rw [LawfulUrl.pathSegments_eq, Option.map_eq_some_iff] at path
  obtain ⟨rest, starts, rfl⟩ := path
  have rooted := stripPrefix_eq_some.mp starts
  obtain ⟨before, split⟩ := eq_append_of_manifestTag tagged
  have parts : segmentsOf (UrlCrate.path url) = (("" :: before ++ ["releases"]) ++ ["download"] ++
      [tagOf v]) ++ [app.metadataFilename] := by
    rw [rooted, segmentsOf_rooted, split]
    simp
  obtain ⟨upToTag, whole, parts⟩ := exists_of_segmentsOf_concat parts (by simp)
  obtain ⟨upToDownload, tag, parts⟩ := exists_of_segmentsOf_concat parts (by simp)
  obtain ⟨upToReleases, download, parts⟩ := exists_of_segmentsOf_concat parts (by simp)
  obtain ⟨directory, releases, _⟩ := exists_of_segmentsOf_concat parts (by simp)
  refine ⟨directory, ⟨rest, rooted⟩, ?_, query, fragment⟩
  rw [whole, tag, download, releases, releasePath_eq]
  simp only [String.append_assoc]

/-! ## The inverse -/

omit [Crates V] in
theorem exactMetadataUrl_at (https : UrlCrate.scheme repository = "https")
    (query : UrlCrate.hasQuery repository = false)
    (fragment : UrlCrate.hasFragment repository = false)
    (plain : PlainSegment app.metadataFilename) (v : V) :
    ∃ base url directory, repositoryBase repository = .ok base ∧
      exactMetadataUrl app repository v = .ok url ∧
      At url (directory ++ "/" ++ (releasePath v ++ app.metadataFilename)) ∧
      UrlCrate.join base (releasePath v) =
        .ok (UrlCrate.setPath url (directory ++ "/" ++ releasePath v)) := by
  obtain ⟨base, directory, known, placed⟩ := repositoryBase_at https query fragment
  have release := plainRelative_release v plainSegment_empty
  have manifest := plainRelative_release v plain
  refine ⟨base, _, directory, known, ?_, placed.setPath rfl manifest, ?_⟩
  · unfold exactMetadataUrl
    rw [known, ok_bind]
    have joined := placed.join manifest
    unfold releasePath at joined ⊢
    dsimp only
    rw [joined]
    rfl
  · rw [placed.setPath_setPath rfl]
    have joined := placed.join release
    simpa using joined

omit [LawfulUrl U] in
theorem releaseBase_of_fetchExactMetadata {downloader : Downloader U} {now : Int}
    {keys : Option (List TrustedKey)} {metadata : ReleaseMetadata V U}
    (fetched : fetchExactMetadata app downloader now repository v keys = .ok metadata) :
    ∃ root, repositoryBase repository = .ok root ∧
      UrlCrate.join root (releasePath v) = .ok metadata.releaseBase := by
  simp only [fetchExactMetadata, fetchVerifiedMetadata, bind_eq_ok, mapError_eq_ok, pure_eq_ok]
    at fetched
  obtain ⟨_, _, _, _, _, _, _, _, root, known, base, joined, fetched⟩ := fetched
  obtain ⟨_, _, _, _, _, _, _, _, _, _, _, _, _, _, _, _, _, _, _, _, rfl⟩ := fetched
  exact ⟨root, known, joined⟩

omit [LawfulUrl U] in
theorem releaseBase_of_resolveLatestResponse {downloader : Downloader U} {now : Int}
    {keys : Option (List TrustedKey)} {response : DownloadResponse U}
    {metadata : ReleaseMetadata V U} {candidates : List (V × U)}
    (scanned : versionedManifestCandidates V app (responseHistory response) =
      .ok ((v, url) :: candidates))
    (resolved : resolveLatestResponse app downloader now response keys = .ok metadata) :
    releaseBaseFromManifestUrl V app url = .ok metadata.releaseBase := by
  simp only [resolveLatestResponse, fetchVerifiedMetadata, scanned, ok_bind, List.head?_cons,
    orError, bind_eq_ok, pure_eq_ok] at resolved
  obtain ⟨_, _, _, _, base, derived, resolved⟩ := resolved
  obtain ⟨_, _, _, _, _, _, _, _, _, _, _, _, _, _, _, _, _, _, _, _, rfl⟩ := resolved
  exact derived

/-- Both resolutions find the same release base, and it leads back to the manifest. For
a repository on HTTPS, the manifest URL built for a version resolves to that version,
with the base that exact resolution uses; and the base of every manifest URL, joined
with the metadata file, is that URL. -/
theorem release_base_inverse (plain : PlainSegment app.name) :
    (∀ (repository : U) (v : V), UrlCrate.scheme repository = "https" →
      UrlCrate.hasQuery repository = false → UrlCrate.hasFragment repository = false →
      ∃ root url base, exactMetadataUrl app repository v = .ok url ∧
        versionedManifestUrl V app url = .ok (some v) ∧
        releaseBaseFromManifestUrl V app url = .ok base ∧
        repositoryBase repository = .ok root ∧ UrlCrate.join root (releasePath v) = .ok base ∧
        (∀ downloader now keys (metadata : ReleaseMetadata V U),
          fetchExactMetadata app downloader now repository v keys = .ok metadata →
          metadata.releaseBase = base) ∧
        ∀ downloader now keys response (metadata : ReleaseMetadata V U) candidates,
          versionedManifestCandidates V app (responseHistory response) =
            .ok ((v, url) :: candidates) →
          resolveLatestResponse app downloader now response keys = .ok metadata →
          metadata.releaseBase = base) ∧
      ∀ (url : U) (v : V), versionedManifestUrl V app url = .ok (some v) →
        ∃ base, releaseBaseFromManifestUrl V app url = .ok base ∧
          UrlCrate.join base app.metadataFilename = .ok url := by
  have metadata := plainSegment_metadata plain
  constructor
  · intro repository v https query fragment
    obtain ⟨root, url, directory, known, exact, placed, joined⟩ :=
      exactMetadataUrl_at https query fragment metadata v
    obtain ⟨named, derived⟩ := placed.manifest metadata
    refine ⟨root, url, _, exact, named, derived, known, joined, ?_, ?_⟩
    · intro downloader now keys found fetched
      obtain ⟨root', known', joined'⟩ := releaseBase_of_fetchExactMetadata fetched
      cases known.symm.trans known'
      exact Except.ok.inj (joined'.symm.trans joined)
    · intro downloader now keys response found candidates scanned resolved
      have derived' := releaseBase_of_resolveLatestResponse scanned resolved
      exact Except.ok.inj (derived'.symm.trans derived)
  · intro url v named
    obtain ⟨directory, placed⟩ := at_of_versionedManifestUrl named
    refine ⟨_, (placed.manifest metadata).2, ?_⟩
    have release := plainRelative_release v plainSegment_empty
    have inside : directory ++ "/" ++ (releasePath v ++ app.metadataFilename) ++ "/" =
        directory ++ "/" ++ (releasePath v ++ app.metadataFilename ++ "/") := by
      simp only [String.append_assoc]
    have base := placed.setPath inside (by simpa using release)
    have ends : directory ++ "/" ++ releasePath v =
        directory ++ "/releases/download/v" ++ SemVer.toText v ++ "/" := by
      have slash : "/releases/download/v" = "/" ++ "releases/download/v" := rfl
      unfold releasePath
      generalize SemVer.toText v = text
      rw [slash]
      simp only [String.append_assoc]
    rw [ends] at base ⊢
    rw [base.join (metadata.relative (metadataFilename_ne_empty app)), ← ends,
      placed.setPath_setPath inside, String.append_assoc, ← placed.path,
      LawfulUrl.setPath_path _ placed.rooted]

section Sample

open Sample

theorem release_base_inverse_web :
    ∃ root url base, exactMetadataUrl (Sample.app unixTarget) projectUrl secondRelease = .ok url ∧
      versionedManifestUrl Edition (Sample.app unixTarget) url = .ok (some secondRelease) ∧
      releaseBaseFromManifestUrl Edition (Sample.app unixTarget) url = .ok base ∧
      repositoryBase projectUrl = .ok root ∧
      UrlCrate.join root (releasePath secondRelease) = .ok base := by
  have plain : PlainSegment (Sample.app unixTarget).name :=
    plainSegment_of_all (by decide) (by decide)
  obtain ⟨root, url, base, exact, named, derived, known, joined, _⟩ :=
    (release_base_inverse (U := WebUrl) plain).1 projectUrl secondRelease rfl rfl rfl
  exact ⟨root, url, base, exact, named, derived, known, joined⟩

end Sample

end Relswap
