import Relswap.Release.Url
import Relswap.Sample.World

/-!
# Redirects of the latest release

Resolving the latest release reads the version from the manifest URLs of the
redirect history, while every later fetch scans all its URLs for a release. The
two agree on a history exactly when its other URLs name no other release.
-/

namespace Relswap

open Durable

section Tags

/-- Every segment that follows `releases/download`. -/
def releaseTags : List String → List String
  | [] => []
  | first :: rest =>
    match first, rest with
    | "releases", "download" :: tag :: _ => tag :: releaseTags rest
    | _, _ => releaseTags rest

theorem releaseTags_releases (tag : String) (rest : List String) :
    releaseTags ("releases" :: "download" :: tag :: rest) =
      tag :: releaseTags ("download" :: tag :: rest) := by
  rw [releaseTags]

theorem releaseTags_cons (first : String) (rest : List String) :
    ∀ tag ∈ releaseTags rest, tag ∈ releaseTags (first :: rest) := by
  intro tag found
  simp only [releaseTags]
  split
  · exact List.mem_cons_of_mem _ found
  · exact found

theorem mem_of_releaseTag {segments : List String} {tag : String}
    (h : releaseTag segments = some tag) : tag ∈ releaseTags segments := by
  induction segments with
  | nil => cases h
  | cons first rest ih =>
    unfold releaseTag at h
    split at h
    · rename_i tag' rest' same
      obtain ⟨rfl, rfl⟩ := List.cons.inj same
      cases h
      rw [releaseTags_releases]
      exact List.mem_cons_self
    · rename_i first' rest' _ same
      obtain ⟨rfl, rfl⟩ := List.cons.inj same
      exact releaseTags_cons _ _ tag (ih h)
    · rename_i same
      cases same

end Tags

section Latest

variable {V U : Type} [SemVer V] [Crates V] [UrlCrate U]
variable {app : App} {response : DownloadResponse U} {history : List U} {url : U} {v : V}

/-- The segments of some URL of the history. -/
def PathIn (history : List U) (segments : List String) : Prop :=
  ∃ url ∈ history, UrlCrate.pathSegments url = some segments

/-- Some manifest URL of the history carries the tag. -/
def ManifestTagged (app : App) (history : List U) (tag : String) : Prop :=
  ∃ segments, PathIn history segments ∧ manifestTag app.metadataFilename segments = some tag

/-- Every URL that names a release without being a manifest URL carries the tag
of some manifest URL. -/
def OthersAgree (app : App) (history : List U) : Prop :=
  ∀ segments tag, PathIn history segments → manifestTag app.metadataFilename segments = none →
    releaseTag segments = some tag → ManifestTagged app history tag

/-- Every `releases/download/<tag>` of the history carries the tag of some
manifest URL. -/
def AllAgree (app : App) (history : List U) : Prop :=
  ∀ segments tag, PathIn history segments → tag ∈ releaseTags segments →
    ManifestTagged app history tag

/-- No `releases/download/<tag>` of the history is malformed or names another version. -/
def NamesOnly (history : List U) (v : V) : Prop :=
  ∀ segments tag, PathIn history segments → tag ∈ releaseTags segments → tag = tagOf v

/-! ## The two scanners -/

omit [Crates V] in
theorem versionedReleaseVersion_eq_ok {segments : List String} {found : Option V}
    (path : UrlCrate.pathSegments url = some segments) :
    versionedReleaseVersion V url = .ok found ↔ releaseTag segments = found.map tagOf := by
  rw [versionedReleaseVersion]
  rw [path]
  dsimp only
  cases tagged : releaseTag segments with
  | none =>
    cases found with
    | none => simp
    | some version => simp
  | some tag =>
    simp only [bind_eq_ok, orError_eq_ok, mapError_eq_ok, check_eq_ok, pure_eq_ok]
    constructor
    · intro h
      obtain ⟨raw, starts, version, _, _, canonical, named⟩ := h
      rw [← named, Option.map_some, tagOf, canonical, stripPrefix_eq_some.mp starts]
    · intro carries
      cases found with
      | none => cases carries
      | some version =>
        have same : tag = tagOf version := Option.some.inj carries
        refine ⟨SemVer.toText version, stripPrefix_eq_some.mpr same, version, ?_, (), rfl, rfl⟩
        exact SemVer.parse_toText version

omit [Crates V] in
theorem rejectCrossRelease_eq_ok {expected : V} :
    rejectCrossRelease app expected history = .ok () ↔
      ∀ url ∈ history, versionedManifestUrl V app url = .ok (some expected) ∨
        versionedManifestUrl V app url = .ok none ∧
          (versionedReleaseVersion V url = .ok none ∨
            versionedReleaseVersion V url = .ok (some expected)) := by
  induction history with
  | nil => simp [rejectCrossRelease]
  | cons url rest ih =>
    rw [List.forall_mem_cons, ← ih, rejectCrossRelease]
    cases manifest : versionedManifestUrl V app url with
    | error e => simp
    | ok found =>
      cases found with
      | some version => simp
      | none =>
        cases other : versionedReleaseVersion V url with
        | error e => simp
        | ok found =>
          cases found with
          | some version => simp
          | none => simp

omit [Crates V] in
theorem versionedManifestCandidates_eq_ok {candidates : List (V × U)}
    (h : versionedManifestCandidates V app history = .ok candidates) :
    ∀ url ∈ history, ∃ found, versionedManifestUrl V app url = .ok found ∧
      ∀ version, found = some version → (version, url) ∈ candidates := by
  induction history generalizing candidates with
  | nil => simp
  | cons url rest ih =>
    simp only [versionedManifestCandidates, bind_eq_ok] at h
    obtain ⟨here, found, others, tail, h⟩ := h
    rw [List.forall_mem_cons]
    cases here with
    | none =>
      cases h
      constructor
      · exact ⟨none, found, by simp⟩
      · exact ih tail
    | some version =>
      cases h
      constructor
      · exact ⟨some version, found, by simp⟩
      · intro url member
        obtain ⟨found, ok, kept⟩ := ih tail url member
        exact ⟨found, ok, fun version named => List.mem_cons_of_mem _ (kept version named)⟩

omit [Crates V] in
theorem mem_versionedManifestCandidates {candidates : List (V × U)}
    (h : versionedManifestCandidates V app history = .ok candidates) :
    ∀ version url, (version, url) ∈ candidates →
      url ∈ history ∧ versionedManifestUrl V app url = .ok (some version) := by
  induction history generalizing candidates with
  | nil =>
    cases h
    simp
  | cons url rest ih =>
    simp only [versionedManifestCandidates, bind_eq_ok] at h
    obtain ⟨here, found, others, tail, h⟩ := h
    intro version target member
    cases here with
    | none =>
      cases h
      obtain ⟨inside, named⟩ := ih tail version target member
      exact ⟨List.mem_cons_of_mem _ inside, named⟩
    | some first =>
      cases h
      obtain same | member := List.mem_cons.mp member
      · cases same
        exact ⟨List.mem_cons_self, found⟩
      · obtain ⟨inside, named⟩ := ih tail version target member
        exact ⟨List.mem_cons_of_mem _ inside, named⟩

/-- What resolving the latest release established about the history. -/
structure Resolved (app : App) (history : List U) (v : V) : Prop where
  manifest : ∀ url ∈ history, ∃ found, versionedManifestUrl V app url = .ok found ∧
    (found = none ∨ found = some v)
  named : ∃ url ∈ history, versionedManifestUrl V app url = .ok (some v)

theorem resolved_of_fetchLatestMetadata {downloader : Downloader U} {now : Int} {repository : U}
    {trustedKeys : Option (List TrustedKey)} {metadata : ReleaseMetadata V U}
    (asked : latestMetadataUrl app repository = .ok url)
    (answered : downloader 0 url maxMetadataSize = .ok response)
    (accepted : fetchLatestMetadata app downloader now repository trustedKeys = .ok metadata) :
    Resolved app (responseHistory response) metadata.version := by
  simp only [fetchLatestMetadata, asked, ok_bind, answered, resolveLatestResponse, bind_eq_ok,
    check_eq_ok, orError_eq_ok] at accepted
  obtain ⟨_, _, candidates, scanned, _, single, ⟨version, releaseUrl⟩, head, base, _,
    verified⟩ := accepted
  have same : metadata.version = version := by
    simp only [fetchVerifiedMetadata, bind_eq_ok, pure_eq_ok] at verified
    obtain ⟨_, _, _, _, _, _, _, _, _, _, _, _, _, _, _, _, _, _, _, _, rfl⟩ := verified
    rfl
  have first : (version, releaseUrl) ∈ candidates := List.mem_of_head? head
  -- all candidates print the same text, so they are one version
  have unique : ∀ other url, (other, url) ∈ candidates → other = version := by
    intro other url member
    obtain ⟨text, texts⟩ := List.length_eq_one_iff.mp single
    have only : ∀ w url, (w, url) ∈ candidates → SemVer.toText w = text := by
      intro w url inside
      have listed : SemVer.toText w ∈ (candidates.map fun c => SemVer.toText c.1).eraseDups :=
        List.mem_eraseDups.mpr (List.mem_map.mpr ⟨(w, url), inside, rfl⟩)
      rw [texts] at listed
      exact List.mem_singleton.mp listed
    exact SemVer.toText_injective ((only other url member).trans (only version releaseUrl first).symm)
  rw [same]
  constructor
  · intro url member
    obtain ⟨found, ok, kept⟩ := versionedManifestCandidates_eq_ok scanned url member
    refine ⟨found, ok, ?_⟩
    cases found with
    | none => exact .inl rfl
    | some other => exact .inr (congrArg some (unique other url (kept other rfl)))
  · obtain ⟨inside, named⟩ := mem_versionedManifestCandidates scanned version releaseUrl first
    exact ⟨releaseUrl, inside, named⟩

omit [Crates V] in
theorem Resolved.manifestTagged (h : Resolved app history v) {tag : String} :
    ManifestTagged app history tag ↔ tag = tagOf v := by
  constructor
  · intro tagged
    obtain ⟨segments, ⟨url, member, path⟩, tagged⟩ := tagged
    obtain ⟨found, ok, known⟩ := h.manifest url member
    obtain ⟨segments', path', carries⟩ := versionedManifestUrl_eq_ok ok
    cases path.symm.trans path'
    rw [tagged] at carries
    obtain rfl | rfl := known
    · cases carries
    · exact Option.some.inj carries
  · intro same
    obtain ⟨url, member, ok⟩ := h.named
    obtain ⟨segments, path, carries⟩ := versionedManifestUrl_eq_ok ok
    exact ⟨segments, ⟨url, member, path⟩, by rw [carries, same, Option.map_some]⟩

omit [Crates V] in
theorem Resolved.rejects_iff (h : Resolved app history v) :
    rejectCrossRelease app v history = .ok () ↔ OthersAgree app history := by
  rw [rejectCrossRelease_eq_ok]
  constructor
  · intro passes segments tag inPath other tagged
    obtain ⟨url, member, path⟩ := inPath
    rw [h.manifestTagged]
    obtain manifest | ⟨_, none | some⟩ := passes url member
    · obtain ⟨segments', path', carries⟩ := versionedManifestUrl_eq_ok manifest
      cases path.symm.trans path'
      rw [other] at carries
      cases carries
    · rw [(versionedReleaseVersion_eq_ok path).mp none] at tagged
      cases tagged
    · rw [(versionedReleaseVersion_eq_ok path).mp some] at tagged
      exact (Option.some.inj tagged).symm
  · intro agree url member
    obtain ⟨found, ok, known⟩ := h.manifest url member
    obtain rfl | rfl := known
    · right
      obtain ⟨segments, path, carries⟩ := versionedManifestUrl_eq_ok ok
      refine ⟨ok, ?_⟩
      rw [versionedReleaseVersion_eq_ok path, versionedReleaseVersion_eq_ok path]
      cases tagged : releaseTag segments with
      | none => exact .inl rfl
      | some tag =>
        have same := h.manifestTagged.mp (agree segments tag ⟨url, member, path⟩ carries tagged)
        exact .inr (congrArg some same)
    · exact .inl ok

omit [Crates V] in
theorem Resolved.namesOnly_iff (h : Resolved app history v) :
    NamesOnly history v ↔ AllAgree app history := by
  simp only [NamesOnly, AllAgree, h.manifestTagged]

theorem AllAgree.others (h : AllAgree app history) : OthersAgree app history := by
  intro segments tag inPath _ tagged
  exact h segments tag inPath (mem_of_releaseTag tagged)

/-- Resolving the latest release reads versions off manifest URLs only. The response
it accepts passes the redirect check of every other fetch exactly when the remaining
release URLs of the history carry a tag of its manifest URLs, and names one release
throughout exactly when every tag does. -/
theorem latest_redirects_agree {downloader : Downloader U} {now : Int} {repository : U}
    {trustedKeys : Option (List TrustedKey)} {metadata : ReleaseMetadata V U}
    (asked : latestMetadataUrl app repository = .ok url)
    (answered : downloader 0 url maxMetadataSize = .ok response)
    (accepted : fetchLatestMetadata app downloader now repository trustedKeys = .ok metadata) :
    (rejectCrossReleaseRedirects app response metadata.version = .ok () ↔
        OthersAgree app (responseHistory response)) ∧
      (rejectCrossReleaseRedirects app response metadata.version = .ok () ∧
        NamesOnly (responseHistory response) metadata.version ↔
        AllAgree app (responseHistory response)) := by
  have resolved := resolved_of_fetchLatestMetadata asked answered accepted
  constructor
  · exact resolved.rejects_iff
  · constructor
    · intro both
      exact resolved.namesOnly_iff.mp both.2
    · intro agree
      exact ⟨resolved.rejects_iff.mpr agree.others, resolved.namesOnly_iff.mpr agree⟩

end Latest

section Sample

open Sample

/-- The latest release is the second one. -/
def servedInputs : Inputs Edition Url := inputs unixTarget secondRelease signatureBytes

def latestUrl : Url := ⟨["app", "releases", "latest", "download", "app-release.json"]⟩

/-- The answer to the latest metadata request, after the given redirects. -/
def latestResponse (redirects : List Url) : DownloadResponse Url :=
  ⟨latestUrl, assetUrl secondRelease "app-release.json", redirects,
    manifestBytes unixTarget secondRelease⟩

def redirected (redirects : List Url) : Downloader Url :=
  fun
  | 0, _, _ => .ok (latestResponse redirects)
  | n + 1, url, limit => servedInputs.downloader (n + 1) url limit

def servedMetadata (redirects : List Url) : Except ReleaseError (ReleaseMetadata Edition Url) :=
  fetchLatestMetadata (Sample.app unixTarget) (redirected redirects) 0 ⟨["app"]⟩ (some [key])

theorem latest_redirects_agree_served :
    ∃ metadata, servedMetadata [latestUrl] = .ok metadata ∧
      (rejectCrossReleaseRedirects (Sample.app unixTarget) (latestResponse [latestUrl])
          metadata.version = .ok () ∧
        NamesOnly (responseHistory (latestResponse [latestUrl])) metadata.version ↔
        AllAgree (Sample.app unixTarget) (responseHistory (latestResponse [latestUrl]))) := by
  obtain ⟨metadata, accepted⟩ := ok_of_isSome (r := servedMetadata [latestUrl]) (by decide +kernel)
  have asked : latestMetadataUrl (Sample.app unixTarget) (⟨["app"]⟩ : Url) = .ok latestUrl := rfl
  exact ⟨metadata, accepted, (latest_redirects_agree asked rfl accepted).2⟩

/-- An asset of another release that is not its manifest. -/
def strayUrl : Url := assetUrl firstRelease "other"

theorem latest_accepts_stray_redirect :
    ∃ metadata, servedMetadata [latestUrl, strayUrl] = .ok metadata ∧
      rejectCrossReleaseRedirects (Sample.app unixTarget) (latestResponse [latestUrl, strayUrl])
          metadata.version ≠ .ok () := by
  have accepted : ∃ metadata, servedMetadata [latestUrl, strayUrl] = .ok metadata ∧
      metadata.version = secondRelease := by
    obtain ⟨metadata, found⟩ := ok_of_isSome (r := servedMetadata [latestUrl, strayUrl])
      (by decide +kernel)
    refine ⟨metadata, found, ?_⟩
    have version : (servedMetadata [latestUrl, strayUrl]).toOption.map (·.version) =
        some secondRelease := by decide +kernel
    rw [found] at version
    exact Option.some.inj version
  obtain ⟨metadata, found, version⟩ := accepted
  refine ⟨metadata, found, ?_⟩
  rw [version]
  intro passes
  have refused : (rejectCrossReleaseRedirects (Sample.app unixTarget)
      (latestResponse [latestUrl, strayUrl]) secondRelease).toOption = none := by decide +kernel
  rw [passes] at refused
  cases refused

end Sample

end Relswap
