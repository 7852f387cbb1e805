import Relswap.Release.Names

/-!
# Rules of the URL crate

What the program relies on when it takes release URLs apart and builds them:
the segments of a path are the parts between its slashes, and a plain relative
name is appended to a URL whose path ends in a slash.
-/

namespace Relswap

open Durable

/-- The characters that a URL carries in its path unchanged. -/
def urlSafe (c : Char) : Bool :=
  c.isAlphanum || ['-', '.', '_', '~', '!', '$', '&', '(', ')', '*', '+', ',', ';', '=',
    '@'].contains c

/-- A segment that is neither encoded nor resolved. -/
structure PlainSegment (segment : String) : Prop where
  notCurrent : segment ≠ "."
  notParent : segment ≠ ".."
  safe : ∀ c ∈ segment.toList, urlSafe c = true

/-- A relative reference of plain segments, not starting with a slash. -/
structure PlainRelative (relative : String) : Prop where
  segments : ∀ segment ∈ segmentsOf relative, PlainSegment segment
  first : (segmentsOf relative).head? ≠ some ""

/-- A hierarchical URL has a path that starts with a slash. -/
def Rooted {U : Type} [UrlCrate U] (url : U) : Prop := ∃ rest, UrlCrate.path url = "/" ++ rest

/-- The documented behaviour of the URL crate. -/
class LawfulUrl (U : Type) [UrlCrate U] : Prop where
  pathSegments_eq : ∀ url : U, UrlCrate.pathSegments url =
    (stripPrefix (UrlCrate.path url) "/").map segmentsOf
  rooted_of_https : ∀ url : U, UrlCrate.scheme url = "https" → Rooted url
  /-- A directory of the URL's own path, with plain names after it, is set unchanged. -/
  path_setPath : ∀ (url : U) directory rest name, Rooted url →
    UrlCrate.path url ++ "/" = directory ++ "/" ++ rest → (name = "" ∨ PlainRelative name) →
    UrlCrate.path (UrlCrate.setPath url (directory ++ "/" ++ name)) = directory ++ "/" ++ name
  setPath_path : ∀ url : U, Rooted url → UrlCrate.setPath url (UrlCrate.path url) = url
  setPath_setPath : ∀ (url : U) first second, Rooted url →
    UrlCrate.setPath (UrlCrate.setPath url ("/" ++ first)) second = UrlCrate.setPath url second
  hasQuery_setPath : ∀ (url : U) path,
    UrlCrate.hasQuery (UrlCrate.setPath url path) = UrlCrate.hasQuery url
  hasFragment_setPath : ∀ (url : U) path,
    UrlCrate.hasFragment (UrlCrate.setPath url path) = UrlCrate.hasFragment url
  withoutQuery_eq : ∀ url : U, UrlCrate.hasQuery url = false → UrlCrate.hasFragment url = false →
    UrlCrate.withoutQuery url = url
  join_plain : ∀ (url : U) directory name, Rooted url → UrlCrate.path url = directory ++ "/" →
    PlainRelative name → UrlCrate.join url name =
      .ok (UrlCrate.setPath (UrlCrate.withoutQuery url) (directory ++ "/" ++ name))

/-! ## Plain names -/

theorem urlSafe_of_versionChar {c : Char} (h : versionChar c = true) : urlSafe c = true := by
  simp only [versionChar, Bool.or_eq_true, beq_iff_eq] at h
  obtain ((alphanumeric | rfl) | rfl) | rfl := h
  · simp [urlSafe, alphanumeric]
  · decide
  · decide
  · decide

theorem urlSafe_slash : urlSafe '/' = false := by decide

theorem PlainSegment.no_slash {segment : String} (h : PlainSegment segment) :
    '/' ∉ segment.toList := by
  intro member
  have safe := h.safe '/' member
  rw [urlSafe_slash] at safe
  cases safe

theorem PlainSegment.segmentsOf {segment : String} (h : PlainSegment segment) :
    segmentsOf segment = [segment] := segmentsOf_plain h.no_slash

/-- Names that extend a plain prefix of at least three characters are no dots. -/
theorem PlainSegment.append {start rest : String} (long : 2 < (start ++ rest).toList.length)
    (safe : ∀ c ∈ start.toList, urlSafe c = true) (rest_safe : ∀ c ∈ rest.toList, urlSafe c = true) :
    PlainSegment (start ++ rest) := by
  refine ⟨?_, ?_, ?_⟩
  · intro same
    rw [same] at long
    simp at long
  · intro same
    rw [same] at long
    simp at long
  · intro c member
    rw [String.toList_append, List.mem_append] at member
    exact member.elim (safe c) (rest_safe c)

theorem plainSegment_of_all {segment : String} (notDots : segment ≠ "." ∧ segment ≠ "..")
    (safe : segment.toList.all urlSafe = true) : PlainSegment segment :=
  ⟨notDots.1, notDots.2, List.all_eq_true.mp safe⟩

/-- A plain relative reference, extended by one more plain segment. -/
theorem PlainRelative.append {relative segment : String} (h : PlainRelative relative)
    (plain : PlainSegment segment) : PlainRelative (relative ++ "/" ++ segment) := by
  constructor
  · intro part member
    rw [segmentsOf_append, plain.segmentsOf, List.mem_append, List.mem_singleton] at member
    obtain inside | rfl := member
    · exact h.segments part inside
    · exact plain
  · rw [segmentsOf_append]
    obtain ⟨first, rest, split⟩ := List.exists_cons_of_ne_nil (segmentsOf_ne_nil relative)
    have start := h.first
    rw [split] at start ⊢
    exact start

theorem PlainSegment.relative {segment : String} (h : PlainSegment segment)
    (nonempty : segment ≠ "") : PlainRelative segment := by
  constructor
  · intro part member
    rw [h.segmentsOf, List.mem_singleton] at member
    exact member ▸ h
  · rw [h.segmentsOf]
    intro same
    exact nonempty (Option.some.inj same)

theorem plainSegment_empty : PlainSegment "" := ⟨by decide, by decide, by simp⟩

/-! ## Release URLs -/

section Manifest

variable {V U : Type} [SemVer V] [UrlCrate U] {app : App} {url : U} {v : V}

/-- The tag that a release URL carries for a version. -/
def tagOf (v : V) : String := "v" ++ SemVer.toText v

theorem manifestTag_append (name tag : String) (before : List String) :
    manifestTag name (before ++ ["releases", "download", tag, name]) = some tag := by
  induction before with
  | nil => simp [manifestTag]
  | cons first before ih =>
    rw [List.cons_append, manifestTag, ih]
    intro tag' name' _ same
    have length := congrArg List.length same
    simp at length

theorem eq_append_of_manifestTag {name tag : String} {segments : List String}
    (h : manifestTag name segments = some tag) :
    ∃ before, segments = before ++ ["releases", "download", tag, name] := by
  induction segments with
  | nil => cases h
  | cons first rest ih =>
    unfold manifestTag at h
    split at h
    · rename_i same
      obtain ⟨rfl, rfl⟩ := List.cons.inj same
      split at h
      · rename_i named
        cases h
        exact ⟨[], by rw [named]; rfl⟩
      · cases h
    · rename_i same
      obtain ⟨rfl, rfl⟩ := List.cons.inj same
      obtain ⟨before, whole⟩ := ih h
      exact ⟨first :: before, by rw [whole]; rfl⟩
    · rename_i same
      cases same

theorem versionedManifestUrl_eq_ok {found : Option V}
    (h : versionedManifestUrl V app url = .ok found) :
    ∃ segments, UrlCrate.pathSegments url = some segments ∧
      manifestTag app.metadataFilename segments = found.map tagOf := by
  unfold versionedManifestUrl at h
  obtain ⟨segments, path, h⟩ := bind_eq_ok.mp h
  refine ⟨segments, orError_eq_ok.mp path, ?_⟩
  cases tagged : manifestTag app.metadataFilename segments with
  | none =>
    rw [tagged] at h
    cases h
    rfl
  | some tag =>
    simp only [tagged, bind_eq_ok, orError_eq_ok, mapError_eq_ok, check_eq_ok, pure_eq_ok] at h
    obtain ⟨raw, starts, version, _, _, ⟨canonical, _⟩, rfl⟩ := h
    rw [Option.map_some, tagOf, canonical, stripPrefix_eq_some.mp starts]

theorem versionedManifestUrl_eq_some :
    versionedManifestUrl V app url = .ok (some v) ↔
      ∃ segments, UrlCrate.pathSegments url = some segments ∧
        manifestTag app.metadataFilename segments = some (tagOf v) ∧
        UrlCrate.hasQuery url = false ∧ UrlCrate.hasFragment url = false := by
  rw [versionedManifestUrl]
  constructor
  · intro h
    obtain ⟨segments, path, h⟩ := bind_eq_ok.mp h
    refine ⟨segments, orError_eq_ok.mp path, ?_⟩
    cases tagged : manifestTag app.metadataFilename segments with
    | none =>
      rw [tagged] at h
      cases h
    | some tag =>
      simp only [tagged, bind_eq_ok, orError_eq_ok, mapError_eq_ok, check_eq_ok, pure_eq_ok] at h
      obtain ⟨raw, starts, version, _, _, canonical, named⟩ := h
      cases named
      rw [stripPrefix_eq_some.mp starts, ← canonical.1]
      exact ⟨rfl, canonical.2⟩
  · intro h
    obtain ⟨segments, path, tagged, canonical⟩ := h
    refine bind_eq_ok.mpr ⟨segments, orError_eq_ok.mpr path, ?_⟩
    simp only [tagged, bind_eq_ok, orError_eq_ok, mapError_eq_ok, check_eq_ok, pure_eq_ok]
    refine ⟨SemVer.toText v, stripPrefix_eq_some.mpr rfl, v, ?_, (), ⟨rfl, canonical⟩, rfl⟩
    exact SemVer.parse_toText v

end Manifest

end Relswap
