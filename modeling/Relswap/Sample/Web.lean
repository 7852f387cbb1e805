import Relswap.Release.Url
import Relswap.Sample.World

/-!
# Concrete URLs

A URL of a host with a hierarchical path. It follows the rules of the URL crate
for plain relative names, without encoding and dot segments.
-/

namespace Relswap.Sample

structure WebUrl where
  scheme : String
  host : String
  /-- The path after its first slash. -/
  below : String
  query : Option String
  fragment : Option String

namespace WebUrl

/-- A text up to its last slash. -/
def directoryOf (text : String) : String :=
  String.ofList (text.toList.reverse.dropWhile (· ≠ '/')).reverse

def setPath (url : WebUrl) (path : String) : WebUrl :=
  { url with below := (stripPrefix path "/").getD path }

def parse (text : String) : Except String WebUrl :=
  match stripPrefix text "https://" with
  | none => .error "relative URL without a base"
  | some rest =>
    .ok ⟨"https", String.ofList (rest.toList.takeWhile (· ≠ '/')),
      String.ofList ((rest.toList.dropWhile (· ≠ '/')).drop 1), none, none⟩

instance : UrlCrate WebUrl where
  parse := parse
  scheme := scheme
  path url := "/" ++ url.below
  pathSegments url := some (segmentsOf url.below)
  hasQuery url := url.query.isSome
  hasFragment url := url.fragment.isSome
  join base name :=
    .ok { base with below := directoryOf base.below ++ name, query := none, fragment := none }
  setPath := setPath
  withoutQuery url := { url with query := none, fragment := none }

theorem setPath_slash (url : WebUrl) (below : String) :
    url.setPath ("/" ++ below) = { url with below := below } := by
  rw [setPath, stripPrefix_eq_some.mpr rfl, Option.getD_some]

/-- A text that is empty or ends in a slash is its own directory. -/
theorem directoryOf_eq {below directory : String} (h : "/" ++ below = directory ++ "/") :
    directoryOf below = below := by
  have chars := congrArg String.toList h
  simp only [String.toList_append] at chars
  rw [directoryOf]
  cases whole : below.toList.reverse with
  | nil =>
    have empty : below = "" := String.toList_injective (List.reverse_eq_nil_iff.mp whole)
    rw [empty]
    rfl
  | cons last rest =>
    have ends := congrArg List.reverse chars
    simp [whole] at ends
    rw [ends.1, List.dropWhile_cons_of_neg (by simp), ← ends.1, ← whole, List.reverse_reverse]
    simp

instance : LawfulUrl WebUrl where
  pathSegments_eq url := by
    change some (segmentsOf url.below) = (stripPrefix ("/" ++ url.below) "/").map segmentsOf
    rw [stripPrefix_eq_some.mpr rfl, Option.map_some]
  rooted_of_https url _ := ⟨url.below, rfl⟩
  path_setPath url directory rest name _ inside _ := by
    obtain ⟨start, whole⟩ := rooted_directory inside
    change "/" ++ (url.setPath (directory ++ "/" ++ name)).below = directory ++ "/" ++ name
    rw [whole, String.append_assoc, setPath_slash]
  setPath_path url _ := setPath_slash url url.below
  setPath_setPath url first second _ := rfl
  hasQuery_setPath url path := rfl
  hasFragment_setPath url path := rfl
  withoutQuery_eq url query fragment := by
    obtain ⟨scheme, host, below, q, f⟩ := url
    have noQuery : q = none := by simpa [UrlCrate.hasQuery] using query
    have noFragment : f = none := by simpa [UrlCrate.hasFragment] using fragment
    rw [noQuery, noFragment]
    rfl
  join_plain url directory name _ ends _ := by
    change Except.ok _ = Except.ok ((WebUrl.setPath _ _))
    have ends' : "/" ++ url.below = directory ++ "/" := ends
    rw [← ends', String.append_assoc, setPath_slash, directoryOf_eq ends']
    rfl

end WebUrl

/-- The repository of the application, without a trailing slash. -/
def projectUrl : WebUrl := ⟨"https", "example.test", "owner/app", none, none⟩

end Relswap.Sample
