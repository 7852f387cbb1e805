import Relswap.Release.Download

/-!
# Names and their parts

What stripping a beginning or an ending and splitting at slashes say about a
text, stated once for the archive names and the release URLs.
-/

namespace Relswap

theorem stripPrefix_eq_some {text start rest : String} :
    stripPrefix text start = some rest ↔ text = start ++ rest := by
  rw [stripPrefix]
  constructor
  · intro h
    split at h
    · rename_i starts
      obtain ⟨tail, whole⟩ := List.isPrefixOf_iff_prefix.mp starts
      have same : tail = rest.toList := by
        rw [← Option.some.inj h, ← whole]
        simp
      apply String.toList_injective
      rw [← whole, same]
      simp
    · cases h
  · rintro rfl
    have starts : start.toList.isPrefixOf (start ++ rest).toList = true := by
      rw [List.isPrefixOf_iff_prefix]
      simp
    rw [if_pos starts]
    simp

theorem stripSuffix_eq_some {text ending stem : String} :
    stripSuffix text ending = some stem ↔ text = stem ++ ending := by
  unfold stripSuffix
  dsimp only
  constructor
  · intro h
    split at h
    · rename_i ends
      apply String.toList_injective
      rw [← ends, ← Option.some.inj h]
      simp
    · cases h
  · rintro rfl
    have whole : (stem ++ ending).toList.take
        ((stem ++ ending).toList.length - ending.toList.length) = stem.toList := by simp
    simp only [whole]
    rw [if_pos (by simp)]
    simp

/-! ## Segments -/

theorem splitSlash_ne_nil (text : List Char) : splitSlash text ≠ [] := by
  cases text with
  | nil => simp [splitSlash]
  | cons c text =>
    rw [splitSlash]
    split
    · simp
    · split <;> simp

/-- A character other than a slash goes in front of the first part. -/
theorem splitSlash_cons {c : Char} (other : c ≠ '/') (text : List Char) :
    ∃ part parts, splitSlash text = part :: parts ∧
      splitSlash (c :: text) = (c :: part) :: parts := by
  obtain ⟨part, parts, split⟩ := List.exists_cons_of_ne_nil (splitSlash_ne_nil text)
  exact ⟨part, parts, split, by rw [splitSlash, if_neg other, split]⟩

theorem splitSlash_plain {text : List Char} (plain : '/' ∉ text) : splitSlash text = [text] := by
  induction text with
  | nil => rfl
  | cons c text ih =>
    rw [List.mem_cons, not_or] at plain
    rw [splitSlash, if_neg (Ne.symm plain.1), ih plain.2]

theorem splitSlash_append (left right : List Char) :
    splitSlash (left ++ '/' :: right) = splitSlash left ++ splitSlash right := by
  induction left with
  | nil => simp [splitSlash]
  | cons c left ih =>
    rw [List.cons_append, splitSlash, splitSlash, ih]
    by_cases slash : c = '/'
    · rw [if_pos slash, if_pos slash, List.cons_append]
    · rw [if_neg slash, if_neg slash]
      obtain ⟨part, parts, split⟩ := List.exists_cons_of_ne_nil (splitSlash_ne_nil left)
      rw [split]
      rfl

theorem eq_of_splitSlash_single {text last : List Char} (split : splitSlash text = [last]) :
    text = last := by
  induction text generalizing last with
  | nil => exact List.head_eq_of_cons_eq split
  | cons c text ih =>
    by_cases slash : c = '/'
    · rw [splitSlash, if_pos slash, List.cons.injEq] at split
      exact absurd split.2 (splitSlash_ne_nil text)
    · obtain ⟨part, parts, tail, whole⟩ := splitSlash_cons slash text
      rw [whole, List.cons.injEq] at split
      rw [split.2] at tail
      rw [ih tail, split.1]

theorem exists_of_splitSlash_concat {text last : List Char} {before : List (List Char)}
    (split : splitSlash text = before ++ [last]) (more : before ≠ []) :
    ∃ stem, text = stem ++ '/' :: last ∧ splitSlash stem = before := by
  obtain ⟨first, before, rfl⟩ := List.exists_cons_of_ne_nil more
  rw [List.cons_append] at split
  induction text generalizing first before with
  | nil => simp [splitSlash] at split
  | cons c text ih =>
    by_cases slash : c = '/'
    · rw [splitSlash, if_pos slash, List.cons.injEq] at split
      obtain ⟨rfl, tail⟩ := split
      subst slash
      cases before with
      | nil => exact ⟨[], by rw [eq_of_splitSlash_single tail]; rfl, rfl⟩
      | cons second before =>
        obtain ⟨stem, rfl, parts⟩ := ih second before tail (by simp)
        exact ⟨'/' :: stem, rfl, by rw [splitSlash, if_pos rfl, parts]⟩
    · obtain ⟨part, parts, tail, whole⟩ := splitSlash_cons slash text
      rw [whole, List.cons.injEq] at split
      obtain ⟨rfl, rfl⟩ := split
      obtain ⟨stem, rfl, parts⟩ := ih part before tail (by simp)
      exact ⟨c :: stem, rfl, by rw [splitSlash, if_neg slash, parts]⟩

/-- The parts of a text between its slashes. -/
def segmentsOf (text : String) : List String := (splitSlash text.toList).map String.ofList

theorem segmentsOf_ne_nil (text : String) : segmentsOf text ≠ [] := by
  simp [segmentsOf, splitSlash_ne_nil]

theorem segmentsOf_plain {text : String} (plain : '/' ∉ text.toList) : segmentsOf text = [text] := by
  simp [segmentsOf, splitSlash_plain plain]

theorem segmentsOf_append (left right : String) :
    segmentsOf (left ++ "/" ++ right) = segmentsOf left ++ segmentsOf right := by
  have whole : (left ++ "/" ++ right).toList = left.toList ++ '/' :: right.toList := by simp
  rw [segmentsOf, whole, splitSlash_append, List.map_append]
  rfl

theorem segmentsOf_rooted (rest : String) : segmentsOf ("/" ++ rest) = "" :: segmentsOf rest := by
  have split := segmentsOf_append "" rest
  simpa [segmentsOf_plain] using split

theorem segmentsOf_slash (stem : String) : segmentsOf (stem ++ "/") = segmentsOf stem ++ [""] := by
  have split := segmentsOf_append stem ""
  rw [String.append_empty] at split
  rw [split]
  rfl

/-- A text with more than one segment ends in a slash and its last segment. -/
theorem exists_of_segmentsOf_concat {text last : String} {before : List String}
    (split : segmentsOf text = before ++ [last]) (more : before ≠ []) :
    ∃ stem, text = stem ++ "/" ++ last ∧ segmentsOf stem = before := by
  have parts : splitSlash text.toList = before.map String.toList ++ [last.toList] := by
    have chars := congrArg (List.map String.toList) split
    simpa [segmentsOf, List.map_map, Function.comp_def] using chars
  obtain ⟨stem, whole, parts⟩ := exists_of_splitSlash_concat parts (by simpa using more)
  refine ⟨String.ofList stem, ?_, ?_⟩
  · apply String.toList_injective
    simpa using whole
  · simp [segmentsOf, parts, List.map_map, Function.comp_def]

/-- A directory of a path that starts with a slash starts with it too. -/
theorem rooted_directory {below directory rest : String}
    (h : "/" ++ below ++ "/" = directory ++ "/" ++ rest) :
    ∃ start, directory ++ "/" = "/" ++ start := by
  have chars := congrArg String.toList h
  simp only [String.toList_append] at chars
  cases whole : directory.toList with
  | nil =>
    have empty : directory = "" := String.toList_injective whole
    exact ⟨"", by rw [empty]; rfl⟩
  | cons c tail =>
    rw [whole] at chars
    have slash : c = '/' := (List.cons.inj chars).1.symm
    refine ⟨String.ofList tail ++ "/", ?_⟩
    apply String.toList_injective
    simp [whole, slash]

end Relswap
