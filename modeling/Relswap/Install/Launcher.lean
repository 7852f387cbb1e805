import Relswap.Install.Documents
import Relswap.Fs.Path

/-!
# The Windows launcher

The launcher at the command path reads the selector file itself and derives the
payload from its own location. It takes no path from the state.
-/

namespace Relswap

open Durable

/-- The characters that `str::trim` removes. -/
def whiteSpace (c : Char) : Bool :=
  let n := c.toNat
  (9 ≤ n && n ≤ 13) || n == 32 || n == 133 || n == 160 || n == 5760 || (8192 ≤ n && n ≤ 8202) ||
    n == 8232 || n == 8233 || n == 8239 || n == 8287 || n == 12288

def trim (text : String) : String :=
  String.ofList ((text.toList.dropWhile whiteSpace).reverse.dropWhile whiteSpace).reverse

variable (V : Type) [SemVer V] in
/-- Resolve the launcher-v1 payload from the launcher's own location and the value
of the `active` file. -/
def resolveLauncherV1Payload (launcher : FsPath) (active : Bytes) (payloadName : String) :
    Except IoError FsPath := do
  let bin ← orError launcher.parent (.invalidData "launcher has no parent directory")
  check (bin.fileName.any (fun name => name.toLower == "bin") = true)
    (.invalidData "launcher must be installed directly under the managed bin directory")
  let root ← orError bin.parent (.invalidData "launcher bin directory has no install root")
  let raw ← orError (decodeUtf8 active) (.invalidData "active is not UTF-8")
  check (raw ≠ "" ∧ active.length ≤ 128 ∧ trim raw = raw)
    (.invalidData "active must contain only a canonical semantic version")
  let version : V ← (SemVer.parse raw).mapError fun error =>
    .invalidData s!"active does not contain a semantic version: {error}"
  check (SemVer.toText version = raw) (.invalidData "active version is not canonical")
  check (isSafeBasename payloadName true = true)
    (.invalidInput "managed payload name must be a plain basename")
  return ((root.join "versions").join (SemVer.toText version)).join payloadName

/-! ## Version texts -/

variable {V : Type} [SemVer V]

theorem versionChar_ascii {c : Char} (h : versionChar c = true) : c.toNat < 128 := by
  have code : c.val.toNat = c.toNat := rfl
  simp only [versionChar, Char.isAlphanum, Char.isAlpha, Char.isUpper, Char.isLower, Char.isDigit,
    Bool.or_eq_true, Bool.and_eq_true, decide_eq_true_eq, beq_iff_eq, ge_iff_le,
    UInt32.le_iff_toNat_le, code] at h
  rcases h with ((((⟨_, h⟩ | ⟨_, h⟩) | ⟨_, h⟩) | rfl) | rfl) | rfl
  · exact Nat.lt_of_le_of_lt h (by decide)
  · exact Nat.lt_of_le_of_lt h (by decide)
  · exact Nat.lt_of_le_of_lt h (by decide)
  · decide
  · decide
  · decide

theorem versionChar_cases {c : Char} (h : versionChar c = true) :
    whiteSpace c = false ∧ c ≠ '/' ∧ c ≠ '\\' ∧ c ≠ ':' ∧ c ≠ ' ' ∧ c ≠ '\n' := by
  have table : ∀ n : Fin 128, versionChar (Char.ofNat n) = true →
      whiteSpace (Char.ofNat n) = false ∧ Char.ofNat n ≠ '/' ∧ Char.ofNat n ≠ '\\' ∧
        Char.ofNat n ≠ ':' ∧ Char.ofNat n ≠ ' ' ∧ Char.ofNat n ≠ '\n' := by decide
  have entry := table ⟨c.toNat, versionChar_ascii h⟩
  rw [Char.ofNat_toNat] at entry
  exact entry h

/-- A version text is its own trimming. -/
theorem trim_toText (v : V) : trim (SemVer.toText v) = SemVer.toText v := by
  have plain : ∀ c ∈ (SemVer.toText v).toList, whiteSpace c = false :=
    fun c hc => (versionChar_cases (SemVer.toText_chars v c hc)).1
  have keeps : ∀ cs : List Char, (∀ c ∈ cs, whiteSpace c = false) → cs.dropWhile whiteSpace = cs := by
    intro cs hcs
    cases cs with
    | nil => rfl
    | cons c cs => rw [List.dropWhile_cons_of_neg (by simp [hcs c List.mem_cons_self])]
  rw [trim, keeps _ plain, keeps _ fun c hc => plain c (List.mem_reverse.mp hc),
    List.reverse_reverse, String.ofList_toList]

/-- Names that are one path component on every platform. -/
def PlainName (name : String) : Prop :=
  name ≠ "" ∧ name ≠ "." ∧ name ≠ ".." ∧ '/' ∉ name.toList ∧ '\\' ∉ name.toList ∧ ':' ∉ name.toList

theorem plainName_toText (v : V) : PlainName (SemVer.toText v) := by
  have digit := SemVer.toText_digit v
  refine ⟨SemVer.toText_ne_empty v, ?_, ?_, ?_, ?_, ?_⟩
  · intro same
    rw [same] at digit
    exact absurd digit (by decide)
  · intro same
    rw [same] at digit
    exact absurd digit (by decide)
  · exact fun mem => (versionChar_cases (SemVer.toText_chars v _ mem)).2.1 rfl
  · exact fun mem => (versionChar_cases (SemVer.toText_chars v _ mem)).2.2.1 rfl
  · exact fun mem => (versionChar_cases (SemVer.toText_chars v _ mem)).2.2.2.1 rfl

theorem plainName_of_safe {name : String} {windows : Bool} (safe : isSafeBasename name windows = true) :
    PlainName name := by
  have refused : (name.toList.isEmpty || name == "." || name == ".."
      || name.toList.any (fun c => ['/', '\\', '\x00', ':'].contains c)) = false := by
    rw [Bool.eq_false_iff]
    intro refused
    unfold isSafeBasename at safe
    dsimp only at safe
    rw [if_pos refused] at safe
    cases safe
  simp only [Bool.or_eq_false_iff, List.any_eq_false, List.isEmpty_eq_false_iff, beq_eq_false_iff_ne,
    List.contains_iff_mem, List.mem_cons, List.not_mem_nil, or_false, not_or] at refused
  obtain ⟨⟨⟨some_, dot⟩, dots⟩, chars⟩ := refused
  refine ⟨?_, dot, dots, fun mem => (chars _ mem).1 rfl, fun mem => (chars _ mem).2.1 rfl,
    fun mem => (chars _ mem).2.2.2 rfl⟩
  rintro rfl
  exact some_ rfl

/-- What the launcher resolves: the root is two levels above it, and the selector
is the text of the version and nothing else. -/
theorem resolveLauncherV1Payload_eq_ok {launcher path : FsPath} {active : Bytes}
    {payloadName : String} :
    resolveLauncherV1Payload V launcher active payloadName = .ok path ↔
      ∃ bin root, launcher.parent = some bin ∧
        bin.fileName.any (fun name => name.toLower == "bin") = true ∧ bin.parent = some root ∧
        ∃ v : V, active = encodeUtf8 (SemVer.toText v) ∧ active.length ≤ 128 ∧
          isSafeBasename payloadName true = true ∧
          path = ((root.join "versions").join (SemVer.toText v)).join payloadName := by
  simp only [resolveLauncherV1Payload, bind_eq_ok, orError_eq_ok, check_eq_ok, mapError_eq_ok,
    pure_eq_ok]
  constructor
  · rintro ⟨bin, parent, _, named, root, above, raw, decoded, _, ⟨_, short, _⟩, v, _, _, canonical,
      _, safe, rfl⟩
    refine ⟨bin, root, parent, named, above, v, ?_, short, safe, rfl⟩
    rw [canonical]
    exact encodeUtf8_of_decodeUtf8 decoded
  · rintro ⟨bin, root, parent, named, above, v, rfl, short, safe, rfl⟩
    exact ⟨bin, parent, (), named, root, above, SemVer.toText v, decodeUtf8_encodeUtf8 _, (),
      ⟨SemVer.toText_ne_empty v, short, trim_toText v⟩, v, SemVer.parse_toText v, (), rfl, (), safe,
      rfl⟩

end Relswap
