import Relswap.Install.Launcher
import Relswap.Install.SelfTest
import Relswap.Proof.Refusal
import Relswap.Sample.World

/-!
# What the self-test rejects

The self-test looks for the text of the activated version anywhere in the output.
A payload that reports another version is therefore rejected exactly when the one
text does not occur in the other. The operation that makes the self-test then changes
neither the selector nor a document.
-/

namespace Relswap

open Durable Durable.Program

section Infix

variable {α : Type} {l xs ys : List α} {a : α}

/-- A list without the separator occurs on one side of it. -/
theorem infix_separated (free : a ∉ l) : l <:+: xs ++ a :: ys ↔ l <:+: xs ∨ l <:+: ys := by
  constructor
  · rintro ⟨before, after, split⟩
    rw [List.append_assoc, List.append_eq_append_iff] at split
    rcases split with ⟨rest, rfl, split⟩ | ⟨rest, rfl, split⟩
    · rw [List.append_eq_append_iff] at split
      rcases split with ⟨rest', rfl, _⟩ | ⟨rest', same, split⟩
      · exact .inl ⟨before, rest', by simp⟩
      · cases rest' with
        | nil => exact .inl ⟨before, [], by simp [same]⟩
        | cons b rest' =>
          cases split
          exact absurd (by simp [same]) free
    · cases rest with
      | nil =>
        cases l with
        | nil => exact .inl List.nil_infix
        | cons b l =>
          cases split
          exact absurd List.mem_cons_self free
      | cons b rest =>
        cases split
        exact .inr ⟨rest, after, by simp⟩
  · rintro (⟨before, after, rfl⟩ | ⟨before, after, rfl⟩)
    · exact ⟨before, after ++ a :: ys, by simp⟩
    · exact ⟨xs ++ a :: before, after, by simp⟩

end Infix

/-! ## Bytes of texts -/

theorem encodeUtf8_append (x y : String) : encodeUtf8 (x ++ y) = encodeUtf8 x ++ encodeUtf8 y := by
  simp [encodeUtf8]

theorem digit_byte_of_text {text : String} {byte : UInt8} (mem : byte ∈ encodeUtf8 text)
    (low : 48 ≤ byte.toNat) (high : byte.toNat ≤ 57) : ∃ c ∈ text.toList, c.isDigit = true := by
  obtain ⟨c, hc, same⟩ := char_of_byte mem (by omega)
  refine ⟨c, hc, ?_⟩
  simp only [Char.isDigit, Bool.and_eq_true, decide_eq_true_eq, ge_iff_le, UInt32.le_iff_toNat_le]
  change 48 ≤ c.toNat ∧ c.toNat ≤ 57
  omega

variable {V : Type} [SemVer V]

theorem encodeUtf8_toText (v : V) :
    encodeUtf8 (SemVer.toText v) = (SemVer.toText v).toList.map fun c => UInt8.ofNat c.toNat := by
  have ascii : ∀ c ∈ (SemVer.toText v).toList, String.utf8EncodeChar c = [UInt8.ofNat c.toNat] := by
    intro c hc
    have encoded := utf8EncodeChar_ofNat (versionChar_ascii (SemVer.toText_chars v c hc))
    rwa [Char.ofNat_toNat] at encoded
  conv_lhs => rw [← String.ofList_toList (s := SemVer.toText v), encodeUtf8_ofList]
  rw [List.flatMap_congr ascii]
  exact List.flatMap_pure_eq_map ..

/-- The text of a version starts with a digit and has no blank or line feed. -/
theorem toText_bytes (v : V) :
    (∃ digit ∈ encodeUtf8 (SemVer.toText v), 48 ≤ digit.toNat ∧ digit.toNat ≤ 57) ∧
      32 ∉ encodeUtf8 (SemVer.toText v) ∧ 10 ∉ encodeUtf8 (SemVer.toText v) := by
  refine ⟨?_, fun blank => ?_, fun feed => ?_⟩
  · rw [encodeUtf8_toText]
    have digit := SemVer.toText_digit v
    cases text : (SemVer.toText v).toList with
    | nil =>
      rw [text] at digit
      cases digit
    | cons c cs =>
      rw [text] at digit
      have bounds : c.isDigit = true := digit
      simp only [Char.isDigit, Bool.and_eq_true, decide_eq_true_eq, ge_iff_le,
        UInt32.le_iff_toNat_le] at bounds
      have low : 48 ≤ c.toNat := bounds.1
      have high : c.toNat ≤ 57 := bounds.2
      refine ⟨UInt8.ofNat c.toNat, by simp, ?_, ?_⟩ <;> rw [UInt8.toNat_ofNat'] <;> omega
  · have mem : ' ' ∈ (SemVer.toText v).toList := mem_of_byte (by decide) blank
    exact (versionChar_cases (SemVer.toText_chars v _ mem)).2.2.2.2.1 rfl
  · have mem : '\n' ∈ (SemVer.toText v).toList := mem_of_byte (by decide) feed
    exact (versionChar_cases (SemVer.toText_chars v _ mem)).2.2.2.2.2 rfl

/-- In the report of a payload the text of a version occurs only in the version. -/
theorem occurs_in_report {name : String} (digitless : ∀ c ∈ name.toList, c.isDigit = false)
    (v w : V) :
    encodeUtf8 (SemVer.toText v) <:+: encodeUtf8 (name ++ " " ++ SemVer.toText w ++ "\n") ↔
      encodeUtf8 (SemVer.toText v) <:+: encodeUtf8 (SemVer.toText w) := by
  obtain ⟨⟨digit, mem, low, high⟩, noBlank, noFeed⟩ := toText_bytes v
  have report : encodeUtf8 (name ++ " " ++ SemVer.toText w ++ "\n") =
      encodeUtf8 name ++ 32 :: (encodeUtf8 (SemVer.toText w) ++ 10 :: []) := by
    have blank : encodeUtf8 " " = [32] := by decide +kernel
    have feed : encodeUtf8 "\n" = [10] := by decide +kernel
    simp [encodeUtf8_append, blank, feed]
  rw [report, infix_separated noBlank, infix_separated noFeed]
  constructor
  · rintro (inName | inVersion | inNothing)
    · obtain ⟨c, hc, isDigit⟩ := digit_byte_of_text (inName.subset mem) low high
      rw [digitless c hc] at isDigit
      cases isDigit
    · exact inVersion
    · exact absurd (inNothing.subset mem) List.not_mem_nil
  · exact fun occurs => .inr (.inl occurs)

/-! ## The verdict -/

section

variable {U : Type} [Crates V] [UrlCrate U] {I : Installation}

/-- The text of one version occurs in the text of the other. -/
def OccursIn (v w : V) : Prop := encodeUtf8 (SemVer.toText v) <:+: encodeUtf8 (SemVer.toText w)

/-- A probe that started, exited with success, and printed one text and no more. -/
def Prints (started : Except (InstallError V) Unit) (passes : List Poll) (text : String) : Prop :=
  started = .ok () ∧ collectSelfTest (V := V) .start passes =
    .ok ⟨some true, 2, encodeUtf8 text, []⟩

omit [Crates V] in
/-- The verdict of the self-test on such a payload. -/
theorem runSelfTest_eq_ok (digitless : ∀ c ∈ I.app.name.toList, c.isDigit = false) {v w : V}
    {started : Except (InstallError V) Unit} {passes : List Poll}
    (prints : Prints started passes (I.app.name ++ " " ++ SemVer.toText w ++ "\n")) :
    runSelfTest v started passes = .ok () ↔ OccursIn v w := by
  obtain ⟨rfl, collected⟩ := prints
  simp only [runSelfTest, collected, ok_bind, judgeSelfTest, List.append_nil, bind_eq_ok,
    check_eq_ok, occurs_in_report digitless]
  exact ⟨fun h => h.choose_spec.2, fun occurs => ⟨(), trivial, occurs⟩⟩

omit [UrlCrate U] in
/-- The activation sequence begins with the self-test and ends with its error. -/
theorem activatePointerAndState_fails (config : I.app.selfTest.isSome = true)
    {inputs : Inputs V U} {e : InstallError V} (failed : inputs.probe = .error e)
    (fromVersion : Option V) (toVersion : V) (id : String) (prior : Option (InstallState V))
    (transaction : Option String) (inject : Nat → Bool) (s : Disk V) :
    (I.activatePointerAndState inputs fromVersion toVersion id prior transaction).run inject s =
      (.error e, s) := by
  rw [Installation.activatePointerAndState]
  rw [onlyIf, if_pos config, failed]
  rfl

end

section Sample

open Sample

/-- A host whose application is probed before it is activated. -/
def probingHost : Installation :=
  { unixHost with app := { Sample.app unixTarget with selfTest := some ⟨["--version"]⟩ } }

/-- The passes over a payload that prints one text and exits with success. -/
def reporting (text : String) : List Poll :=
  [⟨.ok none, false, .data .stdout (encodeUtf8 text)⟩, ⟨.ok none, false, .done (.ok ())⟩,
    ⟨.ok (some true), false, .done (.ok ())⟩]

theorem reporting_prints (text : String) :
    Prints (V := Edition) (.ok ()) (reporting text) text := ⟨rfl, rfl⟩

/-- The name of the application contains no digit. -/
theorem probingHost_name : ∀ c ∈ probingHost.app.name.toList, c.isDigit = false := by
  have letters : (probingHost.app.name.toList.all fun c => !c.isDigit) = true := by decide +kernel
  simpa using letters

/-- The first release is installed, and a payload that reports 1.0.0 comes as 2.0.0. -/
def probedDisk : Disk Edition := after probingHost (install unixTarget firstRelease) freshDisk

def probedInputs : Inputs Edition Url :=
  { inputs unixTarget secondRelease signatureBytes with
    probe := runSelfTest secondRelease (.ok ()) (reporting "app 1.0.0\n") }

end Sample

end Relswap
