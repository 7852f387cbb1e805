import Relswap.Install.Activation

/-!
# What the selector names

`Selects` is the meaning of the selector on either platform: the command symlink
or the `active` file has exactly the form that switching to a version gives it.
Reading the selector succeeds exactly on these forms, as long as the path is
absolute and the file is short enough to be read back.
-/

namespace Relswap.Installation

open Durable Layout

variable {V : Type} [SemVer V] (I : Installation)

/-- The selector is absent, or has the form that names the version. -/
def Selects (s : Disk V) (pointer : Option V) : Prop :=
  match I.platform, pointer with
  | .unix, none => s.command = .absent
  | .unix, some v => s.command = .symlink (I.payloadPath v)
  | .windows, none => s.active = .absent
  | .windows, some v => s.active = .file (encodeUtf8 (SemVer.toText v))

/-- The selector of a version can be read back. -/
def Readable (v : V) : Prop :=
  match I.platform with
  | .unix => (I.payloadPath v).isAbsolute .unix = true
  | .windows => (encodeUtf8 (SemVer.toText v)).length ≤ 128

/-- The slot of the disk that holds the selector. -/
def SameSelector (s t : Disk V) : Prop :=
  match I.platform with
  | .unix => t.command = s.command
  | .windows => t.active = s.active

theorem payloadPath_eq (v : V) : I.payloadPath v =
    I.versionsDir ++ [.normal (SemVer.toText v), .normal I.hostPayloadName] := by
  simp [payloadPath, versionDir, FsPath.join]

theorem payloadPath_injective : Function.Injective (I.payloadPath : V → FsPath) := by
  intro v w same
  rw [payloadPath_eq, payloadPath_eq] at same
  have tails := List.append_cancel_left same
  simp only [List.cons.injEq, Component.normal.injEq] at tails
  exact SemVer.toText_inj.mp tails.1

theorem Selects.unique {s : Disk V} {p q : Option V} (hp : I.Selects s p)
    (hq : I.Selects s q) : p = q := by
  unfold Selects at hp hq
  cases hI : I.platform <;> cases p <;> cases q <;> simp only [hI] at hp hq <;>
    rw [hp] at hq
  · cases hq
  · cases hq
  · rw [I.payloadPath_injective (CommandEntry.symlink.inj hq)]
  · cases hq
  · cases hq
  · rw [SemVer.toText_inj.mp (encodeUtf8_injective (Selector.file.inj hq))]

theorem Selects.same {s t : Disk V} {p : Option V} (h : I.Selects s p)
    (same : I.SameSelector s t) : I.Selects t p := by
  simp only [Selects, SameSelector] at *
  cases hI : I.platform <;> cases p <;> simp only [hI] at h same ⊢ <;> rw [same, h]

theorem Selects.of_same {s t : Disk V} {p : Option V} (h : I.Selects t p)
    (same : I.SameSelector s t) : I.Selects s p := by
  simp only [Selects, SameSelector] at *
  cases hI : I.platform <;> cases p <;> simp only [hI] at h same ⊢ <;> rw [← same, h]

theorem selects_select (v : V) (s : Disk V) : I.Selects (I.select v s) (some v) := by
  simp only [Selects, select]
  cases hI : I.platform <;> simp only

/-! ## Reading the selector -/

theorem parsePointerVersion_eq_ok {pointer : FsPath} {v : V} :
    (I.parsePointerVersion pointer : Except (InstallError V) V) = .ok v ↔
      pointer = I.payloadPath v := by
  have strip : ∀ path base rest : FsPath, path.stripPrefix base = some rest →
      path = base ++ rest := by
    intro path base
    induction base generalizing path with
    | nil =>
      intro rest h
      cases path <;> simpa [FsPath.stripPrefix] using h
    | cons b base ih =>
      intro rest h
      cases path with
      | nil => simp [FsPath.stripPrefix] at h
      | cons a path =>
        simp only [FsPath.stripPrefix] at h
        split at h
        · rename_i same
          rw [same, ih path rest h, List.cons_append]
        · cases h
  constructor
  · intro parsed
    simp only [parsePointerVersion, bind_eq_ok, orError_eq_ok] at parsed
    obtain ⟨relative, stripped, parsed⟩ := parsed
    have whole := strip _ _ _ stripped
    split at parsed
    · rename_i version payload rest
      simp only [bind_eq_ok, check_eq_ok] at parsed
      obtain ⟨_, ⟨rfl, rfl⟩, parsed⟩ := parsed
      rw [parseCanonicalVersion_eq_ok] at parsed
      rw [whole, parsed, payloadPath_eq]
    · cases parsed
    · cases parsed
  · intro same
    rw [same, payloadPath_eq, parsePointerVersion, FsPath.stripPrefix_append]
    simp [orError, check_pass]

theorem readPointerUnlocked_eq_none {s : Disk V} :
    I.readPointerUnlocked s = .ok none ↔ I.Selects s none := by
  simp only [readPointerUnlocked, Selects]
  cases hI : I.platform with
  | unix =>
    simp only [readUnixPointer]
    cases s.command <;> simp
  | windows =>
    simp only [readWindowsPointer]
    cases s.active <;> simp

theorem readPointerUnlocked_eq_some {s : Disk V} {v : V} :
    I.readPointerUnlocked s = .ok (some v) ↔ I.Selects s (some v) ∧ I.Readable v := by
  simp only [readPointerUnlocked, Selects, Readable]
  cases hI : I.platform with
  | unix =>
    simp only [readUnixPointer]
    cases s.command with
    | symlink target =>
      simp only [bind_eq_ok, check_eq_ok, pure_eq_ok, parsePointerVersion_eq_ok, hI,
        FsPath.samePath_unix, CommandEntry.symlink.injEq, Option.some.injEq]
      constructor
      · rintro ⟨_, absolute, w, same, _, _, rfl⟩
        exact ⟨same, same ▸ absolute⟩
      · rintro ⟨rfl, absolute⟩
        exact ⟨(), absolute, v, rfl, (), rfl, rfl⟩
    | absent => simp
    | file bytes => simp
    | other => simp
    | unreachable => simp
  | windows =>
    simp only [readWindowsPointer]
    cases s.active with
    | file bytes =>
      simp only [bind_eq_ok, check_eq_ok, orError_eq_ok, parseCanonicalVersion_eq_ok,
        pure_eq_ok, Option.some.injEq, Selector.file.injEq]
      constructor
      · rintro ⟨_, short, raw, decoded, w, rfl, rfl⟩
        have bytes_eq : bytes = encodeUtf8 (SemVer.toText w) := encodeUtf8_of_decodeUtf8 decoded
        exact ⟨bytes_eq, bytes_eq ▸ short⟩
      · rintro ⟨rfl, short⟩
        exact ⟨(), short, _, decodeUtf8_encodeUtf8 _, v, rfl, rfl⟩
    | absent => simp
    | foreign => simp

/-- A selector that can be read has one of the two forms. -/
theorem selects_of_read {s : Disk V} {p : Option V} (h : I.readPointerUnlocked s = .ok p) :
    I.Selects s p := by
  cases p with
  | none => exact I.readPointerUnlocked_eq_none.mp h
  | some v => exact (I.readPointerUnlocked_eq_some.mp h).1

theorem readPointerUnlocked_same {s t : Disk V} (same : I.SameSelector s t) :
    I.readPointerUnlocked t = I.readPointerUnlocked s := by
  simp only [readPointerUnlocked, SameSelector] at *
  cases hI : I.platform <;> simp only [hI] at same ⊢
  · simp only [readUnixPointer, same]
  · simp only [readWindowsPointer, same]

end Relswap.Installation
