import Relswap.Fs.Executable

/-!
# Temporary names

Names made from different counters differ, and none is the name it was made
from. Among 32 counters in a row one is free as soon as fewer than 32 temporary
names are taken.
-/

namespace Relswap

open Durable
open Durable.Program (get write require attempt mark onlyIf forEach)

namespace FileHost

variable {H : FileHost} {path temporary : EntryPath} {name : OsName} {kind : String}
  {pid a b : Nat} {s t : Folders} {bytes : Bytes}

/-! ## Names -/

theorem temporaryText_inj (same : temporaryText name kind pid a = temporaryText name kind pid b) :
    a = b := by
  have texts := congrArg String.toList same
  simp only [temporaryText, String.toList_append] at texts
  have digits := List.append_cancel_left (List.append_cancel_right texts)
  exact Nat.repr_injective (String.toList_inj.mp digits)

theorem temporaryName_inj (same : temporaryName name kind pid a = temporaryName name kind pid b) :
    a = b := temporaryText_inj (encodeUtf8_injective same)

/-- A temporary name is longer than the name it was made from. -/
theorem temporaryName_ne : temporaryName name kind pid a ≠ name := by
  intro same
  have stem : decodeUtf8 name = some (temporaryText name kind pid a) := by
    conv_lhs => rw [← same]
    exact decodeUtf8_encodeUtf8 _
  have texts : temporaryText name kind pid a = temporaryText name kind pid a := rfl
  nth_rewrite 2 [temporaryText] at texts
  rw [stem] at texts
  have lengths := congrArg (fun text => text.toList.length) texts
  simp only [Option.getD_some, String.toList_append, List.length_append] at lengths
  have dot : (toString ".").toList.length = 1 := rfl
  change _ = _ + (temporaryText name kind pid a).toList.length + _ + _ + _ + _ + _ + _ + _
    at lengths
  omega

theorem temporaryBeside_ne {counter : UInt64} : H.temporaryBeside path kind counter ≠ path := by
  intro same
  exact temporaryName_ne (congrArg EntryPath.name same)

theorem temporaryBeside_inj {c d : UInt64}
    (same : H.temporaryBeside path kind c = H.temporaryBeside path kind d) : c = d :=
  UInt64.toNat_inj.mp (temporaryName_inj (congrArg EntryPath.name same))

/-- The counter after a number of increments. -/
def later (counter : UInt64) (steps : Nat) : UInt64 := counter + UInt64.ofNat steps

theorem later_zero (counter : UInt64) : later counter 0 = counter := UInt64.add_zero counter

theorem later_succ (counter : UInt64) (steps : Nat) :
    later (counter + 1) steps = later counter (steps + 1) := by
  rw [later, later, UInt64.add_assoc, UInt64.add_comm 1, UInt64.ofNat_add]
  rfl

theorem later_inj {counter : UInt64} {i j : Nat} (small : i < 32) (small' : j < 32)
    (same : later counter i = later counter j) : i = j := by
  have numbers := congrArg UInt64.toNat same
  simp only [later, UInt64.toNat_add, UInt64.toNat_ofNat'] at numbers
  omega

/-- Fewer than 32 taken names leave one of 32 counters in a row free. -/
theorem exists_free (counter : UInt64) (taken : List EntryPath) (few : taken.length < 32)
    (all : ∀ c, s.entries (H.temporaryBeside path kind c) ≠ none →
      H.temporaryBeside path kind c ∈ taken) :
    ∃ i < 32, s.entries (H.temporaryBeside path kind (later counter i)) = none := by
  by_contra full
  have present : ∀ i < 32, H.temporaryBeside path kind (later counter i) ∈ taken := by
    intro i small
    apply all
    intro free
    exact full ⟨i, small, free⟩
  let names := (List.range 32).map fun i => H.temporaryBeside path kind (later counter i)
  have distinct : names.Nodup := by
    apply List.Nodup.map_on _ List.nodup_range
    intro i first j second same
    exact later_inj (List.mem_range.mp first) (List.mem_range.mp second)
      (temporaryBeside_inj same)
  have inside : names ⊆ taken := by
    intro p member
    obtain ⟨i, small, rfl⟩ := List.mem_map.mp member
    exact present i (List.mem_range.mp small)
  have count := (List.Nodup.subperm distinct inside).length_le
  rw [List.length_map, List.length_range] at count
  omega

end FileHost

end Relswap
