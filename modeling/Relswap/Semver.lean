import Relswap.Durable.Check

/-!
# Semantic versions

Versions come from a third-party crate. The program uses their total order,
their canonical text and the parser of that text, and nothing else, so the
development is generic in a type with these three and the documented facts:
parsing undoes printing, and the text starts with a digit and consists of letters,
digits, dots, hyphens and plus signs.
-/

namespace Relswap

/-- The characters that occur in the text of a semantic version. -/
def versionChar (c : Char) : Bool := c.isAlphanum || c == '.' || c == '-' || c == '+'

/-- The semantic-version crate as this program uses it. -/
class SemVer (V : Type) extends LinearOrder V where
  toText : V → String
  parse : String → Except String V
  parse_toText : ∀ v, parse (toText v) = .ok v
  toText_ne_empty : ∀ v, toText v ≠ ""
  toText_digit : ∀ v, (toText v).toList.head?.any Char.isDigit = true
  toText_chars : ∀ v, ∀ c ∈ (toText v).toList, versionChar c = true

namespace SemVer

variable {V : Type} [SemVer V]

theorem toText_injective : Function.Injective (toText : V → String) := by
  intro v w same
  have parsed := parse_toText v
  rw [same, parse_toText w] at parsed
  exact (Except.ok.inj parsed).symm

@[simp] theorem toText_inj {v w : V} : toText v = toText w ↔ v = w :=
  toText_injective.eq_iff

end SemVer

end Relswap
