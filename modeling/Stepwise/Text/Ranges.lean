/-!
Classes of characters as ranges of codes.
-/
namespace Stepwise.Text

/-- The first and the last code of a range. -/
abbrev Range := Nat × Nat

/-- Whether the code of a character lies in one of the ranges. -/
def inRanges (ranges : List Range) (c : Char) : Bool :=
  ranges.any fun (first, last) => decide (first ≤ c.toNat ∧ c.toNat ≤ last)

end Stepwise.Text
