import Stepwise.Number.Decimal

/-!
The shortest decimal of a double: the fewest digits that read back as it, and
of the decimals with that many digits the nearest. The search goes from coarse
to fine grids of decimals and tries the two grid points around the value.
-/
namespace Stepwise.Number

/-- The `k`-th double as a quotient in units of `10 ^ exponent`. -/
def onGrid (k : Nat) (exponent : Int) : Nat × Nat :=
  if 0 ≤ exponent then (units k, unitsPerOne * tenTo exponent.toNat)
  else (units k * tenTo (-exponent).toNat, unitsPerOne)

/-- The place of the first digit of the `k`-th double: the double is less than
    ten to this power. No positive double is smaller than `10 ^ -324`. -/
def decimalMagnitude (k : Nat) : Int :=
  digitCount (units k * tenTo 324 / unitsPerOne) - 324

/-- The nearer of the two grid points around the `k`-th double, among those that
    read back as it. The upper one wins a tie. -/
def gridPoint? (k : Nat) (exponent : Int) : Option Decimal :=
  let (numerator, denominator) := onGrid k exponent
  let lower : Decimal := ⟨numerator / denominator, exponent⟩
  let upper : Decimal := ⟨numerator / denominator + 1, exponent⟩
  match decide (lower.toOrdinal = k), decide (upper.toOrdinal = k) with
  | true, true => some (if 2 * (numerator % denominator) < denominator then lower else upper)
  | true, false => some lower
  | false, true => some upper
  | false, false => none

/-- The first grid with a point that reads back, from `exponent` downward. -/
def search (k : Nat) (exponent : Int) : Nat → Decimal
  | 0 => ⟨(onGrid k exponent).1 / (onGrid k exponent).2, exponent⟩
  | steps + 1 => (gridPoint? k exponent).getD (search k (exponent - 1) steps)

/-- A decimal without the zero that a carry into a new place leaves behind. -/
def Decimal.dropZero (d : Decimal) : Decimal :=
  if d.digits % 10 = 0 then ⟨d.digits / 10, d.exponent + 1⟩ else d

/-- The shortest decimal of the `k`-th double, for a positive finite one. On the
    grid of `10 ^ -1074` every double is a point, so the search ends there. -/
def shortest (k : Nat) : Decimal :=
  let magnitude := decimalMagnitude k
  (search k (magnitude - 1) (magnitude + 1074).toNat).dropZero

end Stepwise.Number
