/-!
The non-negative doubles in increasing order. The `k`-th of them is counted
from zero, and infinity stands behind the finite ones. Each finite double is a
whole number of the smallest positive one (`units`), so a quotient is rounded
to the nearest double in exact arithmetic (`nearest`).
-/
namespace Stepwise.Number

/-- Powers of two. -/
def twoTo (n : Nat) : Nat := Nat.pow 2 n

/-- Powers of ten. -/
def tenTo (n : Nat) : Nat := Nat.pow 10 n

/-- How many doubles share one exponent. -/
def binade : Nat := twoTo 52

/-- How many of the smallest positive double make up one. -/
def unitsPerOne : Nat := twoTo 1074

/-- The first bit pattern of a negative number. -/
def signBit : Nat := twoTo 63

/-- The ordinal of infinity. -/
def infinity : Nat := 2047 * binade

/-- The power of two by which the significand of the `k`-th double is scaled. -/
def shift (k : Nat) : Nat :=
  k / binade - 1

/-- The significand of the `k`-th double. The doubles of the first stretch have
    no leading one. -/
def significand (k : Nat) : Nat :=
  k - shift k * binade

/-- How many of the smallest positive double make up the `k`-th double. -/
def units (k : Nat) : Nat :=
  significand k * twoTo (shift k)

/-- A quotient rounded to the nearest whole number, a half to the even one. -/
def roundDiv (numerator denominator : Nat) : Nat :=
  let quotient := numerator / denominator
  match compare (2 * (numerator % denominator)) denominator with
  | .lt => quotient
  | .eq => quotient + quotient % 2
  | .gt => quotient + 1

/-- The ordinal of the double nearest to a quotient; of two equally near ones
    that with the even significand. -/
def nearest (numerator denominator : Nat) : Nat :=
  let scaled := numerator * unitsPerOne
  let shift := (scaled / denominator).log2 - 52
  min infinity (shift * binade + roundDiv scaled (denominator * twoTo shift))

/-- The double with the given sign and ordinal. -/
def ofOrdinal (negative : Bool) (k : Nat) : Float :=
  Float.ofBits (UInt64.ofNat (if negative then signBit + k else k))

/-- What a double is. -/
inductive Shape where
  | notANumber
  | infinite (negative : Bool)
  | finite (negative : Bool) (ordinal : Nat)
deriving DecidableEq, Repr

/-- The shape of a double, read off its bits. -/
def shape (x : Float) : Shape :=
  let bits := x.toBits.toNat
  let negative : Bool := decide (signBit ≤ bits)
  let k := bits % signBit
  if infinity < k then .notANumber
  else if k = infinity then .infinite negative
  else .finite negative k

end Stepwise.Number
