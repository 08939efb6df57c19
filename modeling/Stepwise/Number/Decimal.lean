import Stepwise.Number.Binary

/-!
Decimal numbers: a whole number of digits scaled by a power of ten. A decimal
is read from text by the usual grammar (a sign, digits around a point, an
exponent) and stands for the double nearest to it.
-/
namespace Stepwise.Number

/-- The number `digits · 10 ^ exponent`. -/
structure Decimal where
  digits : Nat
  exponent : Int
deriving DecidableEq, Repr

/-- How many decimal digits a number has; zero has none. -/
def digitCount (n : Nat) : Nat :=
  if n = 0 then 0 else digitCount (n / 10) + 1
decreasing_by omega

namespace Decimal

/-- The ordinal of the double nearest to a decimal. -/
def nearest (d : Decimal) : Nat :=
  if 0 ≤ d.exponent then
    Number.nearest (d.digits * tenTo d.exponent.toNat) 1
  else
    Number.nearest d.digits (tenTo (-d.exponent).toNat)

/-- The place of the first digit: a decimal is less than ten to this power. -/
def magnitude (d : Decimal) : Int :=
  digitCount d.digits + d.exponent

/-- The ordinal of the double that a decimal stands for. Decimals beyond all
    finite doubles, and those below half the smallest, need no arithmetic. -/
def toOrdinal (d : Decimal) : Nat :=
  if d.digits = 0 then 0
  else if 310 < d.magnitude then infinity
  else if d.magnitude < -330 then 0
  else d.nearest

end Decimal

/-- The number that a run of decimal digits stands for. -/
def ofDigits (digits : List Char) : Nat :=
  digits.foldl (fun n c => 10 * n + (c.toNat - '0'.toNat)) 0

/-- The double that a run of decimal digits stands for. -/
def ofDigitRun (digits : List Char) : Float :=
  ofOrdinal false (Decimal.mk (ofDigits digits) 0).toOrdinal

/-- Splits a sign off a text; a text without one counts as positive. -/
def splitSign : List Char → Bool × List Char
  | '-' :: text => (true, text)
  | '+' :: text => (false, text)
  | text => (false, text)

/-- The exponent mark with what follows it, at the end of a decimal. -/
def readExponent? : List Char → Option Int
  | [] => some 0
  | mark :: text =>
    let (negative, digits) := splitSign text
    if (mark = 'e' ∨ mark = 'E') ∧ digits ≠ [] ∧ digits.all Char.isDigit then
      some (if negative then -ofDigits digits else ofDigits digits)
    else
      none

/-- An unsigned decimal: digits with at most one point, at least one digit, and
    perhaps an exponent. -/
def readDecimal? (text : List Char) : Option Decimal :=
  let whole := text.takeWhile Char.isDigit
  let (fraction, tail) := match text.dropWhile Char.isDigit with
    | '.' :: more => (more.takeWhile Char.isDigit, more.dropWhile Char.isDigit)
    | more => ([], more)
  if whole = [] ∧ fraction = [] then
    none
  else
    (readExponent? tail).map fun e => ⟨ofDigits (whole ++ fraction), e - fraction.length⟩

/-- The words for infinity and for what is not a number, in any case. -/
def readWord? (negative : Bool) (text : List Char) : Option Float :=
  match String.ofList (text.map Char.toLower) with
  | "inf" | "infinity" => some (ofOrdinal negative infinity)
  | "nan" => some (Float.ofBits 0x7ff8000000000000)
  | _ => none

/-- The double that a text stands for, if it is the text of a number. -/
def read? (text : String) : Option Float :=
  let (negative, unsigned) := splitSign text.toList
  match readDecimal? unsigned with
  | some d => some (ofOrdinal negative d.toOrdinal)
  | none => readWord? negative unsigned

end Stepwise.Number
