import Stepwise.Number.Shortest

/-!
The text of a number. Scripts show numbers with the shortest digits in
positional notation (`render`); the inspection of a value keeps a fraction on
whole numbers and writes very large and very small ones with an exponent
(`inspect`). Both are one layout with different choices.
-/
namespace Stepwise.Number

/-- The choices of a layout: which decimals are written positionally, told by
    the place of the first digit, and whether whole numbers keep a fraction. -/
structure Layout where
  positional : Int → Bool
  wholeFraction : Bool

/-- All numbers are written positionally, whole ones without a fraction. -/
def Layout.plain : Layout := ⟨fun _ => true, false⟩

/-- Numbers from `10 ^ -4` up to below `10 ^ 16` are written positionally, whole
    ones with a zero behind the point. -/
def Layout.inspection : Layout := ⟨fun place => decide (-3 ≤ place ∧ place ≤ 16), true⟩

/-- The mark of a negative number. -/
def signText (negative : Bool) : String :=
  if negative then "-" else ""

/-- A run of zeros. -/
def zeros (n : Nat) : List Char :=
  List.replicate n '0'

/-- A decimal in positional notation. -/
def Decimal.positional (d : Decimal) (wholeFraction : Bool) : String :=
  let digits := d.digits.repr.toList
  if 0 ≤ d.exponent then
    String.ofList (digits ++ zeros d.exponent.toNat) ++ (if wholeFraction then ".0" else "")
  else
    let behind := (-d.exponent).toNat
    let padded := zeros (behind + 1 - digits.length) ++ digits
    let whole := padded.length - behind
    String.ofList (padded.take whole ++ '.' :: padded.drop whole)

/-- A decimal with one digit in front of the point and an exponent. -/
def Decimal.scientific (d : Decimal) : String :=
  let digits := d.digits.repr.toList
  let exponent := d.exponent + digits.length - 1
  let fraction := if digits.length ≤ 1 then [] else '.' :: digits.drop 1
  String.ofList (digits.take 1 ++ fraction) ++ "e" ++ exponent.repr

/-- The text of a positive finite double. -/
def Layout.magnitude (layout : Layout) (k : Nat) : String :=
  let d := shortest k
  if layout.positional d.magnitude then d.positional layout.wholeFraction else d.scientific

/-- The text of a number in a layout. -/
def Layout.write (layout : Layout) (x : Float) : String :=
  match shape x with
  | .notANumber => "NaN"
  | .infinite negative => signText negative ++ "inf"
  | .finite negative 0 => signText negative ++ (if layout.wholeFraction then "0.0" else "0")
  | .finite negative k => signText negative ++ layout.magnitude k

/-- The text of a number as scripts show it. -/
def render (x : Float) : String :=
  Layout.plain.write x

/-- The text of a number as it is inspected. -/
def inspect (x : Float) : String :=
  Layout.inspection.write x

end Stepwise.Number
