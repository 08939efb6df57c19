/-!
The characters that count as blank around a typed line: the white space of the
Unicode standard.
-/
namespace Stepwise.Text

/-- White space in the sense of the Unicode standard. -/
def isWhite (c : Char) : Bool :=
  let n := c.toNat
  decide (0x9 ≤ n ∧ n ≤ 0xd) || n == 0x20 || n == 0x85 || n == 0xa0 || n == 0x1680
    || decide (0x2000 ≤ n ∧ n ≤ 0x200a) || n == 0x2028 || n == 0x2029 || n == 0x202f
    || n == 0x205f || n == 0x3000

/-- A text without the characters of a class at its end. -/
def dropEnd (p : Char → Bool) (text : List Char) : List Char :=
  (text.reverse.dropWhile p).reverse

/-- A text without the blanks at both ends. -/
def trim (text : List Char) : List Char :=
  dropEnd isWhite (text.dropWhile isWhite)

/-- The end marks of lines. -/
def isLineEnd (c : Char) : Bool :=
  c = '\r' || c = '\n'

end Stepwise.Text
