import Stepwise.Text.Blank
import Stepwise.Value.Primitive

/-!
What a line that a person typed stands for: a number if it looks like one in
plain notation, a truth value if it is the word for one, and otherwise the text
of the line. Blanks around the line do not matter, except that a text keeps
them; the mark that ends the line never counts.
-/
namespace Stepwise

/-- Whether a text is made of digits, points and minus signs, with a digit. -/
def looksNumeric (text : List Char) : Bool :=
  text.any Char.isDigit && text.all fun c => c.isDigit || c = '.' || c = '-'

/-- The plain data that a typed line stands for. -/
def Primitive.ofLine (line : String) : Primitive :=
  let text := Text.dropEnd Text.isLineEnd line.toList
  let trimmed := Text.trim text
  let number? := if looksNumeric trimmed then Number.read? (String.ofList trimmed) else none
  match number?, String.ofList trimmed with
  | some x, _ => .number x
  | none, "true" => .bool true
  | none, "false" => .bool false
  | none, _ => .string (String.ofList text)

end Stepwise
