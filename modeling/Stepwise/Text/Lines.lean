/-!
Lines of a text. A reader takes lines that keep their line feed (`split`); a
report names a place by line and column, where more characters than the line
feed end a line (`locate`).
-/
namespace Stepwise.Text

/-- Puts a character in front of the first line. -/
def consLine (c : Char) : List (List Char) → List (List Char)
  | [] => [[c]]
  | line :: lines => (c :: line) :: lines

/-- The lines of a text, each with the line feed that ends it. -/
def split : List Char → List (List Char)
  | [] => []
  | c :: text => if c = '\n' then [c] :: split text else consLine c (split text)

/-- The characters that end a line in a report. -/
def endsLine (c : Char) : Bool :=
  c = '\n' || c = '\r' || c = '\x0b' || c = '\x0c' || c = '\u0085' || c = '\u2028' || c = '\u2029'

/-- Line and column of the place `offset` characters further on, from a line and a
    column. A carriage return and a line feed end a line together, and no line
    begins at the end of the text. -/
def locateFrom (line column : Nat) : (text : List Char) → (offset : Nat) → Nat × Nat
  | _, 0 => (line, column)
  | [], _ + 1 => (line, column)
  | c :: text, offset + 1 =>
    let joined : Bool := c = '\r' && text.head? = some '\n'
    if endsLine c && !joined && !text.isEmpty then locateFrom (line + 1) 1 text offset
    else locateFrom line (column + 1) text offset

/-- Line and column of an offset in a text, both from one. -/
def locate (text : String) (offset : Nat) : Nat × Nat :=
  locateFrom 1 1 text.toList offset

end Stepwise.Text
