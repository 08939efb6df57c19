/-!
Places in a source text. Lines and columns count from one and the offset from
zero, all in characters. Walking over two texts one after the other leads to
the same place as walking over both at once (`advanceBy_append`).
-/
namespace Stepwise

/-- A place in a source text. -/
structure Position where
  line : Nat
  column : Nat
  offset : Nat
deriving DecidableEq, Repr, Inhabited

namespace Position

/-- The place in front of the first character. -/
def start : Position := ⟨1, 1, 0⟩

/-- The place behind a character. Only a line feed opens a new line. -/
def advance (p : Position) (c : Char) : Position :=
  if c = '\n' then ⟨p.line + 1, 1, p.offset + 1⟩ else ⟨p.line, p.column + 1, p.offset + 1⟩

/-- The place behind a stretch of text. -/
def advanceBy (p : Position) (text : List Char) : Position :=
  text.foldl advance p

/-- Line and column, the way they are shown to a person. -/
def render (p : Position) : String :=
  p.line.repr ++ ":" ++ p.column.repr

@[simp] theorem advanceBy_nil (p : Position) : p.advanceBy [] = p := rfl

@[simp] theorem advanceBy_cons (p : Position) (c : Char) (text : List Char) :
    p.advanceBy (c :: text) = (p.advance c).advanceBy text := rfl

theorem advanceBy_append (p : Position) (first second : List Char) :
    p.advanceBy (first ++ second) = (p.advanceBy first).advanceBy second :=
  List.foldl_append

@[simp] theorem offset_advance (p : Position) (c : Char) : (p.advance c).offset = p.offset + 1 := by
  unfold advance
  split <;> rfl

/-- The offset counts the characters passed. -/
theorem offset_advanceBy (p : Position) (text : List Char) :
    (p.advanceBy text).offset = p.offset + text.length := by
  induction text generalizing p with
  | nil => rfl
  | cons c text ih => simp [ih]; omega

end Position

end Stepwise
