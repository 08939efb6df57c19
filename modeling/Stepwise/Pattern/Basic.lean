/-!
Patterns that texts are matched against, as they are written: characters, classes
of characters in brackets, repetitions, groups and alternatives. How deeply a
pattern is nested counts every construct that holds others.
-/
namespace Stepwise.Pattern

/-- A character of a pattern. It may be written as a byte, by two hexadecimal
    digits. -/
structure Literal where
  char : Char
  asByte : Bool
deriving DecidableEq, Repr

/-- How two parts of a class are combined. -/
inductive ClassOp where
  | intersection | difference | symmetricDifference
deriving DecidableEq, Repr

/-- What stands in brackets: characters, ranges, classes that have a name, the
    classes of a letter behind a backslash, and further brackets. -/
inductive Class where
  | nothing
  | literal (l : Literal)
  | range (first last : Literal)
  | named (negated : Bool)
  | shorthand (negated : Bool)
  | union (parts : List Class)
  | combined (left : Class) (op : ClassOp) (right : Class)
  | bracketed (negated : Bool) (inside : Class)
deriving Repr, Inhabited

/-- The class of some parts: a single one stands for itself. -/
def Class.ofParts : List Class → Class
  | [] => nothing
  | [part] => part
  | parts => union parts

mutual

/-- How deeply a class is nested. -/
def Class.depth : Class → Nat
  | .nothing | .literal _ | .range _ _ | .named _ | .shorthand _ => 0
  | .union parts => depthEach parts + 1
  | .combined left _ right => max left.depth right.depth + 1
  | .bracketed _ inside => inside.depth + 1

/-- How deeply the deepest of some classes is nested. -/
def Class.depthEach : List Class → Nat
  | [] => 0
  | part :: rest => max part.depth (depthEach rest)

end

/-- What a pattern switches on and off from some place on: letters of all scripts,
    matching large and small letters alike, and layout between the parts. -/
structure Switches where
  unicode : Option Bool
  caseless : Option Bool
  spaced : Option Bool
deriving DecidableEq, Repr

/-- Everything stays as it is. -/
def Switches.unchanged : Switches := ⟨none, none, none⟩

end Stepwise.Pattern

namespace Stepwise

/-- Patterns. An assertion holds at a place and matches no character; it may be about
    the boundary of a word. -/
inductive Pattern where
  | nothing
  | literal (l : Pattern.Literal)
  | dot
  | shorthand (negated : Bool)
  | assertion (ofWord : Bool)
  | oneOf (c : Pattern.Class)
  | switches (s : Pattern.Switches)
  | repetition (p : Pattern)
  | group (s : Pattern.Switches) (p : Pattern)
  | sequence (ps : List Pattern)
  | alternatives (ps : List Pattern)
deriving Repr, Inhabited

end Stepwise

namespace Stepwise.Pattern

/-- Patterns one behind the other: a single one stands for itself. -/
def ofSequence : List Pattern → Pattern
  | [] => nothing
  | [p] => p
  | ps => sequence ps

/-- Patterns of which one has to match: a single one stands for itself. -/
def ofAlternatives : List Pattern → Pattern
  | [] => nothing
  | [p] => p
  | ps => alternatives ps

mutual

/-- How deeply a pattern is nested. -/
def depth : Pattern → Nat
  | nothing | literal _ | dot | shorthand _ | assertion _ | switches _ => 0
  | oneOf c => c.depth
  | repetition p | group _ p => p.depth + 1
  | sequence ps | alternatives ps => depthEach ps + 1

/-- How deeply the deepest of some patterns is nested. -/
def depthEach : List Pattern → Nat
  | [] => 0
  | p :: rest => max p.depth (depthEach rest)

end

end Stepwise.Pattern
