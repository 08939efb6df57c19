import Stepwise.Pattern.Read

/-!
Which patterns can be matched. Text is matched by its letters or by its bytes. By
letters, no tables are at hand: neither the classes of a letter behind a
backslash nor large and small letters alike are known. By bytes, nothing may match
a part of a letter. The boundaries of words can be found by bytes only.
-/
namespace Stepwise.Pattern

/-- How a part of a pattern is matched. -/
structure Mode where
  unicode : Bool
  caseless : Bool
deriving DecidableEq, Repr

namespace Mode

/-- How a pattern is matched where nothing is switched. -/
def initial : Mode := ⟨true, false⟩

/-- How a pattern is matched behind some switches. -/
def apply (m : Mode) (s : Switches) : Mode :=
  ⟨s.unicode.getD m.unicode, s.caseless.getD m.caseless⟩

/-- Whether a character can be matched. -/
def supports (m : Mode) (l : Literal) : Bool :=
  if m.unicode then !m.caseless else !(l.asByte && decide (128 ≤ l.char.toNat))

/-- Whether one of the classes of a letter behind a backslash can be matched. -/
def supportsShorthand (m : Mode) (negated : Bool) : Bool :=
  !m.unicode && !negated

end Mode

mutual

/-- Whether a class, taken by bytes, has those that are no letter of their own. -/
def Class.hasHighBytes : Class → Bool
  | .nothing | .literal _ | .range _ _ | .shorthand _ => false
  | .named negated => negated
  | .union parts => anyHasHighBytes parts
  | .combined left op right =>
    match op with
    | .intersection => left.hasHighBytes && right.hasHighBytes
    | .difference => left.hasHighBytes && !right.hasHighBytes
    | .symmetricDifference => left.hasHighBytes != right.hasHighBytes
  | .bracketed negated inside => negated != inside.hasHighBytes

/-- Whether one of some classes has bytes that are no letter of their own. -/
def Class.anyHasHighBytes : List Class → Bool
  | [] => false
  | part :: rest => part.hasHighBytes || anyHasHighBytes rest

end

/-- Whether a character can stand in a class. -/
def Mode.supportsMember (m : Mode) (l : Literal) : Bool :=
  m.unicode || decide (l.char.toNat < 128)

mutual

/-- Whether a class can be matched. -/
def Class.isSupported (m : Mode) : Class → Bool
  | .nothing | .named _ => true
  | .literal l => m.supportsMember l
  | .range first last => m.supportsMember first && m.supportsMember last
  | .shorthand negated => m.supportsShorthand negated
  | .union parts => allSupported m parts
  | .combined left _ right => left.isSupported m && right.isSupported m
  | .bracketed negated inside =>
    inside.isSupported m && if m.unicode then !m.caseless else negated == inside.hasHighBytes

/-- Whether all of some classes can be matched. -/
def Class.allSupported (m : Mode) : List Class → Bool
  | [] => true
  | part :: rest => part.isSupported m && allSupported m rest

end

/-- What examining a pattern tells if all its parts can be read as they are meant: how
    what follows is matched, and whether the boundary of a word is asked for by letters. -/
abbrev Findings := Mode × Bool

mutual

/-- Examines a pattern. Switches hold up to the end of the group around them. -/
def examine (m : Mode) : Pattern → Option Findings
  | .nothing => some (m, false)
  | .switches s => some (m.apply s, false)
  | .literal l => if m.supports l then some (m, false) else none
  | .dot => if m.unicode then some (m, false) else none
  | .shorthand negated => if m.supportsShorthand negated then some (m, false) else none
  | .assertion ofWord => some (m, ofWord && m.unicode)
  | .oneOf c => if c.isSupported m then some (m, false) else none
  | .repetition p => examine m p
  | .group s p => (examine (m.apply s) p).map fun (_, boundary) => (m, boundary)
  | .sequence ps => examineEach m ps
  | .alternatives ps => examineEach m ps

/-- Examines patterns in the order they are written. -/
def examineEach (m : Mode) : List Pattern → Option Findings
  | [] => some (m, false)
  | p :: rest =>
    match examine m p with
    | none => none
    | some (m, here) => (examineEach m rest).map fun (m, later) => (m, here || later)

end

/-- Why a text cannot be matched against. -/
inductive PatternFault where
  | unreadable
  | wordBoundary
deriving DecidableEq, Repr

/-- The wording of a fault of a pattern. -/
def PatternFault.message : PatternFault → String
  | unreadable => "error building NFA"
  | wordBoundary =>
    "unsupported regex feature for DFAs: cannot build DFAs for regexes with Unicode word boundaries; " ++
      "switch to ASCII word boundaries, or heuristically enable Unicode word boundaries or use a " ++
      "different regex engine"

/-- What is wrong with the text of a pattern. -/
def fault? (text : List Char) : Option PatternFault :=
  match (read? text).bind (examine .initial) with
  | none => some .unreadable
  | some (_, true) => some .wordBoundary
  | some (_, false) => none

end Stepwise.Pattern
