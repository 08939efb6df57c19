import Stepwise.Pattern.Basic
import Stepwise.Text.Alphanumeric
import Stepwise.Text.Blank

/-!
Reading a pattern. A text that is no pattern gives nothing, whatever is wrong with
it. Where layout is switched on, blanks and comments from `#` to the end of the
line stand between the parts and mean nothing. The patterns read here stand
inside braces and hold no closing brace themselves, so a count of repetitions in
braces never ends.
-/
namespace Stepwise.Pattern

/-- Passes over blanks and comments. -/
def skipLayout (inComment : Bool) : List Char → List Char
  | [] => []
  | c :: text =>
    if inComment then skipLayout (c != '\n') text
    else if c = '#' then skipLayout true text
    else if Text.isWhite c then skipLayout false text
    else c :: text

/-- Passes over layout where it is switched on. -/
def skip (spaced : Bool) (text : List Char) : List Char :=
  if spaced then skipLayout false text else text

/-- The character that tells whether a hyphen in front of it makes a range. Where
    layout is switched on, blanks and the mark of a comment do not count. -/
def afterHyphen? (spaced : Bool) (text : List Char) : Option Char :=
  if spaced then
    match text.dropWhile Text.isWhite with
    | '#' :: more => (more.dropWhile Text.isWhite).head?
    | more => more.head?
  else
    text.head?

/-- The value of a hexadecimal digit. -/
def hexDigit? (c : Char) : Option Nat :=
  if c.isDigit then some (c.toNat - '0'.toNat)
  else if 'a' ≤ c ∧ c ≤ 'f' then some (c.toNat - 'a'.toNat + 10)
  else if 'A' ≤ c ∧ c ≤ 'F' then some (c.toNat - 'A'.toNat + 10)
  else none

/-- Reads the character whose code has the given number of further hexadecimal
    digits. -/
def readHex (spaced : Bool) (code : Nat) : (digits : Nat) → List Char → Option (Char × List Char)
  | 0, text => if code.isValidChar then some (Char.ofNat code, text) else none
  | digits + 1, text =>
    match skip spaced text with
    | [] => none
    | c :: rest => (hexDigit? c).bind fun n => readHex spaced (16 * code + n) digits rest

/-- The control characters that a letter behind a backslash stands for. -/
def control? : Char → Option Char
  | 'a' => some '\x07'
  | 't' => some '\t'
  | 'n' => some '\n'
  | 'v' => some '\x0b'
  | 'f' => some '\x0c'
  | 'r' => some '\r'
  | _ => none

/-- Reads what a backslash begins. An ASCII letter or digit has to have a meaning there;
    any other ASCII character stands for itself, and no other may stand there. Classes by
    the category of their characters are not known. -/
def readEscape (spaced : Bool) : List Char → Option (Pattern × List Char)
  | [] => none
  | c :: rest =>
    if c = 'x' then
      (readHex spaced 0 2 rest).map fun (c, rest) => (.literal ⟨c, true⟩, rest)
    else if c = 'u' ∨ c = 'U' then
      (readHex spaced 0 (if c = 'u' then 4 else 8) rest).map fun (c, rest) => (.literal ⟨c, false⟩, rest)
    else if c = 'd' ∨ c = 's' ∨ c = 'w' then
      some (.shorthand false, rest)
    else if c = 'D' ∨ c = 'S' ∨ c = 'W' then
      some (.shorthand true, rest)
    else if c = 'A' ∨ c = 'z' then
      some (.assertion false, rest)
    else if c = 'b' ∨ c = 'B' ∨ c = '<' ∨ c = '>' then
      some (.assertion true, rest)
    else
      match control? c with
      | some control => some (.literal ⟨control, false⟩, rest)
      | none =>
        if c.isAlphanum ∨ 128 ≤ c.toNat then none else some (.literal ⟨c, false⟩, rest)

/-- What a pattern stands for inside brackets; assertions have no place there. -/
def class? : Pattern → Option Class
  | .literal l => some (.literal l)
  | .shorthand negated => some (.shorthand negated)
  | _ => none

/-- The range from one pattern to another, which have to be characters in order. -/
def range? : Pattern → Pattern → Option Class
  | .literal first, .literal last => if first.char ≤ last.char then some (.range first last) else none
  | _, _ => none

/-- The names of the classes that are written in brackets and colons. -/
def classNames : List String :=
  ["alnum", "alpha", "ascii", "blank", "cntrl", "digit", "graph", "lower", "print", "punct", "space",
    "upper", "word", "xdigit"]

/-- Reads a class with a name, behind its opening bracket. -/
def readNamed? (text : List Char) : Option (Class × List Char) :=
  match text with
  | ':' :: text =>
    let negated := text.head? == some '^'
    let text := if negated then text.drop 1 else text
    match text.dropWhile (· != ':') with
    | ':' :: ']' :: rest =>
      if classNames.contains (String.ofList (text.takeWhile (· != ':'))) then some (.named negated, rest)
      else none
    | _ => none
  | _ => none

/-- Reads a character or an escape inside brackets. -/
def readMember (spaced : Bool) : List Char → Option (Pattern × List Char)
  | [] => none
  | '\\' :: rest => readEscape spaced rest
  | c :: rest => some (.literal ⟨c, false⟩, rest)

/-- Reads a member of a class, or a range. A hyphen in front of a closing bracket or
    of another hyphen makes no range. -/
def readRange (spaced : Bool) (text : List Char) : Option (Class × List Char) :=
  match readMember spaced text with
  | none => none
  | some (first, rest) =>
    match skip spaced rest with
    | [] => none
    | '-' :: more =>
      if afterHyphen? spaced more = some ']' ∨ afterHyphen? spaced more = some '-' then
        (class? first).map (·, '-' :: more)
      else
        match readMember spaced (skip spaced more) with
        | none => none
        | some (last, rest) => (range? first last).map (·, rest)
    | rest => (class? first).map (·, rest)

/-- The class of the parts read so far, the latest first, combined with what stands
    in front of them. -/
def combine (left : Option (Class × ClassOp)) (parts : List Class) : Class :=
  match left with
  | none => .ofParts parts.reverse
  | some (left, op) => .combined left op (.ofParts parts.reverse)

/-- Reads the sign that a class is negated, behind its opening bracket. -/
def readNegation (spaced : Bool) (text : List Char) : Bool × List Char :=
  match skip spaced text with
  | '^' :: rest => (true, rest)
  | rest => (false, rest)

/-- Reads a class up to its closing bracket, given what stands in front. `first` tells
    that nothing but hyphens has been read: there hyphens stand for themselves, and so
    does a closing bracket if nothing has been read at all. -/
def readClass (spaced negated : Bool) :
    (fuel : Nat) → (first : Bool) → Option (Class × ClassOp) → List Class → List Char →
      Option (Class × List Char)
  | 0, _, _, _, _ => none
  | fuel + 1, first, left, parts, text =>
    let continueWith (part : Class) (rest : List Char) :=
      readClass spaced negated fuel false left (part :: parts) rest
    let combineBy (op : ClassOp) (rest : List Char) :=
      readClass spaced negated fuel false (some (combine left parts, op)) [] rest
    match skip spaced text, first, parts with
    | [], _, _ => none
    | '-' :: rest, true, _ =>
      readClass spaced negated fuel true left (.literal ⟨'-', false⟩ :: parts) rest
    | ']' :: rest, true, [] => continueWith (.literal ⟨']', false⟩) rest
    | ']' :: rest, _, _ => some (.bracketed negated (combine left parts), rest)
    | '[' :: rest, _, _ =>
      match readNamed? rest with
      | some (part, rest) => continueWith part rest
      | none =>
        let (inner, rest) := readNegation spaced rest
        match readClass spaced inner fuel true none [] rest with
        | some (part, rest) => continueWith part rest
        | none => none
    | '&' :: '&' :: rest, _, _ => combineBy .intersection rest
    | '-' :: '-' :: rest, _, _ => combineBy .difference rest
    | '~' :: '~' :: rest, _, _ => combineBy .symmetricDifference rest
    | rest, _, _ =>
      match readRange spaced rest with
      | some (part, rest) => continueWith part rest
      | none => none

/-- Sets the switch of a letter, if the letter has one. -/
def Switches.set (s : Switches) (letter : Char) (on : Bool) : Option Switches :=
  match letter with
  | 'u' => some { s with unicode := some on }
  | 'i' => some { s with caseless := some on }
  | 'x' => some { s with spaced := some on }
  | 'm' | 's' | 'U' | 'R' => some s
  | _ => none

/-- Reads switches: letters to switch on, and behind a minus sign letters to switch
    off. No sign stands there twice, and a minus sign not last. -/
def readSwitches (s : Switches) (seen : List Char) : List Char → Option (Switches × List Char)
  | [] => none
  | c :: rest =>
    if c = ':' ∨ c = ')' then
      if seen.head? = some '-' then none else some (s, c :: rest)
    else if seen.contains c then none
    else if c = '-' then readSwitches s (c :: seen) rest
    else
      match s.set c (!seen.contains '-') with
      | some s => readSwitches s (c :: seen) rest
      | none => none

/-- What an opening parenthesis begins: a group, perhaps with a name, or switches for
    what follows. -/
inductive Head where
  | group (s : Switches) (name : Option (List Char))
  | switches (s : Switches)
deriving Repr

/-- Whether a text can be the name of a group. -/
def isGroupName : List Char → Bool
  | [] => false
  | c :: rest =>
    (c = '_' || Text.isAlphabetic c) &&
      rest.all fun c => c = '_' || c = '.' || c = '[' || c = ']' || Text.isAlphanumeric c

/-- Reads the name of a group. -/
def readGroupName (text : List Char) : Option (Head × List Char) :=
  let name := text.takeWhile (· != '>')
  match text.dropWhile (· != '>') with
  | _ :: rest => if isGroupName name then some (.group .unchanged (some name), rest) else none
  | [] => none

/-- Reads what stands directly behind an opening parenthesis. -/
def readHead : List Char → Option (Head × List Char)
  | '?' :: 'P' :: '<' :: text => readGroupName text
  | '?' :: '<' :: text => readGroupName text
  | '?' :: text =>
    match readSwitches .unchanged [] text with
    | some (s, ':' :: rest) => some (.group s none, rest)
    | some (s, _ :: rest) => if text.head? = some ')' then none else some (.switches s, rest)
    | _ => none
  | text => some (.group .unchanged none, text)

/-- The names of the groups once one more is read. No name is given twice. -/
def addName (names : List (List Char)) : Option (List Char) → Option (List (List Char))
  | none => some names
  | some name => if names.contains name then none else some (name :: names)

/-- Whether something can be repeated. -/
def isRepeatable : Pattern → Bool
  | .switches _ => false
  | _ => true

/-- The pattern of the alternatives and of the parts of the last one read so far, the
    latest first. -/
def close (earlier : List Pattern) (parts : List Pattern) : Pattern :=
  ofAlternatives (ofSequence parts.reverse :: earlier).reverse

/-- Reads alternatives up to a closing parenthesis or to the end, given the names of the
    groups, the alternatives and the parts of the last one read so far. -/
def readParts :
    (fuel : Nat) → (spaced : Bool) → (names : List (List Char)) → (earlier parts : List Pattern) →
      List Char → Option (Pattern × List (List Char) × List Char)
  | 0, _, _, _, _, _ => none
  | fuel + 1, spaced, names, earlier, parts, text =>
    let continueWith (part : Pattern) (rest : List Char) :=
      readParts fuel spaced names earlier (part :: parts) rest
    match skip spaced text with
    | [] => some (close earlier parts, names, [])
    | ')' :: rest => some (close earlier parts, names, ')' :: rest)
    | '|' :: rest => readParts fuel spaced names (ofSequence parts.reverse :: earlier) [] rest
    | '(' :: rest =>
      match readHead (skip spaced rest) with
      | none => none
      | some (.switches s, rest) =>
        readParts fuel (s.spaced.getD spaced) names earlier (.switches s :: parts) rest
      | some (.group s name, rest) =>
        match addName names name with
        | none => none
        | some names =>
          match readParts fuel (s.spaced.getD spaced) names [] [] rest with
          | some (p, names, ')' :: rest) =>
            readParts fuel spaced names earlier (.group s p :: parts) rest
          | _ => none
    | '[' :: rest =>
      let (negated, rest) := readNegation spaced rest
      match readClass spaced negated fuel true none [] rest with
      | some (c, rest) => continueWith (.oneOf c) rest
      | none => none
    | '{' :: _ => none
    | '\\' :: rest =>
      match readEscape spaced rest with
      | some (part, rest) => continueWith part rest
      | none => none
    | '.' :: rest => continueWith .dot rest
    | c :: rest =>
      if c = '^' ∨ c = '$' then continueWith (.assertion false) rest
      else if c = '?' ∨ c = '*' ∨ c = '+' then
        match parts with
        | [] => none
        | part :: parts =>
          if isRepeatable part then
            let rest := if rest.head? = some '?' then rest.drop 1 else rest
            readParts fuel spaced names earlier (.repetition part :: parts) rest
          else none
      else continueWith (.literal ⟨c, false⟩) rest

/-- How deeply a pattern may be nested. -/
def depthLimit : Nat := 250

/-- Reads a pattern. -/
def read? (text : List Char) : Option Pattern :=
  match readParts (text.length + 1) false [] [] [] text with
  | some (p, _, []) => if p.depth ≤ depthLimit then some p else none
  | _ => none

end Stepwise.Pattern
