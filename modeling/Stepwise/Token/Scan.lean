import Stepwise.Token.Basic

/-!
Cutting a source text into tokens. Blanks and line comments separate tokens and
mean nothing else. A scanner reads one token at a time, and the tokens of a
text are what it reads until the text ends. Nothing of the text is lost:
what is skipped, what is read and what is left make up the text again
(`splitLayout_append`, `lexeme_append`).
-/
namespace Stepwise

/-- The blanks between tokens. -/
def isBlank (c : Char) : Bool :=
  c = ' ' || c = '\t' || c = '\n' || c = '\r'

/-- Splits off the layout in front of a text: blanks, and comments from `//` up
    to the end of the line. `inComment` tells that a comment is open. -/
def splitLayout (inComment : Bool) : List Char → List Char × List Char
  | [] => ([], [])
  | c :: text =>
    if inComment then
      let (gap, rest) := splitLayout (c != '\n') text
      (c :: gap, rest)
    else if isBlank c then
      let (gap, rest) := splitLayout false text
      (c :: gap, rest)
    else if c = '/' ∧ text.head? = some '/' then
      let (gap, rest) := splitLayout true text
      (c :: gap, rest)
    else
      ([], c :: text)

theorem splitLayout_append (inComment : Bool) (text : List Char) :
    (splitLayout inComment text).1 ++ (splitLayout inComment text).2 = text := by
  induction text generalizing inComment with
  | nil => rfl
  | cons c text ih =>
    simp only [splitLayout]
    split
    · simp [ih]
    · split
      · simp [ih]
      · split
        · simp [ih]
        · rfl

/-- A token as it is spelled in the source. -/
structure Lexeme where
  kind : Kind
  spelling : List Char
deriving DecidableEq, Repr

/-- The text a lexeme stands for: a string goes without its quotes, everything
    else as it is spelled. -/
def Lexeme.literal (l : Lexeme) : String :=
  if l.kind = .string then String.ofList (l.spelling.drop 1).dropLast else String.ofList l.spelling

/-- The operators that an equals sign directly behind them extends. -/
def extensible? : Char → Option (Kind × Kind)
  | '!' => some (.bang, .bangEqual)
  | '=' => some (.equal, .equalEqual)
  | '<' => some (.less, .lessEqual)
  | '>' => some (.greater, .greaterEqual)
  | _ => none

/-- The tokens of a single character. -/
def symbol? : Char → Option Kind
  | '(' => some .leftParen
  | ')' => some .rightParen
  | '{' => some .leftBrace
  | '}' => some .rightBrace
  | '[' => some .leftBracket
  | ']' => some .rightBracket
  | ',' => some .comma
  | ':' => some .colon
  | '.' => some .dot
  | '-' => some .minus
  | '+' => some .plus
  | ';' => some .semicolon
  | '*' => some .star
  | '/' => some .slash
  | _ => none

/-- The string whose opening quote stands in front of `text`. It ends at the
    next quote and knows no escapes; without a further quote all the rest is
    one illegal token. -/
def quoted (text : List Char) : Lexeme × List Char :=
  let body := text.takeWhile (· != '"')
  match text.dropWhile (· != '"') with
  | [] => (⟨.illegal, '"' :: body⟩, [])
  | quote :: rest => (⟨.string, '"' :: body ++ [quote]⟩, rest)

/-- Splits off the lexeme that begins with `c`. -/
def lexeme (c : Char) (text : List Char) : Lexeme × List Char :=
  if c = '"' then
    quoted text
  else if c.isDigit then
    (⟨.number, c :: text.takeWhile Char.isDigit⟩, text.dropWhile Char.isDigit)
  else if c.isAlpha then
    let word := c :: text.takeWhile Char.isAlpha
    (⟨.ofWord (String.ofList word), word⟩, text.dropWhile Char.isAlpha)
  else
    match extensible? c, text with
    | some (_, double), '=' :: rest => (⟨double, [c, '=']⟩, rest)
    | some (single, _), _ => (⟨single, [c]⟩, text)
    | none, _ => (⟨(symbol? c).getD .illegal, [c]⟩, text)

theorem quoted_append (text : List Char) :
    (quoted text).1.spelling ++ (quoted text).2 = '"' :: text := by
  have whole := text.takeWhile_append_dropWhile (p := (· != '"'))
  unfold quoted
  split
  · next none => simp_all
  · next quote rest some => simp [← some, whole]

theorem lexeme_append (c : Char) (text : List Char) :
    (lexeme c text).1.spelling ++ (lexeme c text).2 = c :: text := by
  unfold lexeme
  split
  · next quote => simp [quote, quoted_append]
  · split
    · simp
    · split
      · simp
      · split <;> simp

/-- A lexeme spells at least its first character. -/
theorem lexeme_spelling_ne_nil (c : Char) (text : List Char) : (lexeme c text).1.spelling ≠ [] := by
  unfold lexeme
  split
  · unfold quoted
    split <;> simp
  · split
    · simp
    · split
      · simp
      · split <;> simp

/-- A scanner: the text still to be read and the place where it begins. -/
structure Scanner where
  position : Position
  rest : List Char
deriving DecidableEq, Repr

namespace Scanner

/-- The scanner in front of a whole source text. -/
def ofSource (source : String) : Scanner :=
  ⟨.start, source.toList⟩

/-- Passes over layout. -/
def skip (s : Scanner) : Scanner :=
  let (gap, rest) := splitLayout false s.rest
  ⟨s.position.advanceBy gap, rest⟩

/-- Reads one token, or nothing when only layout is left. -/
def read? (s : Scanner) : Option (Token × Scanner) :=
  match s.skip.rest with
  | [] => none
  | c :: text =>
    let (l, rest) := lexeme c text
    some (⟨l.kind, l.literal, s.skip.position⟩, ⟨s.skip.position.advanceBy l.spelling, rest⟩)

/-- The token that marks the end of the text. -/
def eof (s : Scanner) : Token :=
  ⟨.eof, "", s.skip.position⟩

/-- Reads one token. At the end of the text this is the end mark, however often
    it is asked for. -/
def next (s : Scanner) : Token × Scanner :=
  s.read?.getD (s.eof, s.skip)

theorem length_skip_le (s : Scanner) : s.skip.rest.length ≤ s.rest.length := by
  have whole := congrArg List.length (splitLayout_append false s.rest)
  simp only [List.length_append] at whole
  simp only [skip]
  omega

/-- Every token that is read leaves less text. -/
theorem length_lt_of_read? {s s' : Scanner} {t : Token} (read : s.read? = some (t, s')) :
    s'.rest.length < s.rest.length := by
  have skipped := s.length_skip_le
  unfold read? at read
  split at read
  · cases read
  · next c text more =>
    have whole := congrArg List.length (lexeme_append c text)
    have some := List.length_pos_iff.mpr (lexeme_spelling_ne_nil c text)
    simp only [Option.some.injEq, Prod.mk.injEq] at read
    obtain ⟨-, rfl⟩ := read
    simp only [List.length_append, List.length_cons] at whole
    simp only [more, List.length_cons] at skipped
    show (lexeme c text).2.length < s.rest.length
    omega

/-- The tokens up to the end of the text, and the end mark. -/
def readAll (s : Scanner) : List Token × Token :=
  match _read : s.read? with
  | none => ([], s.eof)
  | some (t, s') =>
    let (ts, stop) := readAll s'
    (t :: ts, stop)
termination_by s.rest.length
decreasing_by exact length_lt_of_read? _read

/-- The first `n` tokens that a scanner gives. -/
def take (s : Scanner) : Nat → List Token
  | 0 => []
  | n + 1 => s.next.1 :: s.next.2.take n

end Scanner

/-- The tokens of a source text, the end mark being the last. -/
def tokenize (source : String) : List Token :=
  let (ts, stop) := (Scanner.ofSource source).readAll
  ts ++ [stop]

end Stepwise
