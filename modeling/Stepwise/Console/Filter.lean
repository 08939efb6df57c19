import Stepwise.Number.Decimal
import Stepwise.Pattern.Support
import Stepwise.Text.Segments

/-!
Log filters: directives between commas. A directive is a level, or a target, a
span in brackets or both, with a level behind an equals sign. A span may ask
for a field, whose value is a number or a pattern. A directive that cannot be read
is passed over with a complaint, and the others still count.
-/
namespace Stepwise.Console

/-- Why a directive cannot be read. -/
inductive FilterFault where
  | malformed
  | wrongLevel
  | wrongField (fault : Pattern.PatternFault)
deriving DecidableEq, Repr

/-- The wording of a fault of a directive. -/
def FilterFault.message : FilterFault → String
  | malformed => "invalid filter directive"
  | wrongLevel =>
    "error parsing level filter: expected one of \"off\", \"error\", \"warn\", \"info\", \"debug\", " ++
      "\"trace\", or a number 0-5"
  | wrongField fault => "invalid field filter: " ++ fault.message

/-- Whether a text is the number of a level: up to five, perhaps with a plus sign. -/
def isLevelNumber (text : List Char) : Bool :=
  let digits := match text with
    | '+' :: digits => digits
    | digits => digits
  !digits.isEmpty && digits.all Char.isDigit && decide (Number.ofDigits digits ≤ 5)

/-- Whether a text is a level. Its letters may be large or small; no text at all is
    the level that lets everything pass. -/
def isLevel (text : List Char) : Bool :=
  ["", "off", "error", "warn", "info", "debug", "trace"].contains (String.ofList (text.map Char.toLower))
    || isLevelNumber text

/-- Whether a target may begin with a character. -/
def startsTarget (c : Char) : Bool :=
  c = '-' || c = ':' || c = '_' || Text.isAlphanumeric c

/-- What is wrong with a field: a name, and perhaps a value behind an equals sign. A value
    is a number or a pattern. -/
def fieldFault? (field : List Char) : Option FilterFault :=
  match Text.segments '=' field with
  | _ :: value :: _ =>
    if (Number.read? (String.ofList value)).isSome then none
    else (Pattern.fault? value).map .wrongField
  | _ => none

/-- A directive as it was given, and without the blanks around it. The places of its
    parts are counted without the blanks in front, and yet the parts are cut out of the
    directive as it was given. -/
structure Directive where
  given : List Char
  trimmed : List Char

namespace Directive

/-- The directive of a text. -/
def ofText (text : List Char) : Directive :=
  ⟨text, Text.trim text⟩

/-- The part from the place where `rest` is left. -/
def cut (d : Directive) (rest : List Char) : List Char :=
  d.given.drop (d.trimmed.length - rest.length)

/-- The part from the place where `rest` is left to the place where `stop` is left. -/
def between (d : Directive) (rest stop : List Char) : List Char :=
  (d.cut rest).take (rest.length - stop.length)

/-- What is wrong behind a target or a span, where there may be a level. -/
def levelFault? (d : Directive) : List Char → Option FilterFault
  | [] => none
  | '=' :: level => if isLevel (d.cut level) then none else some .wrongLevel
  | _ => some .malformed

/-- What is wrong behind the opening brace of a field. -/
def bracedFault? (d : Directive) (text : List Char) : Option FilterFault :=
  match text.dropWhile (· != '}') with
  | [] => some .malformed
  | stop :: rest =>
    let field := d.between text (stop :: rest)
    if field.isEmpty then some .malformed
    else (fieldFault? field).or <|
      match rest with
      | ']' :: rest => d.levelFault? rest
      | _ => some .malformed

/-- What is wrong behind the opening bracket of a span. A span may have a name and a
    field in braces. -/
def spanFault? (d : Directive) (text : List Char) : Option FilterFault :=
  match text.dropWhile fun c => c != ']' && c != '{' with
  | ']' :: rest => d.levelFault? rest
  | '{' :: rest => d.bracedFault? rest
  | _ => some .malformed

/-- What is wrong with a directive. -/
def fault? (d : Directive) : Option FilterFault :=
  match d.trimmed with
  | [] => some .malformed
  | '[' :: text => d.spanFault? text
  | c :: text =>
    if startsTarget c then
      match text.dropWhile fun c => c != '=' && c != '[' with
      | '[' :: rest => d.spanFault? rest
      | rest => d.levelFault? rest
    else
      some .malformed

end Directive

/-- The complaint about a directive. -/
def reportDirective (text : List Char) (fault : FilterFault) : String :=
  "ignoring `" ++ String.ofList text ++ "`: " ++ fault.message ++ "\n"

/-- The complaints about the directives of a filter that are passed over. Nothing
    between two commas is no directive. -/
def reportFilter (filter : String) : String :=
  let directives := (Text.segments ',' filter.toList).filter (!·.isEmpty)
  String.join (directives.filterMap fun text => (Directive.ofText text).fault?.map (reportDirective text))

end Stepwise.Console
