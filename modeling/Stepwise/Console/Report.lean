import Stepwise.Parse.Failure
import Stepwise.Text.Lines
import Stepwise.Value.Fault

/-!
The reports of a console: what could not be read, with its place, and what went
wrong in a run, which has none.
-/
namespace Stepwise.Console

/-- A source text and the name it is reported under. -/
structure Source where
  name : String
  text : String
deriving Repr

/-- The name of what is typed at the prompt. -/
def promptName : String := "<repl>"

/-- The stretch that a diagnostic marks in a text of some length: where it begins and where it ends. It
    does not go on behind the end of the text. -/
def label (length : Nat) (d : Diagnostic) : Nat × Nat :=
  let stop := min (d.position.offset + d.width) length
  (min d.position.offset stop, stop)

/-- The report of a diagnostic, with the place at which its label begins. -/
def reportDiagnostic (source : Source) (d : Diagnostic) : String :=
  let (line, column) := Text.locate source.text (label source.text.length d).1
  "Error: Parse Error: " ++ d.message ++ "\n  at " ++ source.name ++ ":" ++ line.repr ++ ":" ++
    column.repr ++ "\n"

/-- The reports of all diagnostics of a source. -/
def reportDiagnostics (source : Source) (ds : List Diagnostic) : String :=
  String.join (ds.map (reportDiagnostic source))

/-- The report of a fault. -/
def reportFault (fault : Fault) : String :=
  "Error: Runtime Error: " ++ fault.message ++ "\n"

/-- What is found under the name of a file. -/
inductive Content where
  | missing
  | text (source : String)
  | unreadable (reason : String)
deriving Repr

/-- Why a directory cannot be read as a file. -/
def Content.directory : Content := .unreadable "Is a directory (os error 21)"

/-- Why bytes that are no text cannot be read as one. -/
def Content.notText : Content := .unreadable "stream did not contain valid UTF-8"

/-- The report of a file that does not exist. -/
def reportMissing (file : String) : String :=
  "Error: File '" ++ file ++ "' not found\n"

/-- The report of a file that cannot be read. -/
def reportUnreadable (file reason : String) : String :=
  "Error reading file '" ++ file ++ "': " ++ reason ++ "\n"

end Stepwise.Console
