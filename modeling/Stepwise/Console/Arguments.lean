/-!
The arguments of the command line: a script file, and switches that may stand
anywhere. Each may be given once; what is not known is refused.
-/
namespace Stepwise.Console

/-- What the command line asks for. -/
structure Invocation where
  file : Option String
  interactive : Bool
  stepping : Bool
  filter : Option String
deriving DecidableEq, Repr

/-- The command line without arguments. -/
def Invocation.plain : Invocation := ⟨none, false, false, none⟩

/-- What becomes of a command line. -/
inductive CommandLine where
  | run (i : Invocation)
  | help
  | refused
deriving DecidableEq, Repr

namespace Invocation

/-- Names the script file. -/
def withFile (i : Invocation) (file : String) : Option Invocation :=
  if i.file.isSome then none else some { i with file := some file }

/-- Asks for the interactive prompt. -/
def withInteractive (i : Invocation) : Option Invocation :=
  if i.interactive then none else some { i with interactive := true }

/-- Asks for stepping. -/
def withStepping (i : Invocation) : Option Invocation :=
  if i.stepping then none else some { i with stepping := true }

/-- Names a log filter. -/
def withFilter (i : Invocation) (filter : String) : Option Invocation :=
  if i.filter.isSome then none else some { i with filter := some filter }

end Invocation

/-- Reads the letters of short switches. -/
def readLetters (i : Invocation) : List Char → Invocation ⊕ CommandLine
  | [] => .inl i
  | 'i' :: more =>
    match i.withInteractive with
    | some i => readLetters i more
    | none => .inr .refused
  | 'd' :: more =>
    match i.withStepping with
    | some i => readLetters i more
    | none => .inr .refused
  | 'h' :: _ => .inr .help
  | _ => .inr .refused

/-- Reads arguments that name files only. -/
def readFiles (i : Invocation) : List String → CommandLine
  | [] => .run i
  | file :: more =>
    match i.withFile file with
    | some i => readFiles i more
    | none => .refused

/-- Whether an argument is a switch, judged by its dash. A lone dash is not. -/
def isSwitch (argument : String) : Bool :=
  match argument.toList with
  | '-' :: _ :: _ => true
  | _ => false

/-- Reads the arguments of a command line. -/
def readArguments (i : Invocation) : List String → CommandLine
  | [] => .run i
  | "--" :: more => readFiles i more
  | "--help" :: _ => .help
  | "--interactive" :: more =>
    match i.withInteractive with
    | some i => readArguments i more
    | none => .refused
  | "--debug" :: more =>
    match i.withStepping with
    | some i => readArguments i more
    | none => .refused
  | "--log" :: [] => .refused
  | "--log" :: filter :: more =>
    if isSwitch filter then .refused
    else
      match i.withFilter filter with
      | some i => readArguments i more
      | none => .refused
  | argument :: more =>
    match argument.toList with
    | '-' :: '-' :: 'l' :: 'o' :: 'g' :: '=' :: filter =>
      match i.withFilter (String.ofList filter) with
      | some i => readArguments i more
      | none => .refused
    | '-' :: '-' :: _ => .refused
    | '-' :: letter :: letters =>
      match readLetters i (letter :: letters) with
      | .inl i => readArguments i more
      | .inr request => request
    | _ =>
      match i.withFile argument with
      | some i => readArguments i more
      | none => .refused

/-- What a command line asks for. -/
def CommandLine.ofArguments (arguments : List String) : CommandLine :=
  readArguments .plain arguments

/-- The text that explains the command line. -/
def usage : String :=
  "A small scripting language with a step-through debugger\n\n" ++
  "Usage: steplang [OPTIONS] [FILE]\n\n" ++
  "Arguments:\n  [FILE]  The script file to execute\n\n" ++
  "Options:\n" ++
  "  -i, --interactive   Start in interactive REPL mode\n" ++
  "  -d, --debug         Step through the script one statement at a time\n" ++
  "      --log <FILTER>  Log filter\n" ++
  "  -h, --help          Print help\n"

end Stepwise.Console
