import Stepwise.Console.Basic

/-!
The command line program: it shows what the conversation says, and reads a line
whenever the conversation waits for one.
-/
namespace Stepwise.Main

open Stepwise.Console

/-- More steps than a run takes in practice. -/
def fuel : Nat := 1000000000000000000

/-- What a file holds. -/
def content (file : String) : IO Content := do
  try
    let bytes ← IO.FS.readBinFile file
    match String.fromUTF8? bytes with
    | some source => pure (.text source)
    | none => pure .notText
  catch e =>
    match e with
    | .noFileOrDirectory .. => pure .missing
    | .inappropriateType .. => pure .directory
    | e => pure (.unreadable e.toString)

/-- Goes through a conversation with the lines of the standard input. -/
partial def talk (input output : IO.FS.Stream) (c : Conversation) : IO UInt32 := do
  let (shown, desk) := c.desk.takeShown
  output.putStr shown
  output.flush
  let c := { c with desk := desk }
  match c.stage with
  | .closed exit => pure exit.toUInt32
  | .await _ =>
    let line ← input.getLine
    talk input output (c.hear fuel (if line.isEmpty then none else some line))

/-- Runs a command line. -/
def run (arguments : List String) : IO UInt32 := do
  let line := CommandLine.ofArguments arguments
  let found ← match line with
    | .run ⟨some file, false, _, _⟩ => content file
    | _ => pure .missing
  match Opening.ofCommandLine fuel line fun _ => found with
  | .exit complaint code shown =>
    IO.print shown
    IO.eprint complaint
    pure code.toUInt32
  | .talk complaint c =>
    IO.eprint complaint
    talk (← IO.getStdin) (← IO.getStdout) c

end Stepwise.Main

/-- The command line program. -/
def main (arguments : List String) : IO UInt32 :=
  Stepwise.Main.run arguments
