import Stepwise.Console.Arguments
import Stepwise.Console.Desk
import Stepwise.Console.Filter
import Stepwise.Console.Report
import Stepwise.Script.Render
import Stepwise.Session

/-!
The conversation at a console. It runs a script file, steps through one, or reads
commands at a prompt. Whenever a line is needed, be it a command or an answer to
the script, the conversation stops and goes on with that line (`Console.hear`);
so the whole of it is a function of the lines typed (`converse`).
-/
namespace Stepwise.Console

/-- What a conversation waits for a line for. -/
inductive Await where
  | command
  | reply (p : Progress Unit)
  | scriptReply (p : Progress Unit)
  | step (source : Source) (s : Session Unit)
  | stepReply (source : Source) (s : Session Unit) (toEnd : Bool)

/-- Where a conversation stands: it waits for a line, or it is closed with an exit
    code. -/
inductive Stage where
  | await (a : Await)
  | closed (exit : Nat)

/-- A conversation: the desk, what the commands at the prompt have left behind, the
    outermost scope, and where it stands. -/
structure Conversation where
  desk : Desk
  memory : Memory
  root : FrameId
  stage : Stage

namespace Conversation

/-- Shows a text. -/
def say (c : Conversation) (text : String) : Conversation :=
  { c with desk := c.desk.say text }

/-- Closes a conversation. -/
def close (c : Conversation) (exit : Nat) : Conversation :=
  { c with stage := .closed exit }

/-- Waits for a line. -/
def await (c : Conversation) (a : Await) : Conversation :=
  { c with stage := .await a }

/-- Asks for a command. -/
def prompt (c : Conversation) : Conversation :=
  (c.say "> ").await .command

/-- Shows what a command came to, and asks for the next. -/
def showValue (c : Conversation) : Value → Conversation
  | .error fault => (c.say (reportFault fault)).prompt
  | .null => c.prompt
  | v => (c.say (v.render ++ "\n")).prompt

/-- Closes the run of a script file. -/
def conclude (c : Conversation) : Value → Conversation
  | .error fault => (c.say (reportFault fault)).close 1
  | _ => c.close 0

/-- Lets the run of a command or of a script file go on until it ends or asks for a
    line. -/
def goOn (fuel : Nat) (p : Progress Unit) (waiting : Progress Unit → Await)
    (ended : Conversation → Value → Conversation) (c : Conversation) : Conversation :=
  let e := p.poll host setting false fuel c.desk none false
  let c := { c with desk := e.state }
  match e.turn with
  | .finished v memory => ended { c with memory := memory } v
  | .pending _ p => c.await (waiting p)
  | .exhausted p => { c with memory := p.abandon }.close 1

/-- Takes a command. -/
def command (fuel : Nat) (c : Conversation) : Typed → Conversation
  | none => (c.say "\n").close 0
  | some line =>
    let source := String.ofList (Text.trim line.toList)
    if source.isEmpty then c.prompt
    else if source = "exit" ∨ source = "quit" then (c.say "Goodbye!\n").close 0
    else
      let parsed := parse source
      if parsed.diagnostics.isEmpty then
        goOn fuel (.running (.start c.memory parsed.script c.root)) .reply showValue c
      else
        (c.say (reportDiagnostics ⟨promptName, source⟩ parsed.diagnostics)).prompt

/-- Shows a checkpoint: the statement, and what can be seen from its scope. -/
def showCheckpoint (c : Conversation) (store : Store) (k : Checkpoint) : Conversation :=
  let bindings := (store.visible k.scope).entries.map fun (name, v) =>
    "    " ++ name ++ " = " ++ v.render ++ "\n"
  c.say ("[" ++ k.statement.position.render ++ "] " ++ k.statement.render ++ "\n" ++ String.join bindings)

/-- Closes a session. -/
def closeSession (c : Conversation) (s : Session Unit) : Conversation :=
  match s.status, s.result with
  | .completed, some v => c.conclude v
  | _, _ => (c.say "(stopped)\n").close 1

/-- Lets a session go on to its next checkpoint, or to its end. -/
def advance (fuel : Nat) (source : Source) (toEnd : Bool) (s : Session Unit) (c : Conversation) :
    Conversation :=
  let (desk, s, next) :=
    if toEnd then s.runToEnd host setting fuel 0 fuel c.desk else s.next host setting fuel 0 fuel c.desk
  let c := { c with desk := desk }
  match next with
  | .checkpoint k => ((c.showCheckpoint s.memory.store k).say "(step) ").await (.step source s)
  | .none => c.closeSession s
  | .pending _ => c.await (.stepReply source s toEnd)
  | .exhausted => c.close 1

/-- Takes a command for a session: to run to the end, to quit, or to take a step. -/
def stepCommand (fuel : Nat) (source : Source) (s : Session Unit) (c : Conversation) : Typed → Conversation
  | none => c.closeSession s.cancel
  | some line =>
    match String.ofList (Text.trim line.toList) with
    | "c" | "continue" => c.advance fuel source true s
    | "q" | "quit" => c.closeSession s.cancel
    | _ => c.advance fuel source false s

/-- Goes on with a typed line. -/
def hear (fuel : Nat) (c : Conversation) (typed : Typed) : Conversation :=
  match c.stage with
  | .closed _ => c
  | .await .command => c.command fuel typed
  | .await (.reply p) => goOn fuel p .reply showValue { c with desk := c.desk.put typed }
  | .await (.scriptReply p) => goOn fuel p .scriptReply conclude { c with desk := c.desk.put typed }
  | .await (.step source s) => c.stepCommand fuel source s typed
  | .await (.stepReply source s toEnd) => { c with desk := c.desk.put typed }.advance fuel source toEnd s

/-- A conversation that has not begun. -/
def fresh : Conversation :=
  let (memory, root) := Memory.start
  ⟨.clean, memory, root, .closed 0⟩

/-- Begins to read commands. -/
def interactive : Conversation :=
  (fresh.say "steplang v0.1.0\nType 'exit' or press Ctrl+C to quit\n\n").prompt

/-- Begins to run a script file, or to step through it. -/
def ofScript (fuel : Nat) (stepping : Bool) (source : Source) : Conversation :=
  let parsed := parse source.text
  let c := fresh
  if parsed.diagnostics.isEmpty then
    if stepping then c.advance fuel source false (.start c.memory parsed.script c.root)
    else goOn fuel (.running (.start c.memory parsed.script c.root)) .scriptReply conclude c
  else
    (c.say (reportDiagnostics source parsed.diagnostics)).close 1

end Conversation

/-- How a command line begins: with what is complained about, and then a conversation,
    or an exit code and what is shown. -/
inductive Opening where
  | talk (complaint : String) (c : Conversation)
  | exit (complaint : String) (code : Nat) (shown : String)

/-- Begins with an invocation. `content` tells what is found under a file name. -/
def Opening.ofInvocation (fuel : Nat) (i : Invocation) (content : String → Content) : Opening :=
  let complaint := (i.filter.map reportFilter).getD ""
  match i.file, i.interactive with
  | some file, false =>
    match content file with
    | .missing => .exit (complaint ++ reportMissing file) 1 ""
    | .unreadable reason => .exit (complaint ++ reportUnreadable file reason) 1 ""
    | .text source => .talk complaint (.ofScript fuel i.stepping ⟨file, source⟩)
  | _, _ => .talk complaint .interactive

/-- Begins with what a command line asks for. -/
def Opening.ofCommandLine (fuel : Nat) (line : CommandLine) (content : String → Content) : Opening :=
  match line with
  | .run i => .ofInvocation fuel i content
  | .help => .exit "" 0 usage
  | .refused => .exit usage 2 ""

/-- What a whole conversation comes to. -/
structure Transcript where
  exit : Nat
  shown : String
  complaint : String
deriving Repr

/-- Goes through a conversation with the lines typed, and with the end of the input
    behind them as often as it is asked for, up to `rounds` times. -/
def Conversation.finish (fuel : Nat) (complaint : String) :
    (rounds : Nat) → List String → Conversation → Transcript
  | 0, _, c => ⟨1, c.desk.shown, complaint⟩
  | rounds + 1, lines, c =>
    match c.stage with
    | .closed exit => ⟨exit, c.desk.shown, complaint⟩
    | .await _ => finish fuel complaint rounds (lines.drop 1) (c.hear fuel lines.head?)

/-- The whole conversation for a command line, given what files hold and all that is
    typed. -/
def converse (fuel : Nat) (arguments : List String) (content : String → Content) (typed : String) : Transcript :=
  match Opening.ofCommandLine fuel (.ofArguments arguments) content with
  | .exit complaint code shown => ⟨code, shown, complaint⟩
  | .talk complaint c => c.finish fuel complaint fuel ((Text.split typed.toList).map String.ofList)

end Stepwise.Console
