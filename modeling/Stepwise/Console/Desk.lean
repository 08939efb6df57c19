import Stepwise.Host
import Stepwise.Value.Typed

/-!
The host at a console: it collects what is to be shown, and answers a question
with the next line that is typed. As long as no line has been typed the script
waits; at the end of the input there is nothing to answer.
-/
namespace Stepwise.Console

/-- What was typed when a line was asked for: a line, or nothing at the end of the
    input. -/
abbrev Typed := Option String

/-- The host: what is to be shown, and what was typed and not used yet. -/
structure Desk where
  shown : String
  typed : Option Typed
deriving Repr

namespace Desk

/-- A desk on which nothing has happened. -/
def clean : Desk := ⟨"", none⟩

/-- Shows a text. -/
def say (d : Desk) (text : String) : Desk :=
  { d with shown := d.shown ++ text }

/-- What is to be shown, and the desk without it. -/
def takeShown (d : Desk) : String × Desk :=
  (d.shown, { d with shown := "" })

/-- Puts down what was typed. -/
def put (d : Desk) (typed : Typed) : Desk :=
  { d with typed := some typed }

end Desk

/-- The answer that a typed line is. -/
def answerTyped : Typed → Answer
  | some line => .data (.ofLine line)
  | none => .nothing

/-- The host at a console. Its only job is to wait for a line. -/
def host : Host Desk Unit where
  print d p := ⟨d.say (p.render ++ "\n"), (), false⟩
  start d _ := ⟨d, (), false⟩
  poll d _ :=
    match d.typed with
    | some typed => ⟨{ d with typed := none }, .ready (answerTyped typed), false⟩
    | none => ⟨d, .pending () false, false⟩

/-- Scripts at a console have no native functions. -/
def setting : Setting := ⟨Setting.defaultLimit, .empty⟩

end Stepwise.Console
