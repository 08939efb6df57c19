import Stepwise.Execution

/-!
Stepping through a script. A session holds a run and hands out one checkpoint
after every statement. It can be cancelled at any time, also by the host while
it serves the script; a cancelled run never goes on. A consumer that waits for
the host is woken by a cancellation.
-/
namespace Stepwise

/-- Where a session stands. -/
inductive Status where
  | ready | suspended | completed | cancelled
deriving DecidableEq, Repr, Inhabited

namespace Status

/-- Whether nothing can happen any more. -/
def isTerminal : Status → Bool
  | completed | cancelled => true
  | ready | suspended => false

/-- The word for a status. -/
def name : Status → String
  | ready => "Ready"
  | suspended => "Suspended"
  | completed => "Completed"
  | cancelled => "Cancelled"

end Status

/-- The run of a session, or what it remembered when it had ended. -/
inductive Program (ι : Type) where
  | active (p : Progress ι)
  | ended (memory : Memory)

/-- What the script of a session remembers. -/
def Program.memory {ι : Type} : Program ι → Memory
  | active p => p.memory
  | ended memory => memory

/-- What is remembered when the run of a session is given up. -/
def Program.abandon {ι : Type} : Program ι → Memory
  | active p => p.abandon
  | ended memory => memory

/-- Who waits for a session. -/
abbrev Consumer := Nat

/-- A session: where it stands, its run, the slot in which the run leaves its
    checkpoints, its result once it is completed, whether it was asked to stop, and
    who is to be woken then. -/
structure Session (ι : Type) where
  status : Status
  program : Program ι
  slot : Option Checkpoint
  result : Option Value
  cancelled : Bool
  waiter : Option Consumer

/-- What a poll of a session gives. -/
inductive Next where
  | checkpoint (c : Checkpoint)
  | none
  | pending (wakes : Bool)
  | exhausted

namespace Session

variable {σ ι : Type}

/-- The session that is about to run a script in a scope. -/
def start (memory : Memory) (script : List Stmt) (scope : FrameId) : Session ι :=
  ⟨.ready, .active (.running (.start memory script scope)), .none, .none, false, .none⟩

/-- What the script of a session remembers. -/
def memory (s : Session ι) : Memory :=
  s.program.memory

/-- Gives up the run of a session that has not ended, and empties the slot. -/
def stop (s : Session ι) : Session ι :=
  if s.status.isTerminal then s
  else { s with program := .ended s.program.abandon, slot := .none, status := .cancelled }

/-- Asks a session to stop. The consumer that waits for it is woken. -/
def signal (s : Session ι) : Session ι × Option Consumer :=
  ({ s with cancelled := true, waiter := .none }, s.waiter)

/-- Cancels a session at once. -/
def cancel (s : Session ι) : Session ι :=
  s.signal.1.stop

/-- Lets the run of a session go on to its next checkpoint. A run that gave way has
    left a checkpoint in the slot, or waits for the host. Nothing runs once the
    session was asked to stop, be it before the poll or, if the run has to wait,
    during it. -/
def poll (host : Host σ ι) (setting : Setting) (fuel : Nat) (consumer : Consumer) (state : σ)
    (s : Session ι) : σ × Session ι × Next :=
  match s with
  | ⟨status, program, slot, result, true, waiter⟩ =>
    (state, (Session.mk status program slot result true waiter).stop, .none)
  | ⟨status, .ended memory, slot, result, false, waiter⟩ =>
    (state, ⟨status, .ended memory, slot, result, false, waiter⟩, .none)
  | ⟨status, .active p, slot, result, false, waiter⟩ =>
    let e := p.poll host setting true fuel state slot false
    let waiter := if e.cancels then .none else waiter
    match e.turn with
    | .finished v memory =>
      (e.state, ⟨.completed, .ended memory, e.slot, some v, e.cancels, waiter⟩, .none)
    | .pending wakes p =>
      match e.slot with
      | some c => (e.state, ⟨.suspended, .active p, .none, result, e.cancels, waiter⟩, .checkpoint c)
      | .none =>
        let s : Session ι := ⟨status, .active p, .none, result, e.cancels, some consumer⟩
        if e.cancels then (e.state, s.stop, .none) else (e.state, s, .pending wakes)
    | .exhausted p => (e.state, ⟨status, .active p, e.slot, result, e.cancels, waiter⟩, .exhausted)

/-- Polls a session, again whenever the host wakes the consumer, for at most
    `rounds` polls. -/
def next (host : Host σ ι) (setting : Setting) (fuel : Nat) (consumer : Consumer) :
    (rounds : Nat) → σ → Session ι → σ × Session ι × Next
  | 0, state, s => (state, s, .exhausted)
  | rounds + 1, state, s =>
    match s.poll host setting fuel consumer state with
    | (state, s, .pending true) => next host setting fuel consumer rounds state s
    | other => other

/-- Takes checkpoints until there is none, for at most `rounds` of them. -/
def runToEnd (host : Host σ ι) (setting : Setting) (fuel : Nat) (consumer : Consumer) :
    (rounds : Nat) → σ → Session ι → σ × Session ι × Next
  | 0, state, s => (state, s, .exhausted)
  | rounds + 1, state, s =>
    match s.next host setting fuel consumer fuel state with
    | (state, s, .checkpoint _) => runToEnd host setting fuel consumer rounds state s
    | other => other

/-- A session as it is inspected. -/
def inspect (s : Session ι) : String :=
  let result := match s.result with
    | some v => "Some(" ++ v.inspect ++ ")"
    | .none => "None"
  "DebugSession \x7b state: " ++ s.status.name ++ ", result: " ++ result ++ ", .. \x7d"

/-- The wish to stop a session as it is inspected. -/
def inspectCancel (s : Session ι) : String :=
  "CancelHandle \x7b cancelled: " ++ Value.boolText s.cancelled ++ " \x7d"

end Session

end Stepwise
