import Stepwise.Host
import Stepwise.Machine.Step
import Stepwise.Parse.Stmt

/-!
Running a script with a host. A run is polled: it goes on until it gives way behind
a checkpoint (if it is stepped through), has to wait for the host, or ends. The
same steps serve running and stepping, which differ only in whether checkpoints
stop the run; one that does is left in a slot for whoever steps through it. Steps
are counted, since a script need not end.
-/
namespace Stepwise

/-- A run that has not ended: it can take a step, or waits for a job. -/
inductive Progress (ι : Type) where
  | running (m : Machine)
  | waiting (job : ι) (w : Waiting)

namespace Progress

variable {ι : Type}

/-- What the script remembers. -/
def memory : Progress ι → Memory
  | running m => m.memory
  | waiting _ w => w.memory

/-- What is still to be done. -/
def stack : Progress ι → List Task
  | running m => m.stack
  | waiting _ w => w.stack

/-- What is remembered when a run is given up: the calls that were active are not
    active any more. -/
def abandon (p : Progress ι) : Memory :=
  { p.memory with depth := p.memory.depth - p.stack.countP Task.isCall }

end Progress

/-- What one step of a run leads to. -/
inductive Stride (ι : Type) where
  | on (p : Progress ι)
  | pass (c : Checkpoint) (p : Progress ι)
  | wait (wakes : Bool) (p : Progress ι)
  | finish (v : Value) (memory : Memory)

/-- Why a run came back from a poll: it gave way, behind a checkpoint or to wait for
    the host, or it ended, or it used up its steps. -/
inductive Turn (ι : Type) where
  | pending (wakes : Bool) (p : Progress ι)
  | finished (v : Value) (memory : Memory)
  | exhausted (p : Progress ι)

/-- What a poll of a run leaves behind: the host, why the run came back, the
    checkpoint in the slot, and whether the host has asked for the run to be
    cancelled. -/
structure Visit (σ ι : Type) where
  state : σ
  turn : Turn ι
  slot : Option Checkpoint
  cancels : Bool

section

variable {σ ι : Type}

/-- One step of a run with its host. -/
def Progress.stride (host : Host σ ι) (setting : Setting) (state : σ) : Progress ι → Effect σ (Stride ι)
  | .running m =>
    match m.next setting with
    | .step m => ⟨state, .on (.running m), false⟩
    | .pause c m => ⟨state, .pass c (.running m), false⟩
    | .print p m =>
      let e := host.print state p
      ⟨e.state, .on (.running m), e.cancels⟩
    | .ask r w =>
      let e := host.start state r
      ⟨e.state, .on (.waiting e.result w), e.cancels⟩
    | .halt v memory => ⟨state, .finish v memory, false⟩
  | .waiting job w =>
    let e := host.poll state job
    match e.result with
    | .ready a => ⟨e.state, .on (.running (w.resume a)), e.cancels⟩
    | .pending job wakes => ⟨e.state, .wait wakes (.waiting job w), e.cancels⟩

/-- Lets a run go on for at most `fuel` steps. If it is stepped through, it leaves
    every checkpoint in the slot and gives way once. `cancels` tells whether the
    host has asked for the run to be cancelled during this poll. -/
def Progress.poll (host : Host σ ι) (setting : Setting) (stepping : Bool) :
    (fuel : Nat) → (state : σ) → (slot : Option Checkpoint) → (cancels : Bool) → Progress ι → Visit σ ι
  | 0, state, slot, cancels, p => ⟨state, .exhausted p, slot, cancels⟩
  | fuel + 1, state, slot, cancels, p =>
    let e := p.stride host setting state
    let cancels := cancels || e.cancels
    match e.result with
    | .on p => poll host setting stepping fuel e.state slot cancels p
    | .pass c p =>
      if stepping then ⟨e.state, .pending false p, some c, cancels⟩
      else poll host setting stepping fuel e.state slot cancels p
    | .wait wakes p => ⟨e.state, .pending wakes p, slot, cancels⟩
    | .finish v memory => ⟨e.state, .finished v memory, slot, cancels⟩

/-- How a run ended. -/
inductive Ending where
  | value (v : Value)
  | blocked
  | exhausted

/-- A run that ended: the host, what is remembered, and how it ended. -/
structure Evaluation (σ : Type) where
  state : σ
  memory : Memory
  ending : Ending

/-- Polls a run without stepping, again whenever the host wakes it, for at most
    `rounds` polls. A run that would wait forever is given up. -/
def Progress.finish (host : Host σ ι) (setting : Setting) (fuel : Nat) :
    (rounds : Nat) → (state : σ) → Progress ι → Evaluation σ
  | 0, state, p => ⟨state, p.abandon, .exhausted⟩
  | rounds + 1, state, p =>
    let e := p.poll host setting false fuel state none false
    match e.turn with
    | .finished v memory => ⟨e.state, memory, .value v⟩
    | .pending true p => finish host setting fuel rounds e.state p
    | .pending false p => ⟨e.state, p.abandon, .blocked⟩
    | .exhausted p => ⟨e.state, p.abandon, .exhausted⟩

/-- Runs a script in a scope. -/
def execute (host : Host σ ι) (setting : Setting) (fuel : Nat) (state : σ) (memory : Memory)
    (script : List Stmt) (scope : FrameId) : Evaluation σ :=
  Progress.finish host setting fuel fuel state (.running (.start memory script scope))

/-- Reads a source text and runs it, unless something in it could not be read. -/
def evaluate (host : Host σ ι) (setting : Setting) (fuel : Nat) (state : σ) (memory : Memory)
    (source : String) (scope : FrameId) : Except (List Diagnostic) (Evaluation σ) :=
  let parsed := parse source
  if parsed.diagnostics.isEmpty then
    .ok (execute host setting fuel state memory parsed.script scope)
  else
    .error parsed.diagnostics

end

end Stepwise
