import Stepwise.Registry
import Stepwise.Store.Basic
import Stepwise.Value.Primitive

/-!
The machine that runs a script, one small step at a time. Its state is what it
works on (the focus), what is still to be done with the result (the stack of
tasks) and what the script remembers. Since nothing is kept outside the state, a
run can stop after any step and go on later.
-/
namespace Stepwise

/-- What a run is bound to: how many calls may be active at once, and the host's
    functions. -/
structure Setting where
  limit : Nat
  registry : Registry

/-- The number of calls that may be active at once, unless a host says otherwise. -/
def Setting.defaultLimit : Nat := 1000

/-- What a script remembers: its scopes, how many instances it has made and how
    many calls are active. -/
structure Memory where
  store : Store
  serial : Nat
  depth : Nat
deriving Repr, Inhabited

namespace Memory

/-- A memory with one scope, which binds nothing. -/
def start : Memory × FrameId :=
  let (store, root) := Store.empty.root
  (⟨store, 0, 0⟩, root)

/-- The identity of the next instance. -/
def fresh (m : Memory) : Identity :=
  ⟨.program, m.serial⟩

/-- The memory once the next instance is made. -/
def made (m : Memory) : Memory :=
  { m with serial := m.serial + 1 }

/-- A new scope inside a scope. -/
def enclose (m : Memory) (scope : FrameId) : Memory × FrameId :=
  match m with
  | ⟨store, serial, depth⟩ =>
    let (store, inner) := store.enclose scope
    (⟨store, serial, depth⟩, inner)

/-- Binds a name in a scope. -/
def set (m : Memory) (scope : FrameId) (name : String) (v : Value) : Memory :=
  match m with
  | ⟨store, serial, depth⟩ => ⟨store.set scope name v, serial, depth⟩

/-- Binds names to values in a scope, in the order given. -/
def setEach (m : Memory) (scope : FrameId) (bindings : List (String × Value)) : Memory :=
  match m with
  | ⟨store, serial, depth⟩ => ⟨store.setEach scope bindings, serial, depth⟩

/-- Defines a function in a scope. -/
def define (m : Memory) (scope : FrameId) (f : Function) : Memory :=
  match m with
  | ⟨store, serial, depth⟩ => ⟨store.define scope f, serial, depth⟩

/-- One more call is active. -/
def enterCall (m : Memory) : Memory :=
  { m with depth := m.depth + 1 }

/-- One call less is active. -/
def leaveCall (m : Memory) : Memory :=
  { m with depth := m.depth - 1 }

/-- Plain data as a value of the script. A text becomes a new instance. -/
def adopt (m : Memory) (p : Primitive) : Value × Memory :=
  match p with
  | .string text => (.string text m.fresh, m.made)
  | p => (p.toValue m.fresh, m)

/-- What an operator gives: a fault, or plain data as a value. -/
def conclude (m : Memory) : Except Fault Primitive → Value × Memory
  | .error fault => (.error fault, m)
  | .ok p => m.adopt p

end Memory

/-- What a call calls. -/
inductive Callee where
  | function (f : Function)
  | builtin (b : Builtin)
deriving Repr

/-- What a statement does with the value of its expression. -/
inductive Use where
  | declare (name : String) (type : TypeName)
  | assign (name : String)
  | giveBack
  | discard
deriving DecidableEq, Repr

/-- What waits for a value: the rest of an expression, of a statement, of a block
    or of the script. -/
inductive Task where
  | operand (op : UnaryOp)
  | left (op : BinaryOp) (right : Expr) (scope : FrameId)
  | right (op : BinaryOp) (left : Value)
  | argument (callee : Callee) (ready : List Value) (rest : List Expr) (scope : FrameId)
  | leave
  | settle (use : Use) (s : Stmt) (scope : FrameId)
  | choose (s : Stmt) (consequence : Block) (alternative : Option Block) (scope : FrameId)
  | chosen
  | test (s : Stmt) (body : Block) (scope : FrameId)
  | again (s : Stmt) (scope : FrameId)
  | sequence (rest : List Stmt) (scope : FrameId)
  | script (rest : List Stmt) (scope : FrameId)
deriving Repr

/-- Whether a task stands for an active call. -/
def Task.isCall : Task → Bool
  | leave => true
  | _ => false

/-- What the machine works on. -/
inductive Focus where
  | evaluate (e : Expr) (scope : FrameId)
  | execute (s : Stmt) (scope : FrameId)
  | give (v : Value)
deriving Repr

/-- The state of a run. -/
structure Machine where
  memory : Memory
  focus : Focus
  stack : List Task
deriving Repr

/-- The machine that is about to run a script in a scope. -/
def Machine.start (memory : Memory) (script : List Stmt) (scope : FrameId) : Machine :=
  ⟨memory, .give .null, [.script script scope]⟩

/-- A statement that was executed and the scope it was executed in. -/
structure Checkpoint where
  statement : Stmt
  scope : FrameId
deriving Repr

/-- What a script asks of its host and waits for. -/
inductive Request where
  | input
  | call (f : Native) (arguments : List Value)
deriving Repr

/-- What a host answers: nothing, plain data or a value. -/
inductive Answer where
  | nothing
  | data (p : Primitive)
  | value (v : Value)
deriving Repr

/-- A run that waits for an answer. -/
structure Waiting where
  memory : Memory
  stack : List Task
deriving Repr

/-- What a call makes of an answer. Nothing counts as null, and a value that goes
    back loses one wrapping. -/
def Waiting.resume (w : Waiting) : Answer → Machine
  | .nothing => ⟨w.memory, .give .null, w.stack⟩
  | .data p =>
    let (v, memory) := w.memory.adopt p
    ⟨memory, .give v, w.stack⟩
  | .value (.returned v) => ⟨w.memory, .give v, w.stack⟩
  | .value v => ⟨w.memory, .give v, w.stack⟩

/-- What a step leads to. -/
inductive Move where
  | step (m : Machine)
  | pause (c : Checkpoint) (m : Machine)
  | print (p : Primitive) (m : Machine)
  | ask (r : Request) (w : Waiting)
  | halt (v : Value) (memory : Memory)
deriving Repr

end Stepwise
