import Stepwise.Machine.Step
import Stepwise.Proofs.Trail

/-!
The course of a script: what its statements and expressions do, said by recursion on them,
and with it every checkpoint in its place. There is no machine here and no session. A
script need not end, so the recursion is cut at a depth; a cut course is the beginning
of the deeper ones.
-/
namespace Stepwise

/-- What a part of a script comes to: its stops in order, and, unless it was cut, its
    value, the host and what the script remembers. -/
structure Course (σ α : Type) where
  stops : List (Stop σ)
  outcome : Option (α × σ × Memory)

/-- A course with the stops that came before it. -/
def Course.after {σ α : Type} (stops : List (Stop σ)) (c : Course σ α) : Course σ α :=
  ⟨stops ++ c.stops, c.outcome⟩

/-- A part of a script: its course depends on the host and on what the script remembers. -/
def Act (σ α : Type) : Type :=
  σ → Memory → Course σ α

namespace Act

variable {σ α β : Type}

/-- One part after another. Nothing comes after what was cut. -/
def andThen (x : Act σ α) (next : α → Act σ β) : Act σ β := fun state memory =>
  match x state memory with
  | ⟨stops, none⟩ => ⟨stops, none⟩
  | ⟨stops, some (a, state, memory)⟩ => (next a state memory).after stops

instance : Monad (Act σ) where
  pure a := fun state memory => ⟨[], some (a, state, memory)⟩
  bind := andThen

/-- What is too deep. -/
def cut : Act σ α := fun _ _ =>
  ⟨[], none⟩

/-- Looks at what the script remembers, and may change it. -/
def remember (f : Memory → α × Memory) : Act σ α := fun state memory =>
  ⟨[], some ((f memory).1, state, (f memory).2)⟩

/-- Turns to the host. -/
def consult (f : σ → Effect σ α) : Act σ α := fun state memory =>
  ⟨[], some ((f state).result, (f state).state, memory)⟩

/-- Contributes one checkpoint. -/
def pass (s : Stmt) (scope : FrameId) : Act σ Unit := fun state memory =>
  ⟨[⟨⟨s, scope⟩, state, memory⟩], some ((), state, memory)⟩

/-- Opens a scope inside a scope. -/
def enclose (scope : FrameId) : Act σ FrameId :=
  remember fun m => ((m.enclose scope).2, (m.enclose scope).1)

end Act

section

variable {σ α β γ : Type} {state : σ} {memory : Memory}

theorem remember_bind (f : Memory → α × Memory) (next : α → Act σ β) :
    (Act.remember f >>= next) state memory = next (f memory).1 state (f memory).2 :=
  rfl

theorem consult_bind (f : σ → Effect σ α) (next : α → Act σ β) :
    (Act.consult f >>= next) state memory = next (f state).result (f state).state memory :=
  rfl

theorem act_pure_bind (a : α) (next : α → Act σ β) :
    ((pure a : Act σ α) >>= next) state memory = next a state memory :=
  rfl

theorem andThen_assoc (x : Act σ α) (f : α → Act σ β) (g : β → Act σ γ) :
    (x >>= f) >>= g = x >>= fun a => f a >>= g := by
  funext state memory
  change (x.andThen f).andThen g state memory = x.andThen (fun a => (f a).andThen g) state memory
  simp only [Act.andThen]
  obtain ⟨stops, outcome⟩ := x state memory
  rcases outcome with _ | ⟨a, state₁, memory₁⟩
  · rfl
  · simp only [Course.after]
    obtain ⟨more, _ | ⟨b, state₂, memory₂⟩⟩ := f a state₁ memory₁
    · rfl
    · simp

end

/-- A value without the wrapping of one that goes back. -/
def Value.payload : Value → Value
  | .returned v => v
  | v => v

/-- The value of an answer. Nothing counts as null. -/
def Memory.receive (m : Memory) : Answer → Value × Memory
  | .nothing => (.null, m)
  | .data p => m.adopt p
  | .value v => (v.payload, m)

/-! ## Statements and expressions -/

/-- The courses of the parts of a script: of expressions, of statements, and of the jobs
    of the host, which are polled until they are ready. -/
structure Parts (σ ι : Type) where
  evaluate : Expr → FrameId → Act σ Value
  execute : Stmt → FrameId → Act σ Value
  serve : ι → Act σ Value

namespace Parts

variable {σ ι : Type} (host : Host σ ι) (setting : Setting) (parts : Parts σ ι)

/-- Statements in order, behind a value that may end them. -/
def sequence (scope : FrameId) : List Stmt → Value → Act σ Value
  | [], v => pure v
  | s :: rest, v =>
    if v.isControl then pure v
    else do
      let v ← parts.execute s scope
      sequence scope rest v

/-- A call with all its arguments. The parameters of a function are bound in a new scope
    inside the scope of the call. -/
def invoke (callee : Callee) (arguments : List Value) (scope : FrameId) : Act σ Value :=
  match callee with
  | .function f => do
    let depth ← Act.remember fun m => (m.depth, m)
    if arguments.length ≠ f.parameters.length then
      pure (.error (.wrongArguments f.parameters.length arguments.length))
    else if setting.limit ≤ depth then pure (.error .tooDeep)
    else
      let inner ← Act.enclose scope
      Act.remember fun m => ((), (m.setEach inner (f.parameters.zip arguments)).enterCall)
      let v ← parts.sequence inner f.body.statements .null
      Act.remember fun m => (Machine.leaveWith v, m.leaveCall)
  | .builtin .println =>
    match arguments with
    | [v] => do
      Act.consult fun state => host.print state (.ofValue v)
      pure .null
    | _ => pure (.error (.wrongArguments 1 arguments.length))
  | .builtin .input =>
    match arguments with
    | [] => do
      let job ← Act.consult fun state => host.start state .input
      parts.serve job
    | _ => pure (.error (.wrongArguments 0 arguments.length))
  | .builtin (.native f) => do
    let job ← Act.consult fun state => host.start state (.call f arguments)
    parts.serve job

/-- The arguments of a call from the left, unless one of them is a fault, and then the
    call. -/
def supply (callee : Callee) (scope : FrameId) : List Value → List Expr → Act σ Value
  | ready, [] => parts.invoke host setting callee ready scope
  | ready, e :: rest => do
    let v ← parts.evaluate e scope
    if v.isError then pure v else supply callee scope (ready ++ [v]) rest

/-- An expression. -/
def expression (e : Expr) (scope : FrameId) : Act σ Value :=
  match e with
  | .number x => pure (.number x)
  | .bool b => pure (.bool b)
  | .string text => Act.remember fun m => m.adopt (.string text)
  | .name name => Act.remember fun m => m.lookup setting name scope
  | .unary op operand => do
    let v ← parts.evaluate operand scope
    if v.isError then pure v else Act.remember fun m => m.conclude (op.apply v)
  | .binary left op right => do
    let v ← parts.evaluate left scope
    if v.isError then pure v
    else
      let w ← parts.evaluate right scope
      if w.isError then pure w else Act.remember fun m => m.conclude (op.apply v w)
  | .call function arguments => do
    match ← Act.remember fun m => m.callee setting function scope with
    | .error fault => pure (.error fault)
    | .ok callee => parts.supply host setting callee scope [] arguments

/-- A statement that does something with the value of an expression: the expression with
    all it calls, then the effect, then the checkpoint. -/
def simple (use : Use) (e : Expr) (s : Stmt) (scope : FrameId) : Act σ Value := do
  let v ← parts.evaluate e scope
  let v ← if v.isError then pure v else Act.remember fun m => m.use scope v use
  Act.pass s scope
  pure v

/-- A statement. The checkpoint of a branch carries the scope of the branch and comes
    between condition and branch; a loop contributes one behind every evaluation of its
    condition; a block contributes none. -/
def statement (s : Stmt) (scope : FrameId) : Act σ Value :=
  match s with
  | .declare _ name type (some e) => parts.simple (.declare name type) e s scope
  | .declare _ name _ none => do
    Act.remember fun m => ((), m.set scope name .null)
    Act.pass s scope
    pure .null
  | .assign _ name e => parts.simple (.assign name) e s scope
  | .giveBack _ e => parts.simple .giveBack e s scope
  | .evaluate _ e => parts.simple .discard e s scope
  | .block body => do
    let inner ← Act.enclose scope
    parts.sequence inner body.statements .null
  | .branch _ condition consequence alternative => do
    let inner ← Act.enclose scope
    let v ← parts.evaluate condition inner
    Act.pass s inner
    if v.isError then pure v
    else
      let w ← if v.isTrue then parts.sequence inner consequence.statements .null
        else match alternative with
          | some block => parts.sequence inner block.statements .null
          | none => pure .null
      pure (if w.isControl then w else .null)
  | .loop _ condition body => do
    let v ← parts.evaluate condition scope
    Act.pass s scope
    if v.isError then pure v
    else if v.isTrue then
      let w ← parts.execute (.block body) scope
      if w.isControl then pure w else parts.execute s scope
    else pure .null
  | .define _ name parameters body => do
    Act.remember fun m => ((), m.define scope ⟨name, parameters, body⟩)
    Act.pass s scope
    pure .null

/-- A job of the host. One that is not ready is polled again. -/
def job (job : ι) : Act σ Value := do
  match ← Act.consult fun state => host.poll state job with
  | .ready a => Act.remember fun m => m.receive a
  | .pending job _ => parts.serve job

/-- The parts of a script, with their own parts cut at a depth. -/
def upTo : Nat → Parts σ ι
  | 0 => ⟨fun _ _ => .cut, fun _ _ => .cut, fun _ => .cut⟩
  | depth + 1 =>
    let parts := upTo depth
    ⟨parts.expression host setting, parts.statement, parts.job host⟩

end Parts

/-- The course of a script, cut at a depth. It gives the value of the last statement, or
    what was given back. -/
def course {σ ι : Type} (host : Host σ ι) (setting : Setting) (depth : Nat) (script : List Stmt)
    (scope : FrameId) : Act σ Value := do
  let v ← (Parts.upTo host setting depth).sequence scope script .null
  pure v.payload

end Stepwise
