import Stepwise.Machine.Basic

/-!
The steps of the machine. Every statement pauses once it has had its effect, a
condition as soon as its value is known. A fault goes up the stack and touches
nothing on its way but the number of active calls.
-/
namespace Stepwise

namespace Memory

/-- The value of a name: a binding, one of the functions every script knows, or,
    for a dotted name, a function of the host. -/
def lookup (setting : Setting) (m : Memory) (name : String) (scope : FrameId) : Value × Memory :=
  match m.store.get? scope name with
  | some v => (v, m)
  | none =>
    match Builtin.ofName? name with
    | some b => (.builtin b, m)
    | none =>
      match if isDotted name then setting.registry.resolve name m.fresh else none with
      | some f => (.builtin (.native f), m.made)
      | none => (.error (.notFound name), m)

/-- What an expression calls. Functions of the script come before everything else
    of their name, and have no dots in theirs. -/
def callee (setting : Setting) (m : Memory) (e : Expr) (scope : FrameId) : Except Fault Callee × Memory :=
  match e with
  | .name name =>
    match if isDotted name then none else m.store.function? scope name with
    | some f => (.ok (.function f), m)
    | none =>
      match m.lookup setting name scope with
      | (.builtin b, m) => (.ok (.builtin b), m)
      | (.error fault, m) => (.error fault, m)
      | (v, m) => (.error (.notFunction v.tag), m)
  | _ => (.error .noCallee, m)

/-- The effect of a statement on the value of its expression, which is no fault. -/
def use (m : Memory) (scope : FrameId) (v : Value) : Use → Value × Memory
  | .declare name type =>
    if v.tag = type.tag then (.null, m.set scope name v)
    else (.error (.wrongType v.tag type.tag), m)
  | .assign name =>
    match m.store.slot scope name v with
    | .ok owner => (.null, m.set owner name v)
    | .error fault => (.error fault, m)
  | .giveBack => (.returned v, m)
  | .discard => (v, m)

end Memory

namespace Machine

/-- Gives a value to the task on top of the stack. -/
def give (v : Value) (stack : List Task) (memory : Memory) : Move :=
  .step ⟨memory, .give v, stack⟩

/-- Gives a fault to the task on top of the stack. -/
def fail (fault : Fault) (stack : List Task) (memory : Memory) : Move :=
  give (.error fault) stack memory

/-- Runs the statements of a block in a scope. -/
def enter (statements : List Stmt) (scope : FrameId) (stack : List Task) (memory : Memory) : Machine :=
  ⟨memory, .give .null, .sequence statements scope :: stack⟩

/-- Calls something with all its arguments. The parameters of a function are bound
    in a new scope inside the scope of the call. -/
def apply (setting : Setting) (callee : Callee) (arguments : List Value) (scope : FrameId)
    (stack : List Task) (memory : Memory) : Move :=
  match callee with
  | .function f =>
    if arguments.length ≠ f.parameters.length then
      fail (.wrongArguments f.parameters.length arguments.length) stack memory
    else if setting.limit ≤ memory.depth then
      fail .tooDeep stack memory
    else
      let (memory, inner) := memory.enclose scope
      .step (enter f.body.statements inner (.leave :: stack)
        (memory.setEach inner (f.parameters.zip arguments)).enterCall)
  | .builtin .println =>
    match arguments with
    | [v] => .print (.ofValue v) ⟨memory, .give .null, stack⟩
    | _ => fail (.wrongArguments 1 arguments.length) stack memory
  | .builtin .input =>
    match arguments with
    | [] => .ask .input ⟨memory, stack⟩
    | _ => fail (.wrongArguments 0 arguments.length) stack memory
  | .builtin (.native f) => .ask (.call f arguments) ⟨memory, stack⟩

/-- Evaluates the next argument of a call, or makes the call. -/
def argue (setting : Setting) (callee : Callee) (ready : List Value) (rest : List Expr) (scope : FrameId)
    (stack : List Task) (memory : Memory) : Move :=
  match rest with
  | [] => apply setting callee ready scope stack memory
  | e :: rest => .step ⟨memory, .evaluate e scope, .argument callee ready rest scope :: stack⟩

/-- One step of evaluating an expression. -/
def evaluate (setting : Setting) (e : Expr) (scope : FrameId) (stack : List Task) (memory : Memory) : Move :=
  match e with
  | .number x => give (.number x) stack memory
  | .bool b => give (.bool b) stack memory
  | .string text =>
    let (v, memory) := memory.adopt (.string text)
    give v stack memory
  | .name name =>
    let (v, memory) := memory.lookup setting name scope
    give v stack memory
  | .unary op operand => .step ⟨memory, .evaluate operand scope, .operand op :: stack⟩
  | .binary left op right => .step ⟨memory, .evaluate left scope, .left op right scope :: stack⟩
  | .call function arguments =>
    match memory.callee setting function scope with
    | (.error fault, memory) => fail fault stack memory
    | (.ok callee, memory) => argue setting callee [] arguments scope stack memory

/-- One step of executing a statement. -/
def execute (s : Stmt) (scope : FrameId) (stack : List Task) (memory : Memory) : Move :=
  match s with
  | .declare _ name type (some e) =>
    .step ⟨memory, .evaluate e scope, .settle (.declare name type) s scope :: stack⟩
  | .declare _ name _ none =>
    .pause ⟨s, scope⟩ ⟨memory.set scope name .null, .give .null, stack⟩
  | .assign _ name e => .step ⟨memory, .evaluate e scope, .settle (.assign name) s scope :: stack⟩
  | .giveBack _ e => .step ⟨memory, .evaluate e scope, .settle .giveBack s scope :: stack⟩
  | .evaluate _ e => .step ⟨memory, .evaluate e scope, .settle .discard s scope :: stack⟩
  | .block body =>
    let (memory, inner) := memory.enclose scope
    .step (enter body.statements inner stack memory)
  | .branch _ condition consequence alternative =>
    let (memory, inner) := memory.enclose scope
    .step ⟨memory, .evaluate condition inner, .choose s consequence alternative inner :: stack⟩
  | .loop _ condition body => .step ⟨memory, .evaluate condition scope, .test s body scope :: stack⟩
  | .define _ name parameters body =>
    .pause ⟨s, scope⟩ ⟨memory.define scope ⟨name, parameters, body⟩, .give .null, stack⟩

/-- The machine behind the condition of a branch. -/
def branch (v : Value) (consequence : Block) (alternative : Option Block) (scope : FrameId)
    (stack : List Task) (memory : Memory) : Machine :=
  if v.isError then ⟨memory, .give v, stack⟩
  else if v.isTrue then enter consequence.statements scope (.chosen :: stack) memory
  else match alternative with
    | some block => enter block.statements scope (.chosen :: stack) memory
    | none => ⟨memory, .give .null, stack⟩

/-- The machine behind the condition of a loop. -/
def iterate (v : Value) (s : Stmt) (body : Block) (scope : FrameId) (stack : List Task) (memory : Memory) :
    Machine :=
  if v.isError then ⟨memory, .give v, stack⟩
  else if v.isTrue then ⟨memory, .execute (.block body) scope, .again s scope :: stack⟩
  else ⟨memory, .give .null, stack⟩

/-- The value that goes on when a function ends: what it gives back, a fault, or
    null. -/
def leaveWith : Value → Value
  | .returned v => v
  | .error fault => .error fault
  | _ => .null

/-- What a task does with the value it waited for. -/
def resume (setting : Setting) (v : Value) (task : Task) (stack : List Task) (memory : Memory) : Move :=
  match task with
  | .operand op =>
    if v.isError then give v stack memory
    else
      let (v, memory) := memory.conclude (op.apply v)
      give v stack memory
  | .left op e scope =>
    if v.isError then give v stack memory
    else .step ⟨memory, .evaluate e scope, .right op v :: stack⟩
  | .right op left =>
    if v.isError then give v stack memory
    else
      let (v, memory) := memory.conclude (op.apply left v)
      give v stack memory
  | .argument callee ready rest scope =>
    if v.isError then give v stack memory
    else argue setting callee (ready ++ [v]) rest scope stack memory
  | .leave => give (leaveWith v) stack memory.leaveCall
  | .settle use s scope =>
    let (v, memory) := if v.isError then (v, memory) else memory.use scope v use
    .pause ⟨s, scope⟩ ⟨memory, .give v, stack⟩
  | .choose s consequence alternative scope =>
    .pause ⟨s, scope⟩ (branch v consequence alternative scope stack memory)
  | .chosen => give (if v.isControl then v else .null) stack memory
  | .test s body scope => .pause ⟨s, scope⟩ (iterate v s body scope stack memory)
  | .again s scope =>
    if v.isControl then give v stack memory else .step ⟨memory, .execute s scope, stack⟩
  | .sequence rest scope =>
    match v.isControl, rest with
    | false, s :: rest => .step ⟨memory, .execute s scope, .sequence rest scope :: stack⟩
    | _, _ => give v stack memory
  | .script rest scope =>
    match v, rest with
    | .returned v, _ => give v stack memory
    | .error fault, _ => fail fault stack memory
    | v, [] => give v stack memory
    | _, s :: rest => .step ⟨memory, .execute s scope, .script rest scope :: stack⟩

/-- One step of a run. -/
def next (setting : Setting) (m : Machine) : Move :=
  match m with
  | ⟨memory, .evaluate e scope, stack⟩ => evaluate setting e scope stack memory
  | ⟨memory, .execute s scope, stack⟩ => execute s scope stack memory
  | ⟨memory, .give v, task :: stack⟩ => resume setting v task stack memory
  | ⟨memory, .give v, []⟩ => .halt v memory

end Machine

end Stepwise
