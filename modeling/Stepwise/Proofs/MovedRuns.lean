import Stepwise.Execution
import Stepwise.Proofs.Places

/-!
Runs of scripts at other places. A run carries the places of its statements along and never looks at
them, neither those of the script nor those of the functions it finds in its scopes: a step from a
moved state leads to the moved state (`next_move`), so a run of a moved script is the moved run
(`execute_move`). What names are bound to is not moved at all.
-/
namespace Stepwise

/-! ## Tables and stores -/

section

variable {α β : Type} (h : α → β)

theorem pairwise_map_snd {entries : List (String × α)} (sorted : entries.Pairwise (·.1 < ·.1)) :
    (entries.map fun e => (e.1, h e.2)).Pairwise (·.1 < ·.1) :=
  List.pairwise_map.mpr sorted

/-- A table with other items under the same names. -/
def Table.map (t : Table α) : Table β :=
  ⟨t.entries.map fun e => (e.1, h e.2), pairwise_map_snd h t.sorted⟩

@[simp] theorem get?_map (t : Table α) (name : String) : (t.map h).get? name = (t.get? name).map h := by
  obtain ⟨entries, sorted⟩ := t
  simp only [Table.map, Table.get?]
  clear sorted
  induction entries with
  | nil => rfl
  | cons e rest ih =>
    obtain ⟨n, a⟩ := e
    simp only [List.map_cons, findEntry]
    by_cases same : name = n
    · rw [if_pos same, if_pos same, Option.map_some]
    · rw [if_neg same, if_neg same, ih]

theorem insertEntry_map (name : String) (item : α) (entries : List (String × α)) :
    insertEntry name (h item) (entries.map fun e => (e.1, h e.2)) =
      (insertEntry name item entries).map fun e => (e.1, h e.2) := by
  induction entries with
  | nil => rfl
  | cons e rest ih =>
    obtain ⟨n, a⟩ := e
    simp only [List.map_cons, insertEntry]
    by_cases before : name < n
    · rw [if_pos before, if_pos before]
      rfl
    · rw [if_neg before, if_neg before]
      by_cases same : name = n
      · rw [if_pos same, if_pos same]
        rfl
      · rw [if_neg same, if_neg same, ih]
        rfl

theorem insert_map (t : Table α) (name : String) (item : α) :
    (t.map h).insert name (h item) = (t.insert name item).map h := by
  simp only [Table.insert, Table.map, insertEntry_map]

end

section

variable (f : Position → Position)

/-- A function whose body is at other places. -/
def Function.move (function : Function) : Function :=
  ⟨function.name, function.parameters, function.body.move f⟩

/-- A frame whose functions are at other places. -/
def Frame.move (frame : Frame) : Frame :=
  ⟨frame.outers, frame.bindings, frame.functions.map (Function.move f)⟩

/-- A store whose functions are at other places. -/
def Store.move (s : Store) : Store :=
  ⟨s.frames.map (Frame.move f)⟩

section

variable (s : Store) (g : FrameId)

@[simp] theorem outers_move : (s.move f).outers g = s.outers g := by
  simp only [Store.outers, Store.move, Array.getElem?_map]
  cases s.frames[g]? <;> rfl

@[simp] theorem bindings_move : (s.move f).bindings g = s.bindings g := by
  simp only [Store.bindings, Store.move, Array.getElem?_map]
  cases s.frames[g]? <;> rfl

theorem functions_move : (s.move f).functions g = (s.functions g).map (Function.move f) := by
  simp only [Store.functions, Store.move, Array.getElem?_map]
  cases s.frames[g]? <;> rfl

@[simp] theorem chain_move : (s.move f).chain g = s.chain g := by
  rw [Store.chain, outers_move, Store.chain]

@[simp] theorem get?_move (name : String) : (s.move f).get? g name = s.get? g name := by
  simp only [Store.get?, chain_move, bindings_move]

@[simp] theorem slot_move (name : String) (v : Value) : (s.move f).slot g name v = s.slot g name v := by
  simp only [Store.slot, Store.owner?, chain_move, bindings_move, get?_move]

@[simp] theorem function?_move (name : String) :
    (s.move f).function? g name = (s.function? g name).map (Function.move f) := by
  simp only [Store.function?, chain_move, functions_move, get?_map]
  generalize s.chain g = frames
  induction frames with
  | nil => rfl
  | cons frame rest ih =>
    simp only [List.findSome?_cons]
    cases (s.functions frame).get? name with
    | none => exact ih
    | some function => rfl

/-- A change to a frame that does not look at places. -/
theorem modify_move (change change' : Frame → Frame) (same : ∀ frame, change' (frame.move f) = (change frame).move f) :
    (s.move f).frames.modify g change' = (s.frames.modify g change).map (Frame.move f) := by
  apply Array.ext_getElem?
  intro i
  simp only [Store.move, Array.getElem?_modify, Array.getElem?_map]
  by_cases here : g = i
  · rw [if_pos here, if_pos here]
    cases s.frames[i]? with
    | none => rfl
    | some frame => exact congrArg some (same frame)
  · rw [if_neg here, if_neg here]

theorem set_move (name : String) (v : Value) : (s.move f).set g name v = (s.set g name v).move f := by
  let change (frame : Frame) : Frame := { frame with bindings := frame.bindings.insert name v }
  have same (frame : Frame) : change (frame.move f) = (change frame).move f := rfl
  exact congrArg Store.mk (modify_move f s g change change same)

theorem define_move (function : Function) :
    (s.move f).define g (function.move f) = (s.define g function).move f := by
  let change (function : Function) (frame : Frame) : Frame :=
    { frame with functions := frame.functions.insert function.name function }
  have same (frame : Frame) : change (function.move f) (frame.move f) = (change function frame).move f := by
    simp only [change, Frame.move, Function.move, ← insert_map]
  exact congrArg Store.mk (modify_move f s g (change function) (change (function.move f)) same)

theorem setEach_move (bindings : List (String × Value)) :
    (s.move f).setEach g bindings = (s.setEach g bindings).move f := by
  induction bindings generalizing s with
  | nil => rfl
  | cons b rest ih => rw [Store.setEach, set_move, ih, Store.setEach]

theorem push_move (outers : List FrameId) : (s.move f).push outers = (s.push outers).move f := by
  simp only [Store.push, Store.move, Array.map_push]
  rfl

theorem store_enclose_move : (s.move f).enclose g = ((s.enclose g).1.move f, (s.enclose g).2) := by
  have size : (s.move f).next = s.next := Array.size_map
  simp only [Store.enclose, chain_move, push_move, size]

end

/-! ## States of a run -/

/-- What a script remembers, with its functions at other places. -/
def Memory.move (m : Memory) : Memory :=
  ⟨m.store.move f, m.serial, m.depth⟩

/-- What a call calls, at other places. -/
def Callee.move : Callee → Callee
  | function g => function (g.move f)
  | builtin b => builtin b

/-- A task of a statement at other places. -/
def Task.move : Task → Task
  | operand op => operand op
  | left op e scope => left op e scope
  | right op v => right op v
  | argument callee ready rest scope => argument (callee.move f) ready rest scope
  | leave => leave
  | settle use s scope => settle use (s.move f) scope
  | choose s consequence alternative scope =>
    choose (s.move f) (consequence.move f) (alternative.map (Block.move f)) scope
  | chosen => chosen
  | test s body scope => test (s.move f) (body.move f) scope
  | again s scope => again (s.move f) scope
  | sequence rest scope => sequence (rest.map (Stmt.move f)) scope
  | script rest scope => script (rest.map (Stmt.move f)) scope

/-- What the machine works on, at other places. -/
def Focus.move : Focus → Focus
  | evaluate e scope => evaluate e scope
  | execute s scope => execute (s.move f) scope
  | give v => give v

/-- The state of a run of a script at other places. -/
def Machine.move (m : Machine) : Machine :=
  ⟨m.memory.move f, m.focus.move f, m.stack.map (Task.move f)⟩

/-- A checkpoint at another place. -/
def Checkpoint.move (c : Checkpoint) : Checkpoint :=
  ⟨c.statement.move f, c.scope⟩

/-- A waiting run of a script at other places. -/
def Waiting.move (w : Waiting) : Waiting :=
  ⟨w.memory.move f, w.stack.map (Task.move f)⟩

/-- A step in a run of a script at other places. -/
def Move.move : Move → Move
  | step m => step (m.move f)
  | pause c m => pause (c.move f) (m.move f)
  | print p m => print p (m.move f)
  | ask r w => ask r (w.move f)
  | halt v memory => halt v (memory.move f)

/-! ## Steps -/

section

variable (m : Memory) (setting : Setting) (scope : FrameId)

theorem enclose_move : (m.move f).enclose scope = ((m.enclose scope).1.move f, (m.enclose scope).2) := by
  simp only [Memory.move, Memory.enclose, store_enclose_move]

theorem adopt_move (p : Primitive) : (m.move f).adopt p = ((m.adopt p).1, (m.adopt p).2.move f) := by
  cases p <;> rfl

theorem conclude_move (outcome : Except Fault Primitive) :
    (m.move f).conclude outcome = ((m.conclude outcome).1, (m.conclude outcome).2.move f) := by
  cases outcome with
  | error fault => rfl
  | ok p => exact adopt_move f m p

theorem lookup_move (name : String) :
    (m.move f).lookup setting name scope = ((m.lookup setting name scope).1, (m.lookup setting name scope).2.move f) := by
  simp only [Memory.lookup, Memory.move, get?_move]
  cases m.store.get? scope name with
  | some v => rfl
  | none =>
    cases Builtin.ofName? name with
    | some b => rfl
    | none =>
      simp only [Memory.fresh]
      cases (if isDotted name = true then setting.registry.resolve name ⟨.program, m.serial⟩ else none) with
      | some g => rfl
      | none => rfl

theorem callee_move (e : Expr) :
    (m.move f).callee setting e scope =
      ((m.callee setting e scope).1.map (Callee.move f), (m.callee setting e scope).2.move f) := by
  cases e with
  | name name =>
    simp only [Memory.callee, lookup_move]
    have same : (if isDotted name = true then none else (m.move f).store.function? scope name) =
        (if isDotted name = true then none else m.store.function? scope name).map (Function.move f) := by
      cases isDotted name with
      | true => rfl
      | false => exact function?_move f m.store scope name
    rw [same]
    cases (if isDotted name = true then none else m.store.function? scope name) with
    | some g => rfl
    | none =>
      simp only [Option.map_none]
      generalize m.lookup setting name scope = found
      obtain ⟨v, m'⟩ := found
      cases v <;> rfl
  | _ => rfl

theorem use_move (v : Value) (use : Use) :
    (m.move f).use scope v use = ((m.use scope v use).1, (m.use scope v use).2.move f) := by
  cases use with
  | declare name type =>
    simp only [Memory.use]
    by_cases fits : v.tag = type.tag
    · simp only [if_pos fits, Memory.set, Memory.move, set_move]
    · simp only [if_neg fits]
  | assign name =>
    simp only [Memory.use, Memory.move, slot_move]
    cases m.store.slot scope name v with
    | ok owner => simp only [Memory.set, set_move]
    | error fault => rfl
  | giveBack => rfl
  | discard => rfl

end

section

variable (setting : Setting) (stack : List Task) (memory : Memory)

theorem statements_move (b : Block) : (b.move f).statements = b.statements.map (Stmt.move f) := by
  obtain ⟨p, statements⟩ := b
  rw [move_mk, Block.statements, Block.statements]

theorem enter_move (b : Block) (scope : FrameId) :
    Machine.enter (b.move f).statements scope (stack.map (Task.move f)) (memory.move f) =
      (Machine.enter b.statements scope stack memory).move f := by
  rw [statements_move]
  rfl

theorem setEach_enclosed_move (scope : FrameId) (bindings : List (String × Value)) :
    (memory.move f).setEach scope bindings = (memory.setEach scope bindings).move f := by
  simp only [Memory.setEach, Memory.move, setEach_move]

theorem apply_move (callee : Callee) (arguments : List Value) (scope : FrameId) :
    Machine.apply setting (callee.move f) arguments scope (stack.map (Task.move f)) (memory.move f) =
      (Machine.apply setting callee arguments scope stack memory).move f := by
  cases callee with
  | function g =>
    have parameters : (g.move f).parameters = g.parameters := rfl
    have body : (g.move f).body = g.body.move f := rfl
    have depth : (memory.move f).depth = memory.depth := rfl
    simp only [Callee.move, Machine.apply, parameters, body, depth]
    by_cases fits : arguments.length ≠ g.parameters.length
    · rw [if_pos fits, if_pos fits]
      rfl
    · rw [if_neg fits, if_neg fits]
      by_cases deep : setting.limit ≤ memory.depth
      · rw [if_pos deep, if_pos deep]
        rfl
      · rw [if_neg deep, if_neg deep, enclose_move, setEach_enclosed_move]
        let inner := (memory.enclose scope).2
        let bound := (memory.enclose scope).1.setEach inner (g.parameters.zip arguments)
        exact congrArg Move.step (enter_move f (.leave :: stack) bound.enterCall g.body inner)
  | builtin b =>
    cases b with
    | println =>
      simp only [Callee.move, Machine.apply]
      split <;> rfl
    | input =>
      simp only [Callee.move, Machine.apply]
      split <;> rfl
    | native g => rfl

theorem argue_move (callee : Callee) (ready : List Value) (rest : List Expr) (scope : FrameId) :
    Machine.argue setting (callee.move f) ready rest scope (stack.map (Task.move f)) (memory.move f) =
      (Machine.argue setting callee ready rest scope stack memory).move f := by
  cases rest with
  | nil => exact apply_move f setting stack memory callee ready scope
  | cons e rest => rfl

theorem evaluate_move (e : Expr) (scope : FrameId) :
    Machine.evaluate setting e scope (stack.map (Task.move f)) (memory.move f) =
      (Machine.evaluate setting e scope stack memory).move f := by
  cases e with
  | string text =>
    simp only [Machine.evaluate, adopt_move]
    rfl
  | name name =>
    simp only [Machine.evaluate, lookup_move]
    rfl
  | call function arguments =>
    simp only [Machine.evaluate, callee_move]
    generalize memory.callee setting function scope = found
    obtain ⟨outcome, memory'⟩ := found
    cases outcome with
    | error fault => rfl
    | ok callee => exact argue_move f setting stack memory' callee [] arguments scope
  | _ => rfl

theorem execute_step_move (s : Stmt) (scope : FrameId) :
    Machine.execute (s.move f) scope (stack.map (Task.move f)) (memory.move f) =
      (Machine.execute s scope stack memory).move f := by
  cases s with
  | declare p name type value =>
    cases value with
    | some e => rfl
    | none =>
      simp only [Stmt.move, Machine.execute, Memory.set, Memory.move, set_move]
      rfl
  | block body =>
    simp only [Stmt.move, Machine.execute, enclose_move]
    exact congrArg Move.step (enter_move f stack (memory.enclose scope).1 body _)
  | branch p condition consequence alternative =>
    cases alternative with
    | none =>
      simp only [Stmt.move, Machine.execute, enclose_move]
      rfl
    | some alternative =>
      simp only [Stmt.move, Machine.execute, enclose_move]
      rfl
  | define p name parameters body =>
    have defined := define_move f memory.store scope ⟨name, parameters, body⟩
    simp only [Function.move] at defined
    simp only [Stmt.move, Machine.execute, Memory.define, Memory.move, defined]
    rfl
  | _ => rfl

theorem branch_move (v : Value) (consequence : Block) (alternative : Option Block) (scope : FrameId) :
    Machine.branch v (consequence.move f) (alternative.map (Block.move f)) scope (stack.map (Task.move f))
      (memory.move f) = (Machine.branch v consequence alternative scope stack memory).move f := by
  unfold Machine.branch
  cases v.isError with
  | true => rfl
  | false =>
    cases v.isTrue with
    | true => exact enter_move f (.chosen :: stack) memory consequence scope
    | false =>
      cases alternative with
      | none => rfl
      | some alternative => exact enter_move f (.chosen :: stack) memory alternative scope

theorem iterate_move (v : Value) (s : Stmt) (body : Block) (scope : FrameId) :
    Machine.iterate v (s.move f) (body.move f) scope (stack.map (Task.move f)) (memory.move f) =
      (Machine.iterate v s body scope stack memory).move f := by
  unfold Machine.iterate
  cases v.isError with
  | true => rfl
  | false =>
    cases v.isTrue with
    | true =>
      simp only [Machine.move, Focus.move]
      rfl
    | false => rfl

theorem resume_move (v : Value) (task : Task) :
    Machine.resume setting v (task.move f) (stack.map (Task.move f)) (memory.move f) =
      (Machine.resume setting v task stack memory).move f := by
  cases task with
  | operand op =>
    simp only [Task.move, Machine.resume]
    cases v.isError with
    | true => rfl
    | false =>
      simp only [conclude_move]
      rfl
  | left op e scope =>
    simp only [Task.move, Machine.resume]
    cases v.isError <;> rfl
  | right op left =>
    simp only [Task.move, Machine.resume]
    cases v.isError with
    | true => rfl
    | false =>
      simp only [conclude_move]
      rfl
  | argument callee ready rest scope =>
    simp only [Task.move, Machine.resume]
    cases v.isError with
    | true => rfl
    | false => exact argue_move f setting stack memory callee (ready ++ [v]) rest scope
  | leave => rfl
  | settle use s scope =>
    simp only [Task.move, Machine.resume]
    cases v.isError with
    | true => rfl
    | false =>
      simp only [use_move]
      rfl
  | choose s consequence alternative scope =>
    simp only [Task.move, Machine.resume, branch_move]
    rfl
  | chosen => rfl
  | test s body scope =>
    simp only [Task.move, Machine.resume, iterate_move]
    rfl
  | again s scope =>
    simp only [Task.move, Machine.resume]
    cases v.isControl <;> rfl
  | sequence rest scope =>
    simp only [Task.move, Machine.resume]
    cases v.isControl with
    | true => rfl
    | false => cases rest <;> rfl
  | script rest scope => cases v <;> cases rest <;> rfl

end

/-- A step from a moved state leads to the moved state. -/
theorem next_move (setting : Setting) (m : Machine) : (m.move f).next setting = (m.next setting).move f := by
  obtain ⟨memory, focus, stack⟩ := m
  cases focus with
  | evaluate e scope => exact evaluate_move f setting stack memory e scope
  | execute s scope => exact execute_step_move f stack memory s scope
  | give v =>
    cases stack with
    | nil => rfl
    | cons task stack => exact resume_move f setting stack memory v task

/-! ## Runs -/

/-- How far a run of a script at other places has come. -/
def Progress.move {ι : Type} : Progress ι → Progress ι
  | running m => running (m.move f)
  | waiting job w => waiting job (w.move f)

/-- A step with the host in a run of a script at other places. -/
def Stride.move {ι : Type} : Stride ι → Stride ι
  | on p => on (p.move f)
  | pass c p => pass (c.move f) (p.move f)
  | wait wakes p => wait wakes (p.move f)
  | finish v memory => finish v (memory.move f)

/-- Why a run of a script at other places came back. -/
def Turn.move {ι : Type} : Turn ι → Turn ι
  | pending wakes p => pending wakes (p.move f)
  | finished v memory => finished v (memory.move f)
  | exhausted p => exhausted (p.move f)

/-- What a poll leaves behind in a run of a script at other places. -/
def Visit.move {σ ι : Type} (visit : Visit σ ι) : Visit σ ι :=
  ⟨visit.state, visit.turn.move f, visit.slot.map (Checkpoint.move f), visit.cancels⟩

/-- A run of a script at other places, once it has ended. -/
def Evaluation.move {σ : Type} (e : Evaluation σ) : Evaluation σ :=
  ⟨e.state, e.memory.move f, e.ending⟩

section

variable {σ ι : Type} (host : Host σ ι) (setting : Setting)

theorem waiting_resume_move (w : Waiting) (a : Answer) : (w.move f).resume a = (w.resume a).move f := by
  cases a with
  | nothing => rfl
  | data p =>
    simp only [Waiting.resume, Waiting.move, adopt_move]
    rfl
  | value v => cases v <;> rfl

theorem stride_move (state : σ) (p : Progress ι) :
    (p.move f).stride host setting state =
      ⟨(p.stride host setting state).state, (p.stride host setting state).result.move f,
        (p.stride host setting state).cancels⟩ := by
  cases p with
  | running m =>
    simp only [Progress.move, Progress.stride, next_move]
    cases m.next setting <;> rfl
  | waiting job w =>
    simp only [Progress.move, Progress.stride]
    cases (host.poll state job).result with
    | ready a =>
      simp only [waiting_resume_move]
      rfl
    | pending job' wakes => rfl

theorem poll_move (stepping : Bool) (fuel : Nat) (state : σ) (slot : Option Checkpoint) (cancels : Bool)
    (p : Progress ι) :
    (p.move f).poll host setting stepping fuel state (slot.map (Checkpoint.move f)) cancels =
      (p.poll host setting stepping fuel state slot cancels).move f := by
  induction fuel generalizing state slot cancels p with
  | zero => rfl
  | succ fuel ih =>
    rw [Progress.poll, Progress.poll, stride_move]
    cases (p.stride host setting state).result with
    | on p' => exact ih _ slot _ p'
    | pass c p' =>
      cases stepping with
      | true => rfl
      | false => exact ih _ slot _ p'
    | wait wakes p' => rfl
    | finish v memory => rfl

theorem abandon_move (p : Progress ι) : (p.move f).abandon = p.abandon.move f := by
  have calls (stack : List Task) : (stack.map (Task.move f)).countP Task.isCall = stack.countP Task.isCall := by
    rw [List.countP_map]
    refine List.countP_congr fun task _ => ?_
    cases task <;> rfl
  cases p with
  | running m =>
    simp only [Progress.abandon, Progress.move, Progress.memory, Progress.stack, Machine.move, calls]
    rfl
  | waiting job w =>
    simp only [Progress.abandon, Progress.move, Progress.memory, Progress.stack, Waiting.move, calls]
    rfl

theorem finish_move (fuel rounds : Nat) (state : σ) (p : Progress ι) :
    (p.move f).finish host setting fuel rounds state = (p.finish host setting fuel rounds state).move f := by
  induction rounds generalizing state p with
  | zero =>
    rw [Progress.finish, Progress.finish, abandon_move]
    rfl
  | succ rounds ih =>
    have polled := poll_move f host setting false fuel state none false p
    rw [Option.map_none] at polled
    rw [Progress.finish, Progress.finish, polled]
    simp only [Visit.move]
    cases (p.poll host setting false fuel state none false).turn with
    | finished v memory => rfl
    | pending wakes p' =>
      cases wakes with
      | true => exact ih _ p'
      | false =>
        simp only [Turn.move, abandon_move]
        rfl
    | exhausted p' =>
      simp only [Turn.move, abandon_move]
      rfl

/-- A run of a moved script from a moved memory is the moved run. -/
theorem execute_move (fuel : Nat) (state : σ) (memory : Memory) (script : List Stmt) (scope : FrameId) :
    execute host setting fuel state (memory.move f) (script.map (Stmt.move f)) scope =
      (execute host setting fuel state memory script scope).move f :=
  finish_move f host setting fuel fuel state (.running (.start memory script scope))

end

end

end Stepwise
