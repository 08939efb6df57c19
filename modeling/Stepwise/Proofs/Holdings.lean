import Stepwise.Proofs.Calls
import Stepwise.Proofs.Containment
import Stepwise.Proofs.Slots

/-!
What a run holds, and where it has it from. A value stands in a place: a name that a frame binds, what is
given at the moment, or what a task keeps until it goes on. Behind a step each place has its value from a place in
front of the step (`Machine.source`), which is the same one but for a declaration, an assignment, a call, a name that
is read and a value that an operator or a call waits for; or the step has made it. What frames bind behind a step
(`bound_next`) and what tasks keep (`kept_next`) is never made there.
-/
namespace Stepwise

/-! ## Places -/

/-- A place that holds a value while a script runs: a name in the frame that binds it, what is given at the moment,
    and what a task keeps. Tasks are counted from the bottom of the stack. -/
inductive Place where
  | bound (f : FrameId) (name : String)
  | given
  | kept (height index : Nat)
deriving DecidableEq, Repr

/-- The values that a task keeps until it goes on: the left operand, or the arguments that are ready. -/
def Task.values : Task → List Value
  | right _ v => [v]
  | argument _ ready _ _ => ready
  | _ => []

/-- A value that is kept by a task on a stack. -/
def keptAt : List Task → Nat → Nat → Option Value
  | [], _, _ => none
  | task :: stack, height, i => if height = stack.length then task.values[i]? else keptAt stack height i

/-- The text of a value, with its identity. A value that goes back carries its text with it. -/
def Value.text? : Value → Option (String × Identity)
  | string text identity => some (text, identity)
  | returned payload => payload.text?
  | _ => none

/-- The value that the machine works on, if it has one. -/
def Focus.given? : Focus → Option Value
  | give v => some v
  | _ => none

/-- What a run holds. -/
structure Holding where
  memory : Memory
  given : Option Value
  stack : List Task

namespace Holding

/-- The value in a place. -/
def value? (h : Holding) : Place → Option Value
  | .bound f name => (h.memory.store.bindings f).get? name
  | .given => h.given
  | .kept height i => keptAt h.stack height i

/-- The text in a place, with its identity. -/
def text? (h : Holding) (p : Place) : Option (String × Identity) :=
  (h.value? p).bind Value.text?

end Holding

def Machine.holding (m : Machine) : Holding :=
  ⟨m.memory, m.focus.given?, m.stack⟩

def Waiting.holding (w : Waiting) : Holding :=
  ⟨w.memory, none, w.stack⟩

/-- The value that is given behind a move. -/
def Move.given? : Move → Option Value
  | step m | pause _ m | print _ m => m.focus.given?
  | ask _ _ => none
  | halt v _ => some v

/-- What is held behind a move. -/
def Move.holding (move : Move) : Holding :=
  ⟨move.memory, move.given?, move.stack⟩

/-! ## Where values come from -/

/-- The argument that a parameter is bound to. Of several parameters of one name the last counts. -/
def argumentOf (name : String) : List String → Option Nat
  | [] => none
  | p :: rest => ((argumentOf name rest).map (· + 1)).or (if p = name then some 0 else none)

namespace Machine

/-- Where the value comes from that is given behind a step. A text that is written in the script and what an operator
    comes to are made by the step, and so is a value of the host that is read. -/
def givenFrom : Machine → Option Place
  | ⟨_, .evaluate (.string _) _, _⟩ => none
  | ⟨memory, .evaluate (.name name) scope, _⟩ => (memory.store.owner? scope name).map (.bound · name)
  | ⟨_, .give _, .operand _ :: _⟩ | ⟨_, .give _, .right _ _ :: _⟩ => none
  | _ => some .given

/-- Where the value comes from that a frame binds to a name behind a step. A declaration and an assignment bind what
    is given, if they succeed, and the frame of a call binds the parameters to the arguments. -/
def boundFrom : Machine → FrameId → String → Place
  | ⟨_, .give v, .settle (.declare name type) _ scope :: _⟩, f, other =>
    if f = scope ∧ other = name ∧ v.tag = type.tag then .given else .bound f other
  | ⟨memory, .give v, .settle (.assign name) _ scope :: _⟩, f, other =>
    if other = name ∧ (memory.store.slot scope name v).toOption = some f then .given else .bound f other
  | ⟨memory, .give _, .argument (.function g) ready [] _ :: stack⟩, f, name =>
    if f = memory.store.next then
      (argumentOf name g.parameters).elim (.bound f name) fun j =>
        if j = ready.length then .given else .kept stack.length j
    else .bound f name
  | _, f, name => .bound f name

/-- Where the value comes from that a task keeps behind a step. A left operand and an argument were given. -/
def keptFrom : Machine → Nat → Nat → Place
  | ⟨_, .give _, .left _ _ _ :: stack⟩, height, i =>
    if height = stack.length then .given else .kept height i
  | ⟨_, .give _, .argument _ ready _ _ :: stack⟩, height, i =>
    if height = stack.length ∧ i = ready.length then .given else .kept height i
  | _, height, i => .kept height i

/-- Where the value comes from that a place holds behind a step, if the step has not made it. -/
def source (m : Machine) : Place → Option Place
  | .bound f name => some (m.boundFrom f name)
  | .given => m.givenFrom
  | .kept height i => some (m.keptFrom height i)

end Machine

/-- How a text has come to a place, which has its value from a place in front of a step or has got one that the step
    has made: it has stood there, or the identity is the next one. -/
inductive Holding.Hands (before after : Holding) (x : String × Identity) : Option Place → Prop where
  | moved {p : Place} (held : before.text? p = some x) : Hands before after x (some p)
  | made (fresh : x.2 = before.memory.fresh) (later : before.memory.serial < after.memory.serial) :
      Hands before after x none

/-! ## Tasks -/

section

variable {base stack : List Task} {height i : Nat} {v : Value}

/-- A task that keeps no value. -/
def Task.Bare (task : Task) : Prop :=
  task.values = []

theorem keptAt_eq_none (le : stack.length ≤ height) (i : Nat) : keptAt stack height i = none := by
  induction stack with
  | nil => rfl
  | cons task stack ih =>
    rw [List.length_cons] at le
    rw [keptAt, if_neg (by omega)]
    exact ih (by omega)

/-- Tasks on top that keep no values make no difference. -/
theorem keptAt_above (above : Above Task.Bare base stack) (height i : Nat) :
    keptAt stack height i = keptAt base height i := by
  obtain ⟨tasks, rfl, bare⟩ := above
  induction tasks with
  | nil => rfl
  | cons task tasks ih =>
    obtain ⟨none, others⟩ := List.forall_mem_cons.mp bare
    rw [List.cons_append, keptAt, ih others, none]
    -- At the height of the task there is nothing below either.
    by_cases top : height = (tasks ++ base).length
    · rw [if_pos top, keptAt_eq_none]
      · rfl
      · rw [top, List.length_append]
        exact Nat.le_add_left _ _
    · rw [if_neg top]

/-- What a task keeps is kept under another one. -/
theorem keptAt_cons (kept : keptAt stack height i = some v) (task : Task) :
    keptAt (task :: stack) height i = some v := by
  have below : height ≠ stack.length := by
    rintro rfl
    rw [keptAt_eq_none (Nat.le_refl _)] at kept
    cases kept
  rw [keptAt, if_neg below]
  exact kept

theorem keptAt_top (task : Task) (stack : List Task) (i : Nat) :
    keptAt (task :: stack) stack.length i = task.values[i]? := by
  rw [keptAt, if_pos rfl]

end

section

variable {setting : Setting} {memory : Memory} {stack : List Task}

theorem bare_apply (callee : Callee) (arguments : List Value) (scope : FrameId) :
    Above Task.Bare stack (Machine.apply setting callee arguments scope stack memory).stack := by
  have same := above_refl Task.Bare stack
  cases callee with
  | function g =>
    simp only [Machine.apply]
    split
    · exact same
    · split
      · exact same
      · have called : Above Task.Bare stack (.leave :: stack) := same.push rfl
        exact called.push rfl
  | builtin b =>
    cases b with
    | native f => exact same
    | println | input =>
      simp only [Machine.apply]
      split <;> exact same

theorem bare_evaluate (e : Expr) (scope : FrameId) :
    Above Task.Bare stack (Machine.evaluate setting e scope stack memory).stack := by
  have same := above_refl Task.Bare stack
  cases e with
  | number x => exact same
  | bool b => exact same
  | string text => exact same
  | name name => exact same
  | unary op operand => exact same.push rfl
  | binary left op right => exact same.push rfl
  | call function arguments =>
    simp only [Machine.evaluate]
    split
    · exact same
    · cases arguments with
      | nil => exact bare_apply _ [] scope
      | cons e rest => exact same.push rfl

theorem bare_execute (s : Stmt) (scope : FrameId) :
    Above Task.Bare stack (Machine.execute s scope stack memory).stack := by
  have same := above_refl Task.Bare stack
  cases s with
  | declare position name type value =>
    cases value with
    | none => exact same
    | some e => exact same.push rfl
  | define => exact same
  | _ => exact same.push rfl

theorem bare_branch (v : Value) (consequence : Block) (alternative : Option Block) (scope : FrameId) :
    Above Task.Bare stack (Machine.branch v consequence alternative scope stack memory).stack := by
  have same := above_refl Task.Bare stack
  have chosen : Above Task.Bare stack (.chosen :: stack) := same.push rfl
  unfold Machine.branch
  split
  · exact same
  · split
    · exact chosen.push rfl
    · cases alternative with
      | none => exact same
      | some block => exact chosen.push rfl

theorem bare_iterate (v : Value) (s : Stmt) (body : Block) (scope : FrameId) :
    Above Task.Bare stack (Machine.iterate v s body scope stack memory).stack := by
  have same := above_refl Task.Bare stack
  unfold Machine.iterate
  split
  · exact same
  · split
    · exact same.push rfl
    · exact same

/-- A task that was given a value leaves no task behind that keeps one, if the value is no left operand and no
    argument with others behind it. -/
theorem bare_resume (v : Value) {task : Task} (others : ∀ op e scope, task ≠ .left op e scope)
    (done : ∀ callee ready e rest scope, task ≠ .argument callee ready (e :: rest) scope) :
    Above Task.Bare stack (Machine.resume setting v task stack memory).stack := by
  have same := above_refl Task.Bare stack
  cases task with
  | left op e scope => exact absurd rfl (others op e scope)
  | argument callee ready rest scope =>
    simp only [Machine.resume]
    split
    · exact same
    · cases rest with
      | nil => exact bare_apply callee _ scope
      | cons e rest => exact absurd rfl (done callee ready e rest scope)
  | choose s consequence alternative scope => exact bare_branch v consequence alternative scope
  | test s body scope => exact bare_iterate v s body scope
  | leave | settle _ _ _ | chosen => exact same
  | operand _ | right _ _ =>
    simp only [Machine.resume]
    split <;> exact same
  | again _ _ =>
    simp only [Machine.resume]
    split <;> exact same
  | sequence _ _ =>
    simp only [Machine.resume]
    split
    · exact same.push rfl
    · exact same
  | script _ _ =>
    simp only [Machine.resume]
    split
    · exact same
    · exact same
    · exact same
    · exact same.push rfl

end

/-! ## Bindings -/

section

variable {setting : Setting} {memory : Memory} {stack : List Task}

theorem bindings_enclose (scope f : FrameId) :
    (memory.enclose scope).1.store.bindings f = memory.store.bindings f :=
  bindings_push memory.store _ f

/-- What the parameters are bound to once all of them are. -/
theorem get?_setEach {s : Store} {f : FrameId} (inside : f < s.frames.size) (name : String) {ps : List String}
    {vs : List Value} (fits : vs.length = ps.length) :
    ((s.setEach f (ps.zip vs)).bindings f).get? name =
      (argumentOf name ps).elim ((s.bindings f).get? name) (vs[·]?) := by
  induction ps generalizing s vs with
  | nil => rfl
  | cons p ps ih =>
    obtain ⟨v, vs, rfl⟩ := List.exists_cons_of_length_eq_add_one fits
    have later : f < (s.set f p v).frames.size := by
      rw [size_set]
      exact inside
    rw [List.zip_cons_cons, Store.setEach, ih later (Nat.succ.inj fits), argumentOf, bindings_set_self inside,
      Table.get?_insert]
    cases argumentOf name ps with
    | some j => rfl
    | none =>
      by_cases named : p = name
      · rw [if_pos named, if_pos named.symm]
        rfl
      · rw [if_neg named, if_neg (Ne.symm named)]
        rfl

theorem bindings_setEach_ne {s : Store} {f g : FrameId} (different : f ≠ g) (bindings : List (String × Value)) :
    (s.setEach f bindings).bindings g = s.bindings g := by
  induction bindings generalizing s with
  | nil => rfl
  | cons b rest ih => rw [Store.setEach, ih, bindings_set_ne different]

/-- A call binds nothing but the parameters, in a frame of its own. -/
theorem bindings_apply (callee : Callee) (arguments : List Value) (scope : FrameId) {f : FrameId} {name : String}
    {v : Value}
    (bound : ((Machine.apply setting callee arguments scope stack memory).memory.store.bindings f).get? name = some v) :
    (memory.store.bindings f).get? name = some v ∨
      ∃ g j, callee = .function g ∧ f = memory.store.next ∧ argumentOf name g.parameters = some j ∧
        arguments[j]? = some v := by
  have same : (memory.store.bindings f).get? name = some v →
      (memory.store.bindings f).get? name = some v ∨
        ∃ g j, callee = .function g ∧ f = memory.store.next ∧ argumentOf name g.parameters = some j ∧
          arguments[j]? = some v := .inl
  cases callee with
  | function g =>
    simp only [Machine.apply] at bound
    split at bound
    · exact same bound
    · next fits =>
      split at bound
      · exact same bound
      · change (((memory.enclose scope).1.store.setEach memory.store.next (g.parameters.zip arguments)).bindings
          f).get? name = some v at bound
        by_cases inner : f = memory.store.next
        · subst inner
          have inside : memory.store.next < (memory.enclose scope).1.store.frames.size := by
            rw [(size_enclose memory scope).1]
            exact Nat.lt_succ_self _
          rw [get?_setEach inside name (Decidable.not_not.mp fits), bindings_enclose] at bound
          cases argument : argumentOf name g.parameters with
          | none =>
            rw [argument] at bound
            exact same bound
          | some j =>
            rw [argument] at bound
            exact .inr ⟨g, j, rfl, rfl, argument, bound⟩
        · rw [bindings_setEach_ne (Ne.symm inner), bindings_enclose] at bound
          exact same bound
  | builtin b =>
    cases b with
    | native f => exact same bound
    | println | input =>
      simp only [Machine.apply] at bound
      split at bound <;> exact same bound

/-- An expression that is begun binds nothing. -/
theorem bindings_evaluate (e : Expr) (scope : FrameId) {f : FrameId} {name : String} {v : Value}
    (bound : ((Machine.evaluate setting e scope stack memory).memory.store.bindings f).get? name = some v) :
    (memory.store.bindings f).get? name = some v := by
  cases e with
  | call function arguments =>
    have store := store_callee memory setting scope function
    simp only [Machine.evaluate] at bound
    generalize memory.callee setting function scope = found at store bound
    obtain ⟨callee, memory'⟩ := found
    have store : memory'.store = memory.store := store
    rw [← store]
    cases callee with
    | error fault => exact bound
    | ok callee =>
      cases arguments with
      | nil =>
        rcases bindings_apply callee [] scope bound with same | ⟨g, j, -, -, -, none⟩
        · exact same
        · cases none
      | cons e rest => exact bound
  | name name' =>
    have store := store_lookup memory setting scope name'
    rw [← store]
    exact bound
  | _ => exact bound

/-- A statement that is begun binds at most null. -/
theorem bindings_execute (s : Stmt) (scope : FrameId) {f : FrameId} {name : String} {v : Value}
    (bound : ((Machine.execute s scope stack memory).memory.store.bindings f).get? name = some v) :
    (memory.store.bindings f).get? name = some v ∨ v = .null := by
  cases s with
  | declare position name' type value =>
    cases value with
    | some e => exact .inl bound
    | none =>
      change ((memory.store.set scope name' .null).bindings f).get? name = some v at bound
      rcases bindings_set memory.store scope f name' .null with same | inserted
      · rw [same] at bound
        exact .inl bound
      · rw [inserted, Table.get?_insert] at bound
        by_cases named : name = name'
        · rw [if_pos named] at bound
          exact .inr (Option.some.inj bound).symm
        · rw [if_neg named] at bound
          exact .inl bound
  | define position name' parameters body =>
    change ((memory.store.define scope ⟨name', parameters, body⟩).bindings f).get? name = some v at bound
    rw [bindings_define] at bound
    exact .inl bound
  | block body =>
    change ((memory.enclose scope).1.store.bindings f).get? name = some v at bound
    rw [bindings_enclose] at bound
    exact .inl bound
  | branch position condition consequence alternative =>
    change ((memory.enclose scope).1.store.bindings f).get? name = some v at bound
    rw [bindings_enclose] at bound
    exact .inl bound
  | _ => exact .inl bound

/-- What is bound is the value that was set, or what was bound before. -/
theorem get?_set {s : Store} {f g : FrameId} {name other : String} {v w : Value}
    (bound : ((s.set f name w).bindings g).get? other = some v) :
    (g = f ∧ other = name ∧ v = w) ∨ ¬ (g = f ∧ other = name) ∧ (s.bindings g).get? other = some v := by
  by_cases here : g = f ∧ other = name
  · obtain ⟨rfl, rfl⟩ := here
    have inside : g < s.frames.size := by
      have set := inside_of_binds bound
      rwa [size_set] at set
    rw [bindings_set_self inside, Table.get?_insert, if_pos rfl] at bound
    exact .inl ⟨rfl, rfl, (Option.some.inj bound).symm⟩
  · refine .inr ⟨here, ?_⟩
    rcases bindings_set s f g name w with same | inserted
    · rw [same] at bound
      exact bound
    · rw [inserted, Table.get?_insert] at bound
      by_cases named : other = name
      · subst named
        have elsewhere : f ≠ g := fun same => here ⟨same.symm, rfl⟩
        rw [← bindings_set_ne elsewhere other w, inserted, Table.get?_insert]
        exact bound
      · rw [if_neg named] at bound
        exact bound

theorem textless_of_tag {v w : Value} (tagged : v.tag = .null ∨ v.tag = w.tag) (faulty : w.isError = true) :
    v.text? = none := by
  cases w with
  | error fault => cases v <;> first | rfl | simp [Value.tag] at tagged
  | _ => cases faulty

theorem bound_settle {v w : Value} {use : Use} {s : Stmt} {scope f : FrameId} {name : String}
    (bound : ((if v.isError then (v, memory) else memory.use scope v use).2.store.bindings f).get? name = some w) :
    (Machine.holding ⟨memory, .give v, .settle use s scope :: stack⟩).value?
        (Machine.boundFrom ⟨memory, .give v, .settle use s scope :: stack⟩ f name) = some w ∨ w.text? = none := by
  cases use with
  | giveBack | discard =>
    have same : (memory.store.bindings f).get? name = some w := by
      cases faulty : v.isError <;> simpa [faulty, Memory.use] using bound
    exact .inl same
  | declare other type =>
    simp only [Machine.boundFrom]
    by_cases fits : v.tag = type.tag
    · have faultless : v.isError = false := by
        cases v with
        | error fault => cases type <;> cases fits
        | _ => rfl
      simp only [faultless, Memory.use, if_pos fits] at bound
      rcases get?_set bound with ⟨rfl, rfl, rfl⟩ | ⟨elsewhere, same⟩
      · rw [if_pos ⟨rfl, rfl, fits⟩]
        exact .inl rfl
      · rw [if_neg fun all => elsewhere ⟨all.1, all.2.1⟩]
        exact .inl same
    · have same : (memory.store.bindings f).get? name = some w := by
        cases faulty : v.isError <;> simpa [faulty, Memory.use, if_neg fits] using bound
      rw [if_neg fun all => fits all.2.2]
      exact .inl same
  | assign other =>
    simp only [Machine.boundFrom]
    cases found : memory.store.slot scope other v with
    | error fault =>
      have same : (memory.store.bindings f).get? name = some w := by
        cases faulty : v.isError <;> simpa [faulty, Memory.use, found] using bound
      rw [if_neg (by rintro ⟨-, ⟨⟩⟩)]
      exact .inl same
    | ok owner =>
      cases faulty : v.isError with
      | true =>
        -- A fault is not assigned, even if the name could take it; but then the name means null or a fault.
        simp only [faulty] at bound
        by_cases here : name = other ∧ (Except.ok owner : Except Fault FrameId).toOption = some f
        · obtain ⟨rfl, same⟩ := here
          obtain rfl : owner = f := Option.some.inj same
          obtain ⟨old, binds, tagged⟩ := binds_slot found
          obtain rfl : old = w := Option.some.inj (binds.symm.trans bound)
          exact .inr (textless_of_tag tagged faulty)
        · rw [if_neg here]
          exact .inl bound
      | false =>
        simp only [faulty, Memory.use, found] at bound
        rcases get?_set bound with ⟨rfl, rfl, rfl⟩ | ⟨elsewhere, same⟩
        · rw [if_pos ⟨rfl, rfl⟩]
          exact .inl rfl
        · rw [if_neg fun all => elsewhere ⟨(Option.some.inj all.2).symm, all.1⟩]
          exact .inl same

/-- An argument that is ready stands where the call takes it from. -/
theorem value?_argument {callee : Callee} {ready : List Value} {rest : List Expr} {scope : FrameId} {v w : Value}
    {j : Nat} (argument : (ready ++ [v])[j]? = some w) :
    (Machine.holding ⟨memory, .give v, .argument callee ready rest scope :: stack⟩).value?
        (if j = ready.length then .given else .kept stack.length j) = some w := by
  by_cases last : j = ready.length
  · rw [if_pos last]
    rw [last, List.getElem?_concat_length] at argument
    exact argument
  · rw [if_neg last]
    have bound := (List.getElem?_eq_some_iff.mp argument).1
    rw [List.length_append, List.length_singleton] at bound
    rw [List.getElem?_append_left (by omega)] at argument
    exact (keptAt_top _ stack j).trans argument

/-- What is bound already stays bound when a call is made, in a frame that was not there. -/
theorem bound_already {callee : Callee} {ready : List Value} {rest : List Expr} {scope f : FrameId} {name : String}
    {v w : Value} (same : (memory.store.bindings f).get? name = some w) :
    (Machine.holding ⟨memory, .give v, .argument callee ready rest scope :: stack⟩).value?
        (Machine.boundFrom ⟨memory, .give v, .argument callee ready rest scope :: stack⟩ f name) = some w := by
  have old : f ≠ memory.store.next := Nat.ne_of_lt (inside_of_binds same)
  cases callee with
  | builtin b => exact same
  | function g =>
    cases rest with
    | cons e rest => exact same
    | nil =>
      rw [Machine.boundFrom, if_neg old]
      exact same

theorem bound_argument {callee : Callee} {ready : List Value} {rest : List Expr} {scope f : FrameId} {name : String}
    {v w : Value}
    (bound : ((Machine.argue setting callee (ready ++ [v]) rest scope stack memory).memory.store.bindings f).get? name =
      some w) :
    (Machine.holding ⟨memory, .give v, .argument callee ready rest scope :: stack⟩).value?
        (Machine.boundFrom ⟨memory, .give v, .argument callee ready rest scope :: stack⟩ f name) = some w := by
  cases rest with
  | cons e rest => exact bound_already bound
  | nil =>
    rcases bindings_apply callee (ready ++ [v]) scope bound with same | ⟨g, j, rfl, rfl, parameter, argument⟩
    · exact bound_already same
    · rw [Machine.boundFrom, if_pos rfl, parameter]
      exact value?_argument argument

/-- A value that is bound behind a step was bound already, or stood where the step has bound it from. Only null, and
    what has no text either, comes from nowhere. -/
theorem bound_next (m : Machine) {f : FrameId} {name : String} {v : Value}
    (bound : ((m.next setting).memory.store.bindings f).get? name = some v) :
    m.holding.value? (m.boundFrom f name) = some v ∨ v.text? = none := by
  obtain ⟨memory, focus, stack⟩ := m
  cases focus with
  | evaluate e scope => exact .inl (bindings_evaluate e scope bound)
  | execute s scope =>
    rcases bindings_execute s scope bound with same | rfl
    · exact .inl same
    · exact .inr rfl
  | give v =>
    cases stack with
    | nil => exact .inl bound
    | cons task stack =>
      cases task with
      | settle use s scope => exact bound_settle bound
      | argument callee ready rest scope =>
        simp only [Machine.next, Machine.resume] at bound
        split at bound
        · exact .inl (bound_already bound)
        · exact .inl (bound_argument bound)
      | choose s consequence alternative scope =>
        simp only [Machine.next, Machine.resume, Move.memory, memory_branch] at bound
        exact .inl bound
      | test s body scope =>
        simp only [Machine.next, Machine.resume, Move.memory, memory_iterate] at bound
        exact .inl bound
      | leave | chosen => exact .inl bound
      | operand _ | right _ _ =>
        simp only [Machine.next, Machine.resume] at bound
        split at bound
        · exact .inl bound
        · simp only [Machine.give, Move.memory, store_conclude] at bound
          exact .inl bound
      | left _ _ _ | again _ _ | sequence _ _ | script _ _ =>
        simp only [Machine.next, Machine.resume] at bound
        split at bound <;> exact .inl bound

/-! ## What tasks keep -/

theorem height_lt_of_keptAt {height i : Nat} {v : Value} (kept : keptAt stack height i = some v) :
    height < stack.length := by
  refine Nat.lt_of_not_le fun le => ?_
  rw [keptAt_eq_none le] at kept
  cases kept

theorem kept_left {op : BinaryOp} {e : Expr} {scope : FrameId} {v w : Value} {height i : Nat}
    (kept : keptAt (Machine.resume setting w (.left op e scope) stack memory).stack height i = some v) :
    (Machine.holding ⟨memory, .give w, .left op e scope :: stack⟩).value?
        (Machine.keptFrom ⟨memory, .give w, .left op e scope :: stack⟩ height i) = some v := by
  have below (same : keptAt stack height i = some v) :
      (Machine.holding ⟨memory, .give w, .left op e scope :: stack⟩).value?
        (Machine.keptFrom ⟨memory, .give w, .left op e scope :: stack⟩ height i) = some v := by
    rw [Machine.keptFrom, if_neg (Nat.ne_of_lt (height_lt_of_keptAt same))]
    exact keptAt_cons same _
  simp only [Machine.resume] at kept
  split at kept
  · exact below kept
  · change keptAt (.right op w :: stack) height i = some v at kept
    by_cases top : height = stack.length
    · subst top
      rw [keptAt_top, Task.values] at kept
      rw [Machine.keptFrom, if_pos rfl]
      obtain rfl : v = w := List.mem_singleton.mp (List.mem_of_getElem? kept)
      rfl
    · rw [keptAt, if_neg top] at kept
      exact below kept

theorem kept_argument {callee : Callee} {ready : List Value} {rest : List Expr} {scope : FrameId} {v w : Value}
    {height i : Nat}
    (kept : keptAt (Machine.resume setting w (.argument callee ready rest scope) stack memory).stack height i =
      some v) :
    (Machine.holding ⟨memory, .give w, .argument callee ready rest scope :: stack⟩).value?
        (Machine.keptFrom ⟨memory, .give w, .argument callee ready rest scope :: stack⟩ height i) = some v := by
  have below (same : keptAt stack height i = some v) :
      (Machine.holding ⟨memory, .give w, .argument callee ready rest scope :: stack⟩).value?
        (Machine.keptFrom ⟨memory, .give w, .argument callee ready rest scope :: stack⟩ height i) = some v := by
    rw [Machine.keptFrom, if_neg fun top => Nat.ne_of_lt (height_lt_of_keptAt same) top.1]
    exact keptAt_cons same _
  simp only [Machine.resume] at kept
  split at kept
  · exact below kept
  · cases rest with
    | nil =>
      change keptAt (Machine.apply setting callee (ready ++ [w]) scope stack memory).stack height i = some v at kept
      rw [keptAt_above (bare_apply callee _ scope)] at kept
      exact below kept
    | cons e rest =>
      change keptAt (.argument callee (ready ++ [w]) rest scope :: stack) height i = some v at kept
      by_cases top : height = stack.length
      · subst top
        rw [keptAt_top, Task.values] at kept
        simp only [Machine.keptFrom, true_and]
        exact value?_argument kept
      · rw [keptAt, if_neg top] at kept
        exact below kept

/-- A value that a task keeps behind a step was kept already, or was given. -/
theorem kept_next (m : Machine) {height i : Nat} {v : Value}
    (kept : keptAt (m.next setting).stack height i = some v) :
    m.holding.value? (m.keptFrom height i) = some v := by
  obtain ⟨memory, focus, stack⟩ := m
  cases focus with
  | evaluate e scope =>
    change keptAt (Machine.evaluate setting e scope stack memory).stack height i = some v at kept
    rw [keptAt_above (bare_evaluate e scope)] at kept
    exact kept
  | execute s scope =>
    change keptAt (Machine.execute s scope stack memory).stack height i = some v at kept
    rw [keptAt_above (bare_execute s scope)] at kept
    exact kept
  | give w =>
    cases stack with
    | nil => cases kept
    | cons task stack =>
      change keptAt (Machine.resume setting w task stack memory).stack height i = some v at kept
      cases task with
      | left op e scope => exact kept_left kept
      | argument callee ready rest scope => exact kept_argument kept
      | _ =>
        rw [keptAt_above (bare_resume w (by simp) (by simp))] at kept
        exact keptAt_cons kept _

end

end Stepwise
