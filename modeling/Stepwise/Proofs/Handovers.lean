import Stepwise.Proofs.Holdings

/-!
How texts come to their places. A text that stands somewhere behind a step stood where the step has it from, with
the identity that it has, or it is given and the step has made it, with the next identity (`traced_next`). The
number of instances that were made never gets less (`serial_next`), so no identity is made twice.
-/
namespace Stepwise

section

variable {setting : Setting} {memory : Memory} {stack : List Task}

/-! ## What is given -/

/-- Plain data that becomes a value is no text, or a new one. -/
theorem hands_adopt {before after : Holding} {p : Primitive} {x : String × Identity}
    (adopted : after.memory = (before.memory.adopt p).2)
    (text : (before.memory.adopt p).1.text? = some x) : before.Hands after x none := by
  cases p with
  | string text' =>
    cases text
    refine .made rfl ?_
    rw [adopted]
    exact Nat.lt_succ_self _
  | _ => cases text

theorem hands_conclude {before after : Holding} {outcome : Except Fault Primitive} {x : String × Identity}
    (concluded : after.memory = (before.memory.conclude outcome).2)
    (text : (before.memory.conclude outcome).1.text? = some x) : before.Hands after x none := by
  cases outcome with
  | error fault => cases text
  | ok p => exact hands_adopt concluded text

/-- A call gives no text at once. -/
theorem textless_apply {callee : Callee} {arguments : List Value} {scope : FrameId} {v : Value}
    (given : (Machine.apply setting callee arguments scope stack memory).given? = some v) : v.text? = none := by
  cases callee with
  | function g =>
    simp only [Machine.apply] at given
    split at given
    · cases given
      rfl
    · split at given <;> cases given <;> rfl
  | builtin b =>
    cases b with
    | native f => cases given
    | println | input =>
      simp only [Machine.apply] at given
      split at given <;> cases given <;> rfl

theorem textless_argue {callee : Callee} {ready : List Value} {rest : List Expr} {scope : FrameId} {v : Value}
    (given : (Machine.argue setting callee ready rest scope stack memory).given? = some v) : v.text? = none := by
  cases rest with
  | nil => exact textless_apply given
  | cons e rest => cases given

theorem textless_of_isError {v : Value} (faulty : v.isError = true) : v.text? = none := by
  cases v with
  | error fault => rfl
  | _ => cases faulty

theorem given_evaluate {e : Expr} {scope : FrameId} {v : Value} {x : String × Identity}
    (given : (Machine.evaluate setting e scope stack memory).given? = some v) (text : v.text? = some x) :
    (Machine.holding ⟨memory, .evaluate e scope, stack⟩).Hands
      (Machine.evaluate setting e scope stack memory).holding x
      (Machine.givenFrom ⟨memory, .evaluate e scope, stack⟩) := by
  cases e with
  | number y => cases given; cases text
  | bool b => cases given; cases text
  | string literal =>
    cases given
    exact hands_adopt (p := .string literal) rfl text
  | name name =>
    change some (memory.lookup setting name scope).1 = some v at given
    cases given
    cases found : memory.store.get? scope name with
    | none =>
      simp only [Memory.lookup, found] at text
      split at text
      · cases text
      · split at text <;> cases text
    | some w =>
      simp only [Memory.lookup, found] at text
      rw [get?_eq] at found
      obtain ⟨owner, owned, bound⟩ := Option.bind_eq_some_iff.mp found
      rw [Machine.givenFrom, owned]
      exact .moved (Option.bind_eq_some_iff.mpr ⟨w, bound, text⟩)
  | unary op operand => cases given
  | binary left op right => cases given
  | call function arguments =>
    simp only [Machine.evaluate] at given
    split at given
    · cases given
      cases text
    · rw [textless_argue given] at text
      cases text

theorem given_settle {w v : Value} {use : Use} {scope : FrameId} {x : String × Identity}
    (given : (if w.isError then (w, memory) else memory.use scope w use).1 = v) (text : v.text? = some x) :
    w.text? = some x := by
  cases faulty : w.isError with
  | true =>
    rw [if_pos faulty] at given
    rw [← given] at text
    exact text
  | false =>
    rw [if_neg (by rw [faulty]; exact Bool.false_ne_true)] at given
    rw [← given] at text
    cases use with
    | declare name type =>
      simp only [Memory.use] at text
      split at text <;> cases text
    | assign name =>
      simp only [Memory.use] at text
      split at text <;> cases text
    | giveBack => exact text
    | discard => exact text

theorem given_branch {w v : Value} {consequence : Block} {alternative : Option Block} {scope : FrameId}
    {x : String × Identity}
    (given : (Machine.branch w consequence alternative scope stack memory).focus.given? = some v)
    (text : v.text? = some x) : w.text? = some x := by
  unfold Machine.branch at given
  split at given
  · cases given
    exact text
  · split at given
    · cases given
      cases text
    · cases alternative <;> cases given <;> cases text

theorem given_iterate {w v : Value} {s : Stmt} {body : Block} {scope : FrameId} {x : String × Identity}
    (given : (Machine.iterate w s body scope stack memory).focus.given? = some v) (text : v.text? = some x) :
    w.text? = some x := by
  unfold Machine.iterate at given
  split at given
  · cases given
    exact text
  · split at given
    · cases given
    · cases given
      cases text

/-- What an operator comes to is made, or no text. -/
theorem given_operation {before : Holding} {w v : Value} {outcome : Except Fault Primitive} {x : String × Identity}
    (given : (if w.isError then Machine.give w stack before.memory
      else Machine.give (before.memory.conclude outcome).1 stack (before.memory.conclude outcome).2).given? = some v)
    (text : v.text? = some x) :
    before.Hands (if w.isError then Machine.give w stack before.memory
      else Machine.give (before.memory.conclude outcome).1 stack (before.memory.conclude outcome).2).holding x
      none := by
  by_cases faulty : w.isError = true
  · rw [if_pos faulty] at given
    cases given
    rw [textless_of_isError faulty] at text
    cases text
  · rw [if_neg faulty] at given ⊢
    cases given
    exact hands_conclude rfl text

/-- A text that a task gives on, if the task is no operation, is the text that the task was given. -/
theorem given_resume {w v : Value} {task : Task} {x : String × Identity} (unary : ∀ op, task ≠ .operand op)
    (binary : ∀ op left, task ≠ .right op left)
    (given : (Machine.resume setting w task stack memory).given? = some v) (text : v.text? = some x) :
    w.text? = some x := by
  cases task with
  | operand op => exact absurd rfl (unary op)
  | right op left => exact absurd rfl (binary op left)
  | left op e scope =>
    simp only [Machine.resume] at given
    split at given
    · cases given
      exact text
    · cases given
  | argument callee ready rest scope =>
    simp only [Machine.resume] at given
    split at given
    · cases given
      exact text
    · rw [textless_argue given] at text
      cases text
  | leave =>
    cases given
    cases w with
    | returned payload => exact text
    | _ => cases text
  | settle use s scope => exact given_settle (Option.some.inj given) text
  | choose s consequence alternative scope => exact given_branch given text
  | chosen =>
    cases given
    split at text
    · exact text
    · cases text
  | test s body scope => exact given_iterate given text
  | again s scope =>
    simp only [Machine.resume] at given
    split at given <;> cases given
    exact text
  | sequence rest scope =>
    simp only [Machine.resume] at given
    split at given <;> cases given
    exact text
  | script rest scope =>
    simp only [Machine.resume] at given
    split at given <;> cases given <;> exact text

/-- A text that is given behind a step stood where the step has it from, or the step has made it. -/
theorem given_next (m : Machine) {v : Value} {x : String × Identity}
    (given : (m.next setting).given? = some v) (text : v.text? = some x) :
    m.holding.Hands (m.next setting).holding x m.givenFrom := by
  obtain ⟨memory, focus, stack⟩ := m
  cases focus with
  | evaluate e scope => exact given_evaluate given text
  | execute s scope =>
    cases s with
    | declare position name type value => cases value <;> cases given; cases text
    | _ => cases given <;> cases text
  | give w =>
    cases stack with
    | nil =>
      cases given
      exact .moved text
    | cons task stack =>
      change (Machine.resume setting w task stack memory).given? = some v at given
      cases task with
      | operand op => exact given_operation given text
      | right op left => exact given_operation given text
      | _ => exact .moved (given_resume (by simp) (by simp) given text)

/-- Wherever a text stands behind a step, it stood where the step has it from, or the step has made it. -/
theorem traced_next (setting : Setting) (m : Machine) {p : Place} {x : String × Identity}
    (found : (m.next setting).holding.text? p = some x) :
    m.holding.Hands (m.next setting).holding x (m.source p) := by
  obtain ⟨v, held, text⟩ := Option.bind_eq_some_iff.mp found
  have moved {p : Place} (stood : m.holding.value? p = some v) : m.holding.text? p = some x := by
    rw [Holding.text?, stood]
    exact text
  cases p with
  | given => exact given_next m held text
  | kept height i => exact .moved (moved (kept_next m held))
  | bound f name =>
    rcases bound_next m held with stood | textless
    · exact .moved (moved stood)
    · rw [textless] at text
      cases text

/-! ## How many instances there are -/

theorem serial_adopt (m : Memory) (p : Primitive) : m.serial ≤ (m.adopt p).2.serial := by
  cases p with
  | string text => exact Nat.le_succ _
  | _ => exact Nat.le_refl _

theorem serial_conclude (m : Memory) (outcome : Except Fault Primitive) : m.serial ≤ (m.conclude outcome).2.serial := by
  cases outcome with
  | error fault => exact Nat.le_refl _
  | ok p => exact serial_adopt m p

theorem serial_lookup (m : Memory) (name : String) (scope : FrameId) :
    m.serial ≤ (m.lookup setting name scope).2.serial := by
  unfold Memory.lookup
  split
  · exact Nat.le_refl _
  · split
    · exact Nat.le_refl _
    · split
      · exact Nat.le_succ _
      · exact Nat.le_refl _

theorem serial_callee (m : Memory) (e : Expr) (scope : FrameId) :
    m.serial ≤ (m.callee setting e scope).2.serial := by
  unfold Memory.callee
  split
  · next name =>
    split
    · exact Nat.le_refl _
    · have later := @serial_lookup setting m name scope
      split <;> simp_all
  · exact Nat.le_refl _

theorem serial_use (m : Memory) (scope : FrameId) (v : Value) (use : Use) :
    (m.use scope v use).2.serial = m.serial := by
  cases use with
  | declare name type =>
    simp only [Memory.use]
    split <;> rfl
  | assign name =>
    simp only [Memory.use]
    split <;> rfl
  | giveBack | discard => rfl

theorem serial_apply (callee : Callee) (arguments : List Value) (scope : FrameId) :
    (Machine.apply setting callee arguments scope stack memory).memory.serial = memory.serial := by
  cases callee with
  | function g =>
    simp only [Machine.apply]
    split
    · rfl
    · split <;> rfl
  | builtin b =>
    cases b with
    | native f => rfl
    | println | input =>
      simp only [Machine.apply]
      split <;> rfl

theorem serial_argue (callee : Callee) (ready : List Value) (rest : List Expr) (scope : FrameId) :
    (Machine.argue setting callee ready rest scope stack memory).memory.serial = memory.serial := by
  cases rest with
  | nil => exact serial_apply callee ready scope
  | cons e rest => rfl

theorem serial_resume (v : Value) (task : Task) :
    memory.serial ≤ (Machine.resume setting v task stack memory).memory.serial := by
  have same := Nat.le_refl memory.serial
  cases task with
  | operand op | right op left =>
    simp only [Machine.resume]
    split
    · exact same
    · exact serial_conclude memory _
  | argument callee ready rest scope =>
    simp only [Machine.resume]
    split
    · exact same
    · exact Nat.le_of_eq (serial_argue callee _ rest scope).symm
  | settle use s scope =>
    simp only [Machine.resume]
    split
    · exact same
    · exact Nat.le_of_eq (serial_use memory scope v use).symm
  | choose s consequence alternative scope =>
    exact Nat.le_of_eq (congrArg Memory.serial (memory_branch v consequence alternative scope)).symm
  | test s body scope => exact Nat.le_of_eq (congrArg Memory.serial (memory_iterate v s body scope)).symm
  | leave | chosen => exact same
  | left _ _ _ | again _ _ | sequence _ _ | script _ _ =>
    simp only [Machine.resume]
    split <;> exact same

/-- The number of instances that were made does not get less. -/
theorem serial_next (setting : Setting) (m : Machine) : m.memory.serial ≤ (m.next setting).memory.serial := by
  obtain ⟨memory, focus, stack⟩ := m
  have same := Nat.le_refl memory.serial
  cases focus with
  | execute s scope =>
    cases s with
    | declare position name type value => cases value <;> exact same
    | _ => exact same
  | give v =>
    cases stack with
    | nil => exact same
    | cons task stack => exact serial_resume v task
  | evaluate e scope =>
    cases e with
    | string text => exact serial_adopt memory (.string text)
    | name name => exact serial_lookup memory name scope
    | call function arguments =>
      have later := @serial_callee setting memory function scope
      simp only [Machine.next, Machine.evaluate]
      generalize memory.callee setting function scope = found at later ⊢
      obtain ⟨callee, memory'⟩ := found
      cases callee with
      | error fault => exact later
      | ok callee => exact Nat.le_trans later (Nat.le_of_eq (serial_argue callee [] arguments scope).symm)
    | _ => exact same

end

end Stepwise
