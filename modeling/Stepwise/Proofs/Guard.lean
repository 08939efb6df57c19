import Stepwise.Proofs.Frames
import Stepwise.Proofs.Course

/-!
Values that a run keeps away from its script. The control values are of two kinds, and one
invariant serves both: no name is bound to a value of the kind, and no call has one ready
for an argument. The values that go back stay with the statements: every task takes either
the value of an expression or that of a statement, and every task gives what the one below
it takes (`Fits`). A step preserves the invariant (`guards_next`).
-/
namespace Stepwise

/-! ## Stores without certain values -/

/-- No frame of a store binds a `bad` value. -/
def Store.Free (bad : Value → Bool) (s : Store) : Prop :=
  ∀ f name v, (s.bindings f).get? name = some v → bad v = false

theorem bindings_push (s : Store) (outers : List FrameId) (f : FrameId) :
    (s.push outers).bindings f = s.bindings f := by
  simp only [Store.bindings, Store.push, Array.getElem?_push]
  by_cases last : f = s.frames.size
  · subst last
    simp [Frame.inside]
  · rw [if_neg last]

theorem bindings_set (s : Store) (f g : FrameId) (name : String) (v : Value) :
    (s.set f name v).bindings g = s.bindings g ∨ (s.set f name v).bindings g = (s.bindings g).insert name v := by
  simp only [Store.bindings, Store.set, Array.getElem?_modify]
  by_cases same : f = g
  · rw [if_pos same]
    cases s.frames[g]? with
    | none => exact .inl rfl
    | some frame => exact .inr rfl
  · rw [if_neg same]
    exact .inl rfl

theorem bindings_define (s : Store) (f g : FrameId) (function : Function) :
    (s.define f function).bindings g = s.bindings g := by
  simp only [Store.bindings, Store.define, Array.getElem?_modify]
  by_cases same : f = g
  · rw [if_pos same]
    cases s.frames[g]? <;> rfl
  · rw [if_neg same]

section

variable {bad : Value → Bool} {s : Store}

theorem Store.Free.push (free : s.Free bad) (outers : List FrameId) : (s.push outers).Free bad := by
  intro f name v found
  rw [bindings_push] at found
  exact free f name v found

theorem Store.Free.set (free : s.Free bad) {v : Value} (good : bad v = false) (f : FrameId) (name : String) :
    (s.set f name v).Free bad := by
  intro g wanted w found
  rcases bindings_set s f g name v with same | bound
  · rw [same] at found
    exact free g wanted w found
  · rw [bound, Table.get?_insert] at found
    by_cases own : wanted = name
    · rw [if_pos own] at found
      cases found
      exact good
    · rw [if_neg own] at found
      exact free g wanted w found

theorem Store.Free.setEach (free : s.Free bad) {bindings : List (String × Value)}
    (good : ∀ b ∈ bindings, bad b.2 = false) (f : FrameId) : (s.setEach f bindings).Free bad := by
  induction bindings generalizing s with
  | nil => exact free
  | cons b rest ih =>
    have bound := free.set (good b List.mem_cons_self) f b.1
    exact ih bound fun c member => good c (List.mem_cons_of_mem _ member)

theorem Store.Free.define (free : s.Free bad) (f : FrameId) (function : Function) :
    (s.define f function).Free bad := by
  intro g name v found
  rw [bindings_define] at found
  exact free g name v found

/-- What a name means in some frame is bound by some frame. -/
theorem Store.Free.get? (free : s.Free bad) {f : FrameId} {name : String} {v : Value}
    (found : s.get? f name = some v) : bad v = false := by
  obtain ⟨g, -, bound⟩ := List.exists_of_findSome?_eq_some found
  exact free g name v bound

end

/-! ## What is kept away -/

/-- A fault, or a value that is not `bad`. -/
def Value.Harmless (bad : Value → Bool) (v : Value) : Prop :=
  v.isError = false → bad v = false

/-- The values of a kind can be kept away from a script: they are control values, and none
    of them is wrapped in a harmless value. -/
structure Barred (bad : Value → Bool) : Prop where
  control : ∀ v, v.isControl = false → bad v = false
  payload : ∀ v : Value, v.Harmless bad → v.payload.Harmless bad

theorem barred_isError : Barred Value.isError := by
  constructor
  · intro v plain
    cases v with
    | error fault => cases plain
    | _ => rfl
  · intro v harmless faultless
    exact faultless

theorem barred_isControl : Barred Value.isControl := by
  constructor
  · intro v plain
    exact plain
  · intro v harmless
    cases v with
    | returned payload => cases harmless rfl
    | _ => exact harmless

/-- Whether a task waits for the value of an expression. -/
def Task.takesPlain : Task → Bool
  | operand _ | left _ _ _ | right _ _ | argument _ _ _ _ => true
  | settle _ _ _ | choose _ _ _ _ | test _ _ _ => true
  | leave | chosen | again _ _ | sequence _ _ | script _ _ => false

/-- Whether a task gives the value of an expression or of the whole script. -/
def Task.givesPlain : Task → Bool
  | operand _ | left _ _ _ | right _ _ | argument _ _ _ _ | leave | script _ _ => true
  | settle _ _ _ | choose _ _ _ _ | chosen | test _ _ _ | again _ _ | sequence _ _ => false

/-- Whether what is left of a run waits for the value of an expression or of the whole
    script. -/
def takesPlain : List Task → Bool
  | [] => true
  | task :: _ => task.takesPlain

/-- Every task gives what the one below it takes. -/
def Fits : List Task → Prop
  | [] => True
  | task :: stack => takesPlain stack = task.givesPlain ∧ Fits stack

/-- None of the arguments that a task has ready is `bad`. -/
def Task.Free (bad : Value → Bool) : Task → Prop
  | argument _ ready _ _ => ∀ v ∈ ready, bad v = false
  | _ => True

/-- Neither what a run remembers nor what is left of it holds a `bad` value. -/
structure Tidy (bad : Value → Bool) (memory : Memory) (stack : List Task) : Prop where
  store : memory.store.Free bad
  ready : ∀ task ∈ stack, task.Free bad
  fits : Fits stack

/-- What a run works on fits what is left of it. A value that goes back is only given to what
    waits for a statement, and carries a harmless one. -/
def Focus.Fits (bad : Value → Bool) : (plain : Bool) → Focus → Prop
  | plain, evaluate _ _ => plain = true
  | plain, execute _ _ => plain = false
  | true, give v => v.Harmless bad
  | false, give v => v.payload.Harmless bad

/-- A run that keeps `bad` values away from its script. -/
structure Machine.Guards (bad : Value → Bool) (m : Machine) : Prop where
  tidy : Tidy bad m.memory m.stack
  focus : m.focus.Fits bad (takesPlain m.stack)

/-- The same of a run that waits for an answer. -/
structure Waiting.Guards (bad : Value → Bool) (w : Waiting) : Prop where
  tidy : Tidy bad w.memory w.stack
  plain : takesPlain w.stack = true

/-- A move leads to a run that keeps `bad` values away, or ends it without one. -/
def Move.Guards (bad : Value → Bool) : Move → Prop
  | step m | pause _ m | print _ m => m.Guards bad
  | ask _ w => w.Guards bad
  | halt v memory => v.Harmless bad ∧ memory.store.Free bad

/-! ## Steps -/

section

variable {bad : Value → Bool} {memory : Memory} {stack : List Task}

theorem harmless_error (fault : Fault) : (Value.error fault).Harmless bad := by
  intro faultless
  cases faultless

theorem harmless_plain (barred : Barred bad) {v : Value} (plain : v.isControl = false) : v.Harmless bad :=
  fun _ => barred.control v plain

theorem plain_adopt (m : Memory) (p : Primitive) : (m.adopt p).1.isControl = false := by
  cases p <;> rfl

theorem harmless_conclude (barred : Barred bad) (m : Memory) (outcome : Except Fault Primitive) :
    (m.conclude outcome).1.Harmless bad := by
  cases outcome with
  | error fault => exact harmless_error fault
  | ok p => exact harmless_plain barred (plain_adopt m p)

theorem harmless_lookup (barred : Barred bad) (free : memory.store.Free bad) (setting : Setting) (name : String)
    (scope : FrameId) : (memory.lookup setting name scope).1.Harmless bad := by
  unfold Memory.lookup
  split
  · next v found => exact fun _ => free.get? found
  · split
    · exact harmless_plain barred rfl
    · split
      · exact harmless_plain barred rfl
      · exact harmless_error _

theorem Tidy.push (tidy : Tidy bad memory stack) (task : Task) (free : task.Free bad)
    (fits : takesPlain stack = task.givesPlain) : Tidy bad memory (task :: stack) := by
  refine ⟨tidy.store, ?_, fits, tidy.fits⟩
  intro t member
  rcases List.mem_cons.mp member with rfl | below
  · exact free
  · exact tidy.ready t below

theorem Tidy.pop {task : Task} (tidy : Tidy bad memory (task :: stack)) : Tidy bad memory stack :=
  ⟨tidy.store, fun t below => tidy.ready t (List.mem_cons_of_mem _ below), tidy.fits.2⟩

theorem Tidy.remember {memory' : Memory} (tidy : Tidy bad memory stack) (store : memory'.store.Free bad) :
    Tidy bad memory' stack :=
  ⟨store, tidy.ready, tidy.fits⟩

theorem guards_give (barred : Barred bad) (tidy : Tidy bad memory stack) {v : Value} (harmless : v.Harmless bad) :
    Machine.Guards bad ⟨memory, .give v, stack⟩ := by
  refine ⟨tidy, ?_⟩
  cases takesPlain stack with
  | true => exact harmless
  | false => exact barred.payload v harmless

theorem guards_fail (barred : Barred bad) (tidy : Tidy bad memory stack) (fault : Fault) :
    (Machine.fail fault stack memory).Guards bad :=
  guards_give barred tidy (harmless_error fault)

/-- A value may go back to what waits for a statement. -/
theorem guards_statement (tidy : Tidy bad memory stack) (takes : takesPlain stack = false) {v : Value}
    (harmless : v.payload.Harmless bad) : Machine.Guards bad ⟨memory, .give v, stack⟩ := by
  refine ⟨tidy, ?_⟩
  rw [takes]
  exact harmless

theorem guards_enter (barred : Barred bad) (tidy : Tidy bad memory stack) (takes : takesPlain stack = false)
    (statements : List Stmt) (scope : FrameId) : (Machine.enter statements scope stack memory).Guards bad :=
  guards_give barred (tidy.push (.sequence statements scope) trivial takes) (harmless_plain barred rfl)

theorem guards_apply (barred : Barred bad) (tidy : Tidy bad memory stack) (takes : takesPlain stack = true)
    (setting : Setting) (callee : Callee) {arguments : List Value} (good : ∀ v ∈ arguments, bad v = false)
    (scope : FrameId) : (Machine.apply setting callee arguments scope stack memory).Guards bad := by
  have null : Machine.Guards bad ⟨memory, .give .null, stack⟩ := guards_give barred tidy (harmless_plain barred rfl)
  cases callee with
  | function f =>
    simp only [Machine.apply]
    split
    · exact guards_fail barred tidy _
    · split
      · exact guards_fail barred tidy _
      · have opened : (memory.enclose scope).1.store.Free bad := tidy.store.push _
        have bound : ((memory.enclose scope).1.setEach (memory.enclose scope).2
            (f.parameters.zip arguments)).enterCall.store.Free bad := by
          refine opened.setEach ?_ _
          intro b member
          exact good b.2 (List.of_mem_zip member).2
        exact guards_enter barred ((tidy.remember bound).push .leave trivial takes) rfl _ _
  | builtin b =>
    cases b with
    | println =>
      simp only [Machine.apply]
      split
      · exact null
      · exact guards_fail barred tidy _
    | input =>
      simp only [Machine.apply]
      split
      · exact ⟨tidy, takes⟩
      · exact guards_fail barred tidy _
    | native f => exact ⟨tidy, takes⟩

theorem guards_argue (barred : Barred bad) (tidy : Tidy bad memory stack) (takes : takesPlain stack = true)
    (setting : Setting) (callee : Callee) {ready : List Value} (good : ∀ v ∈ ready, bad v = false)
    (rest : List Expr) (scope : FrameId) :
    (Machine.argue setting callee ready rest scope stack memory).Guards bad := by
  cases rest with
  | nil => exact guards_apply barred tidy takes setting callee good scope
  | cons e rest => exact ⟨tidy.push (.argument callee ready rest scope) good takes, rfl⟩

theorem guards_evaluate (barred : Barred bad) (tidy : Tidy bad memory stack) (takes : takesPlain stack = true)
    (setting : Setting) (e : Expr) (scope : FrameId) :
    (Machine.evaluate setting e scope stack memory).Guards bad := by
  cases e with
  | number x => exact guards_give barred tidy (harmless_plain barred (by rfl))
  | bool b => exact guards_give barred tidy (harmless_plain barred (by rfl))
  | string text =>
    have made : Tidy bad (memory.adopt (.string text)).2 stack := tidy.remember tidy.store
    exact guards_give barred made (harmless_plain barred (plain_adopt memory (.string text)))
  | name name =>
    have same := store_lookup memory setting scope name
    have found : Tidy bad (memory.lookup setting name scope).2 stack := tidy.remember (by rw [same]; exact tidy.store)
    exact guards_give barred found (harmless_lookup barred tidy.store setting name scope)
  | unary op operand => exact ⟨tidy.push (.operand op) trivial takes, rfl⟩
  | binary left op right => exact ⟨tidy.push (.left op right scope) trivial takes, rfl⟩
  | call function arguments =>
    have same := store_callee memory setting scope function
    simp only [Machine.evaluate]
    generalize memory.callee setting function scope = r at same ⊢
    obtain ⟨callee, memory'⟩ := r
    have free : memory'.store.Free bad := by rw [show memory'.store = memory.store from same]; exact tidy.store
    have found : Tidy bad memory' stack := tidy.remember free
    cases callee with
    | error fault => exact guards_fail barred found fault
    | ok callee => exact guards_argue barred found takes setting callee (by simp) arguments scope

theorem guards_execute (barred : Barred bad) (tidy : Tidy bad memory stack) (takes : takesPlain stack = false)
    (s : Stmt) (scope : FrameId) : (Machine.execute s scope stack memory).Guards bad := by
  have opened : Tidy bad (memory.enclose scope).1 stack := tidy.remember (tidy.store.push _)
  have null : Value.null.Harmless bad := harmless_plain barred rfl
  cases s with
  | declare position name type value =>
    cases value with
    | none =>
      have declared : Tidy bad (memory.set scope name .null) stack :=
        tidy.remember (tidy.store.set (barred.control .null rfl) scope name)
      exact guards_give barred declared null
    | some e => exact ⟨tidy.push (.settle _ _ scope) trivial takes, rfl⟩
  | assign position name e => exact ⟨tidy.push (.settle _ _ scope) trivial takes, rfl⟩
  | giveBack position e => exact ⟨tidy.push (.settle _ _ scope) trivial takes, rfl⟩
  | evaluate position e => exact ⟨tidy.push (.settle _ _ scope) trivial takes, rfl⟩
  | block body => exact guards_enter barred opened takes body.statements _
  | branch position condition consequence alternative =>
    exact ⟨opened.push (.choose _ consequence alternative _) trivial takes, rfl⟩
  | loop position condition body => exact ⟨tidy.push (.test _ body scope) trivial takes, rfl⟩
  | define position name parameters body =>
    have defined : Tidy bad (memory.define scope ⟨name, parameters, body⟩) stack :=
      tidy.remember (tidy.store.define scope _)
    exact guards_give barred defined null

/-- The effect of a statement on a value that is neither a fault nor `bad`. -/
theorem free_use (free : memory.store.Free bad) {v : Value} (good : bad v = false) (use : Use) (scope : FrameId) :
    (memory.use scope v use).2.store.Free bad := by
  cases use with
  | declare name type =>
    simp only [Memory.use]
    split
    · exact free.set good scope name
    · exact free
  | assign name =>
    simp only [Memory.use]
    split
    · next owner found => exact free.set good owner name
    · exact free
  | giveBack => exact free
  | discard => exact free

theorem harmless_payload_use (barred : Barred bad) {v : Value} (good : bad v = false) (use : Use)
    (scope : FrameId) : (memory.use scope v use).1.payload.Harmless bad := by
  have null : Value.null.Harmless bad := harmless_plain barred rfl
  cases use with
  | declare name type =>
    simp only [Memory.use]
    split
    · exact null
    · exact harmless_error _
  | assign name =>
    simp only [Memory.use]
    split
    · exact null
    · exact harmless_error _
  | giveBack => exact fun _ => good
  | discard => exact barred.payload v fun _ => good

theorem harmless_leaveWith (barred : Barred bad) {v : Value} (harmless : v.payload.Harmless bad) :
    (Machine.leaveWith v).Harmless bad := by
  cases v with
  | returned payload => exact harmless
  | error fault => exact harmless_error fault
  | _ => exact harmless_plain barred rfl

theorem guards_branch (barred : Barred bad) (tidy : Tidy bad memory stack) (takes : takesPlain stack = false)
    {v : Value} (harmless : v.Harmless bad) (consequence : Block) (alternative : Option Block) (scope : FrameId) :
    (Machine.branch v consequence alternative scope stack memory).Guards bad := by
  have chosen : Tidy bad memory (.chosen :: stack) := tidy.push .chosen trivial takes
  unfold Machine.branch
  split
  · exact guards_give barred tidy harmless
  · split
    · exact guards_enter barred chosen rfl _ _
    · cases alternative with
      | some block => exact guards_enter barred chosen rfl _ _
      | none => exact guards_give barred tidy (harmless_plain barred rfl)

theorem guards_iterate (barred : Barred bad) (tidy : Tidy bad memory stack) (takes : takesPlain stack = false)
    {v : Value} (harmless : v.Harmless bad) (s : Stmt) (body : Block) (scope : FrameId) :
    (Machine.iterate v s body scope stack memory).Guards bad := by
  unfold Machine.iterate
  split
  · exact guards_give barred tidy harmless
  · split
    · exact ⟨tidy.push (.again s scope) trivial takes, rfl⟩
    · exact guards_give barred tidy (harmless_plain barred rfl)

/-- What a task that waits for the value of an expression does with one. -/
theorem guards_resume_plain (barred : Barred bad) {task : Task} (tidy : Tidy bad memory (task :: stack))
    (plain : task.takesPlain = true) {v : Value} (harmless : v.Harmless bad) (setting : Setting) :
    (Machine.resume setting v task stack memory).Guards bad := by
  have below : Tidy bad memory stack := tidy.pop
  have takes : takesPlain stack = task.givesPlain := tidy.fits.1
  have conclude : ∀ outcome,
      Machine.Guards bad ⟨(memory.conclude outcome).2, .give (memory.conclude outcome).1, stack⟩ := by
    intro outcome
    have concluded : Tidy bad (memory.conclude outcome).2 stack :=
      below.remember (by rw [store_conclude]; exact tidy.store)
    exact guards_give barred concluded (harmless_conclude barred memory outcome)
  cases task with
  | operand op =>
    simp only [Machine.resume]
    split
    · exact guards_give barred below harmless
    · exact conclude _
  | left op e scope =>
    simp only [Machine.resume]
    split
    · exact guards_give barred below harmless
    · exact ⟨below.push (.right op v) trivial takes, rfl⟩
  | right op left =>
    simp only [Machine.resume]
    split
    · exact guards_give barred below harmless
    · exact conclude _
  | argument callee ready rest scope =>
    simp only [Machine.resume]
    split
    · exact guards_give barred below harmless
    · next faultless =>
      refine guards_argue barred below takes setting callee ?_ rest scope
      intro w member
      rcases List.mem_append.mp member with before | last
      · exact tidy.ready _ List.mem_cons_self w before
      · rw [List.mem_singleton.mp last]
        exact harmless (Bool.eq_false_iff.mpr faultless)
  | settle use s scope =>
    simp only [Machine.resume]
    split
    · exact guards_give barred below harmless
    · next faultless =>
      have good := harmless (Bool.eq_false_iff.mpr faultless)
      exact guards_statement (below.remember (free_use tidy.store good use scope)) takes
        (harmless_payload_use barred good use scope)
  | choose s consequence alternative scope =>
    exact guards_branch barred below takes harmless consequence alternative scope
  | test s body scope => exact guards_iterate barred below takes harmless s body scope
  | leave | chosen | again _ _ | sequence _ _ | script _ _ => cases plain

/-- What a task that waits for the end of a statement does with its value. -/
theorem guards_resume_statement (barred : Barred bad) {task : Task} (tidy : Tidy bad memory (task :: stack))
    (statement : task.takesPlain = false) {v : Value} (harmless : v.payload.Harmless bad) (setting : Setting) :
    (Machine.resume setting v task stack memory).Guards bad := by
  have below : Tidy bad memory stack := tidy.pop
  have takes : takesPlain stack = task.givesPlain := tidy.fits.1
  cases task with
  | leave =>
    have left : Tidy bad memory.leaveCall stack := below.remember tidy.store
    exact guards_give barred left (harmless_leaveWith barred harmless)
  | chosen =>
    simp only [Machine.resume]
    split
    · exact guards_statement below takes harmless
    · exact guards_give barred below (harmless_plain barred rfl)
  | again s scope =>
    simp only [Machine.resume]
    split
    · exact guards_statement below takes harmless
    · exact ⟨below, takes⟩
  | sequence rest scope =>
    simp only [Machine.resume]
    split
    · next s rest _ => exact ⟨below.push (.sequence rest scope) trivial takes, rfl⟩
    · exact guards_statement below takes harmless
  | script rest scope =>
    simp only [Machine.resume]
    split
    · exact guards_give barred below harmless
    · exact guards_fail barred below _
    · next unwrapped _ =>
      refine guards_give barred below ?_
      cases v with
      | returned payload => exact absurd rfl (unwrapped payload)
      | _ => exact harmless
    · next s rest _ _ => exact ⟨below.push (.script rest scope) trivial takes, rfl⟩
  | operand _ | left _ _ _ | right _ _ | argument _ _ _ _ | settle _ _ _ | choose _ _ _ _ | test _ _ _ =>
    cases statement

/-- A step keeps `bad` values away. -/
theorem guards_next (barred : Barred bad) {m : Machine} (guards : m.Guards bad) (setting : Setting) :
    (m.next setting).Guards bad := by
  obtain ⟨memory, focus, stack⟩ := m
  obtain ⟨tidy, fits⟩ := guards
  cases focus with
  | evaluate e scope => exact guards_evaluate barred tidy fits setting e scope
  | execute s scope => exact guards_execute barred tidy fits s scope
  | give v =>
    cases stack with
    | nil => exact ⟨fits, tidy.store⟩
    | cons task stack =>
      simp only [takesPlain] at fits
      cases plain : task.takesPlain with
      | true =>
        rw [plain] at fits
        exact guards_resume_plain barred tidy plain fits setting
      | false =>
        rw [plain] at fits
        exact guards_resume_statement barred tidy plain fits setting

end

end Stepwise
