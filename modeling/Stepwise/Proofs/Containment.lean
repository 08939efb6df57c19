import Stepwise.Proofs.Bindings
import Stepwise.Rehearsal.Host

/-!
Scopes contain their declarations. What a statement may add to a frame that was there before it is
the name it declares itself or the function it defines itself, in the frame it is executed in; an
expression adds nothing (`scopes_contain`). All the rest a statement does in frames that it has
opened: the tasks it has left on the stack declare and define in no others (`within_next`).
-/
namespace Stepwise

/-! ## What may be added -/

/-- The name that a statement declares. -/
def Stmt.declared? : Stmt → Option String
  | declare _ name _ _ => some name
  | _ => none

/-- The name of the function that a statement defines. -/
def Stmt.defined? : Stmt → Option String
  | define _ name _ _ => some name
  | _ => none

/-- What a part of a script may add to the frames that were there before it: names, and functions. -/
structure Allowance where
  names : FrameId → String → Prop
  functions : FrameId → String → Prop

/-- Nothing may be added. -/
def Allowance.nothing : Allowance :=
  ⟨fun _ _ => False, fun _ _ => False⟩

/-- What a statement may add: to its own scope what it declares or defines itself. -/
def Stmt.allowance (s : Stmt) (scope : FrameId) : Allowance :=
  ⟨fun f name => f = scope ∧ s.declared? = some name, fun f name => f = scope ∧ s.defined? = some name⟩

/-- From one store to another, nothing but what is allowed has been added to the first `n` frames, and
    no name has been removed. -/
structure Store.Grows (a : Allowance) (n : Nat) (old new : Store) : Prop where
  kept : ∀ f < n, ∀ name, (old.bindings f).contains name = true → (new.bindings f).contains name = true
  gained : ∀ f < n, ∀ name, (new.bindings f).contains name = true →
    (old.bindings f).contains name = true ∨ a.names f name
  defined : ∀ f < n, ∀ name, (new.functions f).get? name = (old.functions f).get? name ∨ a.functions f name
  untouched : ∀ f < n, (∀ name, ¬ a.functions f name) → new.functions f = old.functions f

section

variable {a : Allowance} {n : Nat} {s : Store} {f g : FrameId}

theorem grows_refl (a : Allowance) (n : Nat) (s : Store) : s.Grows a n s :=
  ⟨fun _ _ _ bound => bound, fun _ _ _ bound => .inl bound, fun _ _ _ => .inl rfl, fun _ _ _ => rfl⟩

theorem Store.Grows.trans {first second third : Store} (one : first.Grows a n second)
    (two : second.Grows a n third) : first.Grows a n third := by
  refine ⟨fun f old name bound => two.kept f old name (one.kept f old name bound), ?_, ?_, ?_⟩
  · intro f old name bound
    rcases two.gained f old name bound with before | allowed
    · exact one.gained f old name before
    · exact .inr allowed
  · intro f old name
    rcases two.defined f old name with same | allowed
    · rw [same]
      exact one.defined f old name
    · exact .inr allowed
  · intro f old none
    rw [two.untouched f old none, one.untouched f old none]

theorem grows_of_keeps {new : Store} (a : Allowance) (keeps : s.Keeps new) (le : n ≤ s.frames.size) :
    s.Grows a n new := by
  have same (f : FrameId) (old : f < n) : new.bindings f = s.bindings f ∧ new.functions f = s.functions f := by
    have found := Array.getElem?_eq_getElem (Nat.lt_of_lt_of_le old le)
    have later := keeps f _ found
    simp only [Store.bindings, Store.functions, found, later, and_self]
  refine ⟨?_, ?_, ?_, ?_⟩
  · intro f old name bound
    rwa [(same f old).1]
  · intro f old name bound
    rw [(same f old).1] at bound
    exact .inl bound
  · intro f old name
    rw [(same f old).2]
    exact .inl rfl
  · exact fun f old _ => (same f old).2

theorem functions_set (s : Store) (f g : FrameId) (name : String) (v : Value) :
    (s.set f name v).functions g = s.functions g := by
  simp only [Store.functions, Store.set, Array.getElem?_modify]
  by_cases same : f = g
  · rw [if_pos same]
    cases s.frames[g]? <;> rfl
  · rw [if_neg same]

theorem functions_define (s : Store) (f g : FrameId) (function : Function) :
    (s.define f function).functions g = s.functions g ∨
      f = g ∧ (s.define f function).functions g = (s.functions g).insert function.name function := by
  simp only [Store.functions, Store.define, Array.getElem?_modify]
  by_cases same : f = g
  · rw [if_pos same]
    cases s.frames[g]? with
    | none => exact .inl rfl
    | some frame => exact .inr ⟨same, rfl⟩
  · rw [if_neg same]
    exact .inl rfl

/-- Binding a name adds nothing, if it is bound in that frame already or may be added, or if the frame
    is a later one. -/
theorem grows_set {name : String}
    (allowed : n ≤ f ∨ (s.bindings f).contains name = true ∨ a.names f name) (v : Value) :
    s.Grows a n (s.set f name v) := by
  refine ⟨?_, ?_, fun g _ wanted => .inl (by rw [functions_set]), fun g _ _ => functions_set s f g name v⟩
  · intro g old wanted bound
    rcases bindings_set s f g name v with same | more
    · rwa [same]
    · rw [more, Table.contains, Table.get?_insert]
      split
      · rfl
      · exact bound
  · intro g old wanted bound
    by_cases here : f = g
    · subst here
      rcases bindings_set s f f name v with same | more
      · rw [same] at bound
        exact .inl bound
      · rw [more, Table.contains, Table.get?_insert] at bound
        by_cases named : wanted = name
        · subst named
          rcases allowed with later | allowed
          · omega
          · exact allowed
        · rw [if_neg named] at bound
          exact .inl bound
    · rw [bindings_set_ne here] at bound
      exact .inl bound

/-- Defining a function adds nothing, if it may be added or if the frame is a later one. -/
theorem grows_define {function : Function} (allowed : n ≤ f ∨ a.functions f function.name) :
    s.Grows a n (s.define f function) := by
  refine ⟨?_, ?_, ?_, ?_⟩
  · intro g old name bound
    rwa [bindings_define]
  · intro g old name bound
    rw [bindings_define] at bound
    exact .inl bound
  · intro g old name
    rcases functions_define s f g function with same | ⟨rfl, more⟩
    · exact .inl (by rw [same])
    · rw [more, Table.get?_insert]
      by_cases named : name = function.name
      · subst named
        exact .inr (allowed.resolve_left (by omega))
      · exact .inl (if_neg named)
  · intro g old none
    rcases functions_define s f g function with same | ⟨rfl, -⟩
    · exact same
    · exact absurd (allowed.resolve_left (by omega)) (none _)

end

/-! ## What is on the stack -/

/-- A stack on top of another, with tasks of some kind in between. -/
def Above (P : Task → Prop) (base stack : List Task) : Prop :=
  ∃ above, stack = above ++ base ∧ ∀ task ∈ above, P task

section

variable {P : Task → Prop} {base stack : List Task} {task : Task}

theorem above_refl (P : Task → Prop) (base : List Task) : Above P base base :=
  ⟨[], rfl, nofun⟩

theorem Above.push (above : Above P base stack) (holds : P task) : Above P base (task :: stack) := by
  obtain ⟨tasks, rfl, all⟩ := above
  exact ⟨task :: tasks, rfl, List.forall_mem_cons.mpr ⟨holds, all⟩⟩

theorem Above.pop (above : Above P base (task :: stack)) (more : task :: stack ≠ base) : P task ∧ Above P base stack := by
  obtain ⟨tasks, same, all⟩ := above
  cases tasks with
  | nil => exact absurd same more
  | cons first rest =>
    obtain ⟨rfl, rfl⟩ := List.cons.inj same
    obtain ⟨holds, below⟩ := List.forall_mem_cons.mp all
    exact ⟨holds, rest, rfl, below⟩

end

/-- A statement adds no more to the first `n` frames than is allowed. -/
def Stmt.Within (a : Allowance) (n : Nat) (s : Stmt) (scope : FrameId) : Prop :=
  n ≤ scope ∨ (∀ name, s.declared? = some name → a.names scope name) ∧
    ∀ name, s.defined? = some name → a.functions scope name

/-- A task adds no more to the first `n` frames than is allowed. -/
def Task.Within (a : Allowance) (n : Nat) : Task → Prop
  | settle (.declare name _) _ scope => n ≤ scope ∨ a.names scope name
  | choose _ _ _ scope | sequence _ scope => n ≤ scope
  | test s _ scope | again s scope => s.Within a n scope
  | script _ _ => False
  | _ => True

/-- What the machine works on adds no more to the first `n` frames than is allowed. -/
def Focus.Within (a : Allowance) (n : Nat) : Focus → Prop
  | execute s scope => s.Within a n scope
  | _ => True

/-- The machine works on a part of a script in front of `base`, and adds no more to the first `n` frames
    than is allowed. -/
structure Machine.Within (a : Allowance) (n : Nat) (base : List Task) (m : Machine) : Prop where
  size : n ≤ m.memory.store.frames.size
  focus : m.focus.Within a n
  stack : Above (Task.Within a n) base m.stack

/-- Behind a move the part of the script goes on. -/
def Move.Within (a : Allowance) (n : Nat) (base : List Task) : Move → Prop
  | step m | pause _ m | print _ m => m.Within a n base
  | ask _ w => n ≤ w.memory.store.frames.size ∧ Above (Task.Within a n) base w.stack
  | halt _ _ => False

section

variable {a : Allowance} {n : Nat} {base : List Task} {setting : Setting} {memory : Memory} {stack : List Task}

theorem within_give (size : n ≤ memory.store.frames.size) (above : Above (Task.Within a n) base stack) (v : Value) :
    Machine.Within a n base ⟨memory, .give v, stack⟩ :=
  ⟨size, trivial, above⟩

theorem within_enter (size : n ≤ memory.store.frames.size) (above : Above (Task.Within a n) base stack)
    {scope : FrameId} (later : n ≤ scope) (statements : List Stmt) :
    (Machine.enter statements scope stack memory).Within a n base :=
  ⟨size, trivial, above.push later⟩

theorem within_apply (size : n ≤ memory.store.frames.size) (above : Above (Task.Within a n) base stack)
    (callee : Callee) (arguments : List Value) (scope : FrameId) :
    (Machine.apply setting callee arguments scope stack memory).Within a n base := by
  have give := within_give size above
  cases callee with
  | function g =>
    simp only [Machine.apply]
    split
    · exact give _
    · split
      · exact give _
      · obtain ⟨opened, inner⟩ := size_enclose memory scope
        have bound := (size_setEach (memory.enclose scope).1.store (memory.enclose scope).2
          (g.parameters.zip arguments)).trans opened
        have leaving : Above (Task.Within a n) base (.leave :: stack) := above.push trivial
        refine within_enter ?_ leaving ?_ _
        · show n ≤ ((memory.enclose scope).1.store.setEach _ _).frames.size
          omega
        · rw [inner]
          exact size
  | builtin b =>
    cases b with
    | println =>
      simp only [Machine.apply]
      split <;> exact give _
    | input =>
      simp only [Machine.apply]
      split
      · exact ⟨size, above⟩
      · exact give _
    | native g => exact ⟨size, above⟩

theorem within_argue (size : n ≤ memory.store.frames.size) (above : Above (Task.Within a n) base stack)
    (callee : Callee) (ready : List Value) (rest : List Expr) (scope : FrameId) :
    (Machine.argue setting callee ready rest scope stack memory).Within a n base := by
  cases rest with
  | nil => exact within_apply size above callee ready scope
  | cons e rest => exact ⟨size, trivial, above.push trivial⟩

theorem within_evaluate (size : n ≤ memory.store.frames.size) (above : Above (Task.Within a n) base stack) (e : Expr)
    (scope : FrameId) : (Machine.evaluate setting e scope stack memory).Within a n base := by
  cases e with
  | number x => exact within_give size above _
  | bool b => exact within_give size above _
  | string text =>
    have room : n ≤ (memory.adopt (.string text)).2.store.frames.size := by rwa [store_adopt]
    exact within_give room above _
  | name name =>
    have room : n ≤ (memory.lookup setting name scope).2.store.frames.size := by rwa [store_lookup]
    exact within_give room above _
  | unary op operand => exact ⟨size, trivial, above.push trivial⟩
  | binary left op right => exact ⟨size, trivial, above.push trivial⟩
  | call function arguments =>
    have same := store_callee memory setting scope function
    simp only [Machine.evaluate]
    generalize memory.callee setting function scope = found at same ⊢
    obtain ⟨callee, memory'⟩ := found
    obtain same : memory'.store = memory.store := same
    cases callee with
    | error fault => exact within_give (by rwa [same]) above _
    | ok callee => exact within_argue (by rwa [same]) above callee [] arguments scope

theorem within_execute (size : n ≤ memory.store.frames.size) (above : Above (Task.Within a n) base stack) {s : Stmt}
    {scope : FrameId} (within : s.Within a n scope) : (Machine.execute s scope stack memory).Within a n base := by
  obtain ⟨opened, inner⟩ := size_enclose memory scope
  have room : n ≤ (memory.enclose scope).1.store.frames.size := by omega
  have later : n ≤ (memory.enclose scope).2 := inner ▸ size
  cases s with
  | declare position name type value =>
    have allowed : n ≤ scope ∨ a.names scope name := within.imp_right fun both => both.1 name rfl
    cases value with
    | none =>
      refine within_give ?_ above _
      show n ≤ (memory.store.set scope name .null).frames.size
      rwa [size_set]
    | some e => exact ⟨size, trivial, above.push allowed⟩
  | block body => exact within_enter room above later _
  | branch position condition consequence alternative => exact ⟨room, trivial, above.push later⟩
  | loop position condition body => exact ⟨size, trivial, above.push within⟩
  | define position name parameters body =>
    refine within_give ?_ above _
    show n ≤ (memory.store.define scope _).frames.size
    rwa [size_define]
  | assign | giveBack | evaluate => exact ⟨size, trivial, above.push trivial⟩

theorem within_resume (size : n ≤ memory.store.frames.size) (above : Above (Task.Within a n) base stack) {task : Task}
    (within : task.Within a n) (v : Value) : (Machine.resume setting v task stack memory).Within a n base := by
  have give := within_give size above
  have conclude (outcome : Except Fault Primitive) :
      Machine.Within a n base ⟨(memory.conclude outcome).2, .give (memory.conclude outcome).1, stack⟩ :=
    within_give (by rwa [store_conclude]) above _
  cases task with
  | operand op =>
    simp only [Machine.resume]
    split
    · exact give v
    · exact conclude _
  | left op e scope =>
    simp only [Machine.resume]
    split
    · exact give v
    · exact ⟨size, trivial, above.push trivial⟩
  | right op left =>
    simp only [Machine.resume]
    split
    · exact give v
    · exact conclude _
  | argument callee ready rest scope =>
    simp only [Machine.resume]
    split
    · exact give v
    · exact within_argue size above callee _ rest scope
  | leave =>
    have room : n ≤ memory.leaveCall.store.frames.size := size
    exact within_give room above _
  | settle use s scope =>
    simp only [Machine.resume]
    cases v.isError with
    | true => exact give v
    | false =>
      have room : n ≤ (memory.use scope v use).2.store.frames.size := by rwa [size_use]
      exact within_give room above _
  | choose s consequence alternative scope =>
    have chosen : Above (Task.Within a n) base (.chosen :: stack) := above.push trivial
    show (Machine.branch v consequence alternative scope stack memory).Within a n base
    unfold Machine.branch
    split
    · exact give v
    · split
      · exact within_enter size chosen within _
      · cases alternative with
        | some block => exact within_enter size chosen within _
        | none => exact give .null
  | chosen => exact give _
  | test s body scope =>
    show (Machine.iterate v s body scope stack memory).Within a n base
    unfold Machine.iterate
    split
    · exact give v
    · split
      · have block : (Stmt.block body).Within a n scope := .inr ⟨by rintro _ ⟨⟩, by rintro _ ⟨⟩⟩
        exact ⟨size, block, above.push within⟩
      · exact give .null
  | again s scope =>
    simp only [Machine.resume]
    split
    · exact give v
    · exact ⟨size, within, above⟩
  | sequence rest scope =>
    simp only [Machine.resume]
    split
    · exact ⟨size, .inl within, above.push within⟩
    · exact give v
  | script rest scope => exact within.elim

/-- A step of a part of a script that has not given its value yet. -/
theorem within_next {m : Machine} (within : m.Within a n base) (busy : ∀ v, m.focus = .give v → m.stack ≠ base)
    (setting : Setting) : (m.next setting).Within a n base := by
  obtain ⟨memory, focus, stack⟩ := m
  obtain ⟨size, here, above⟩ := within
  cases focus with
  | evaluate e scope => exact within_evaluate size above e scope
  | execute s scope => exact within_execute size above here
  | give v =>
    have more := busy v rfl
    cases stack with
    | nil =>
      obtain ⟨tasks, same, -⟩ := above
      exact absurd (List.append_eq_nil_iff.mp same.symm).2.symm more
    | cons task stack =>
      obtain ⟨task, below⟩ := above.pop more
      exact within_resume size below task v

/-- What such a step adds is allowed. -/
theorem grows_next {m : Machine} (within : m.Within a n base) (busy : ∀ v, m.focus = .give v → m.stack ≠ base)
    (setting : Setting) : m.memory.store.Grows a n (m.next setting).memory.store := by
  have alters := alters_next setting m
  generalize (m.next setting).memory.store = s at alters
  cases alters with
  | @declared f name v declares =>
    refine grows_set ?_ v
    cases declares with
    | typed fits =>
      obtain ⟨task, -⟩ := within.stack.pop (busy _ rfl)
      exact Or.imp_right .inr task
    | empty => exact within.focus.imp_right fun both => .inr (both.1 name rfl)
  | @assigned f name v assigns =>
    refine grows_set ?_ v
    cases assigns with
    | mk found =>
      obtain ⟨old, binds, -⟩ := binds_slot found
      exact .inr (.inl (by rw [Table.contains, show _ = some old from binds]; rfl))
  | @defined f function defines =>
    refine grows_define ?_
    cases defines with
    | mk => exact within.focus.imp_right fun both => both.2 _ rfl
  | kept keeps => exact grows_of_keeps a keeps within.size

end

/-! ## Runs -/

section

variable {σ ι : Type} {host : Host σ ι} {setting : Setting} {a : Allowance} {n : Nat} {base : List Task} {state : σ}

/-- For `k` steps a part of a script has not given its value to the rest of the stack. -/
def Progress.Busy (host : Host σ ι) (setting : Setting) (base : List Task) (k : Nat) (state : σ) (p : Progress ι) :
    Prop :=
  ∀ j < k, ∀ state' memory v,
    (p.trail host setting j state).standing ≠ .underway state' (.running ⟨memory, .give v, base⟩)

/-- A run of a part of a script adds no more to the first `n` frames than is allowed, be it under way or
    waiting for an answer. -/
def Progress.Within (a : Allowance) (n : Nat) (base : List Task) : Progress ι → Prop
  | running m => m.Within a n base
  | waiting _ w => n ≤ w.memory.store.frames.size ∧ Above (Task.Within a n) base w.stack

theorem within_receive {w : Waiting} (size : n ≤ w.memory.store.frames.size)
    (above : Above (Task.Within a n) base w.stack) (answer : Answer) : (w.resume answer).Within a n base := by
  cases answer with
  | nothing => exact within_give size above _
  | data p =>
    have room : n ≤ (w.memory.adopt p).2.store.frames.size := by rwa [store_adopt]
    exact within_give room above _
  | value v => cases v <;> exact within_give size above _

/-- A part of a script that is under way after a step, having added no more than is allowed since. -/
inductive Standing.Within (a : Allowance) (n : Nat) (base : List Task) (old : Store) : Standing σ ι → Prop where
  | underway {state : σ} {p : Progress ι} (within : p.Within a n base) (grows : old.Grows a n p.memory.store) :
      Within a n base old (.underway state p)

/-- One step of a part of a script that has not given its value yet. -/
theorem within_step {p : Progress ι} (within : p.Within a n base)
    (busy : ∀ memory v, p ≠ .running ⟨memory, .give v, base⟩) (host : Host σ ι) (setting : Setting) (state : σ) :
    (p.trail host setting 1 state).standing.Within a n base p.memory.store := by
  cases p with
  | running m =>
    have unfinished : ∀ v, m.focus = .give v → m.stack ≠ base := by
      obtain ⟨memory, focus, stack⟩ := m
      rintro v rfl rfl
      exact busy memory v rfl
    have next := within_next within unfinished setting
    have grows := grows_next within unfinished setting
    simp only [Progress.trail, Progress.stride]
    cases leads : m.next setting with
    | halt v memory =>
      rw [leads] at next
      exact next.elim
    | _ =>
      rw [leads] at next grows
      exact .underway next grows
  | waiting job w =>
    obtain ⟨size, above⟩ := within
    simp only [Progress.trail, Progress.stride]
    cases (host.poll state job).result with
    | ready answer =>
      refine .underway (within_receive size above answer) ?_
      rw [show (Progress.running (ι := ι) (w.resume answer)).memory.store = w.memory.store from store_receive w answer]
      exact grows_refl a n _
    | pending job' wakes => exact .underway ⟨size, above⟩ (grows_refl a n _)

/-- A part of a script adds no more to the frames there were before it than it may. -/
theorem within_trail {p : Progress ι} (within : p.Within a n base) {k : Nat}
    (busy : p.Busy host setting base k state) :
    (p.trail host setting k state).standing.Within a n base p.memory.store := by
  induction k with
  | zero => exact .underway within (grows_refl a n _)
  | succ k ih =>
    have before := ih fun j less => busy j (Nat.lt_succ_of_lt less)
    have here := busy k (Nat.lt_succ_self k)
    rw [standing_add]
    generalize (p.trail host setting k state).standing = stands at before here
    cases before with
    | @underway state' q within grows =>
      have unfinished : ∀ memory v, q ≠ .running ⟨memory, .give v, base⟩ := by
        rintro memory v rfl
        exact here state' memory v rfl
      have step := within_step within unfinished host setting state'
      rw [Standing.trail]
      generalize (q.trail host setting 1 state').standing = stands at step
      cases step with
      | underway within' grows' => exact .underway within' (grows.trans grows')

theorem grows_trail {p : Progress ι} (within : p.Within a n base) {k : Nat}
    (busy : p.Busy host setting base k state) :
    p.memory.store.Grows a n (p.trail host setting k state).standing.memory.store := by
  have stands := within_trail within busy
  generalize (p.trail host setting k state).standing = standing at stands
  cases stands with
  | underway within grows => exact grows

end

/-! ## Scopes -/

/-- A frame binds the same names, and has the same functions. -/
structure Store.SameScope (f : FrameId) (old new : Store) : Prop where
  names : ∀ name, (new.bindings f).contains name = (old.bindings f).contains name
  functions : new.functions f = old.functions f

/-- A frame binds the same names, and has the same functions, but for the name that a statement declares
    or the function that it defines. -/
structure Store.Gains (s : Stmt) (f : FrameId) (old new : Store) : Prop where
  kept : ∀ name, (old.bindings f).contains name = true → (new.bindings f).contains name = true
  gained : ∀ name, (new.bindings f).contains name = true →
    (old.bindings f).contains name = true ∨ s.declared? = some name
  defined : ∀ name, s.defined? ≠ some name → (new.functions f).get? name = (old.functions f).get? name
  untouched : s.defined? = none → new.functions f = old.functions f

theorem sameScope_of_grows {a : Allowance} {n : Nat} {old new : Store} {f : FrameId} (grows : old.Grows a n new)
    (inside : f < n) (nameless : ∀ name, ¬ a.names f name) (functionless : ∀ name, ¬ a.functions f name) :
    old.SameScope f new := by
  refine ⟨fun name => ?_, grows.untouched f inside functionless⟩
  rw [Bool.eq_iff_iff]
  constructor
  · intro bound
    exact (grows.gained f inside name bound).resolve_right (nameless name)
  · exact grows.kept f inside name

section

variable {σ ι : Type} (host : Host σ ι) (setting : Setting) (state : σ) (memory : Memory) (stack : List Task)

/-- What is remembered after some steps of a part of a script. -/
def storeAfter (focus : Focus) (k : Nat) : Store :=
  ((Progress.running ⟨memory, focus, stack⟩).trail host setting k state).standing.memory.store

/-- From its first step until it has given its value, in whatever way that comes about, a statement adds
    to its own scope at most the name it declares itself or the function it defines itself, and no name
    or function to any other frame that was there before. The same goes for an expression, which adds
    to no frame. -/
structure ScopesContain : Prop where
  own : ∀ s scope k, (Progress.running ⟨memory, .execute s scope, stack⟩).Busy host setting stack k state →
    scope < memory.store.frames.size →
      memory.store.Gains s scope (storeAfter host setting state memory stack (.execute s scope) k)
  other : ∀ s scope k, (Progress.running ⟨memory, .execute s scope, stack⟩).Busy host setting stack k state →
    ∀ f < memory.store.frames.size, f ≠ scope →
      memory.store.SameScope f (storeAfter host setting state memory stack (.execute s scope) k)
  expression : ∀ e scope k, (Progress.running ⟨memory, .evaluate e scope, stack⟩).Busy host setting stack k state →
    ∀ f < memory.store.frames.size,
      memory.store.SameScope f (storeAfter host setting state memory stack (.evaluate e scope) k)

/-- Scopes contain what is declared and defined in them. -/
theorem scopes_contain : ScopesContain host setting state memory stack := by
  have statement (s : Stmt) (scope : FrameId) : Progress.Within (ι := ι) (s.allowance scope) memory.store.frames.size
      stack (.running ⟨memory, .execute s scope, stack⟩) :=
    ⟨Nat.le_refl _, .inr ⟨fun _ named => ⟨rfl, named⟩, fun _ named => ⟨rfl, named⟩⟩, above_refl _ stack⟩
  constructor
  case own =>
    intro s scope k busy inside
    have grows := grows_trail (statement s scope) busy
    refine ⟨grows.kept scope inside, fun name bound => ?_, fun name other => ?_, fun none => ?_⟩
    · exact (grows.gained scope inside name bound).imp_right And.right
    · exact (grows.defined scope inside name).resolve_right fun allowed => other allowed.2
    · exact grows.untouched scope inside fun name allowed => by cases none.symm.trans allowed.2
  case other =>
    intro s scope k busy f inside different
    have grows := grows_trail (statement s scope) busy
    exact sameScope_of_grows grows inside (fun _ allowed => different allowed.1) fun _ allowed => different allowed.1
  case expression =>
    intro e scope k busy f inside
    have within : Progress.Within (ι := ι) .nothing memory.store.frames.size stack
        (.running ⟨memory, .evaluate e scope, stack⟩) := ⟨Nat.le_refl _, trivial, above_refl _ stack⟩
    exact sameScope_of_grows (grows_trail within busy) inside (fun _ => id) fun _ => id

end

/-- A block that declares a name, from its first step to its last. -/
theorem scopes_contain_of_block :
    Memory.start.1.store.Gains (.block (.mk ⟨1, 1, 0⟩ [.declare ⟨1, 3, 2⟩ "x" .number none])) Memory.start.2
      (storeAfter Rehearsal.host ⟨1000, .empty⟩ (.start none) Memory.start.1 []
        (.execute (.block (.mk ⟨1, 1, 0⟩ [.declare ⟨1, 3, 2⟩ "x" .number none])) Memory.start.2) 4) := by
  refine (scopes_contain Rehearsal.host ⟨1000, .empty⟩ (.start none) Memory.start.1 []).own _ _ 4 ?_ (by decide)
  intro j less state memory v ended
  match j, less with
  | 0, _ | 1, _ | 2, _ | 3, _ => cases ended

end Stepwise
