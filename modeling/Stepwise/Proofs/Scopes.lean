import Stepwise.Proofs.Frames

/-!
Scopes are frames of the store. Frames are never removed, and a run only works in frames that were
there at its beginning or that it has made itself (`placed_next`, `placed_trail`).
-/
namespace Stepwise

/-! ## How many frames there are -/

theorem size_set (s : Store) (f : FrameId) (name : String) (v : Value) :
    (s.set f name v).frames.size = s.frames.size := by
  simp [Store.set]

theorem size_enclose (m : Memory) (scope : FrameId) :
    (m.enclose scope).1.store.frames.size = m.store.frames.size + 1 ∧ (m.enclose scope).2 = m.store.frames.size := by
  simp [Memory.enclose, Store.enclose, Store.push, Store.next]

theorem size_setEach (s : Store) (f : FrameId) (bindings : List (String × Value)) :
    (s.setEach f bindings).frames.size = s.frames.size := by
  induction bindings generalizing s with
  | nil => rfl
  | cons b rest ih => rw [Store.setEach, ih, size_set]

theorem size_define (s : Store) (f : FrameId) (function : Function) :
    (s.define f function).frames.size = s.frames.size := by
  simp [Store.define]

/-! ## Scopes of a run -/

/-- The scope that a task goes on in. -/
def Task.scope? : Task → Option FrameId
  | left _ _ scope | argument _ _ _ scope | settle _ _ scope | choose _ _ _ scope => some scope
  | test _ _ scope | again _ scope | sequence _ scope | script _ scope => some scope
  | operand _ | right _ _ | leave | chosen => none

/-- The scope that the machine works in. -/
def Focus.scope? : Focus → Option FrameId
  | evaluate _ scope | execute _ scope => some scope
  | give _ => none

/-- All scopes of the tasks are among the first `n` frames. -/
def Placed (n : Nat) (stack : List Task) : Prop :=
  ∀ task ∈ stack, ∀ f ∈ task.scope?, f < n

/-- The machine works in frames that are there. -/
structure Machine.Placed (m : Machine) : Prop where
  focus : ∀ f ∈ m.focus.scope?, f < m.memory.store.frames.size
  stack : Stepwise.Placed m.memory.store.frames.size m.stack

/-- Behind a move the scopes are frames that are there. -/
def Move.Placed : Move → Prop
  | step m | pause _ m | print _ m => m.Placed
  | ask _ w => Stepwise.Placed w.memory.store.frames.size w.stack
  | halt _ _ => True

section

variable {setting : Setting} {memory : Memory} {stack : List Task}

theorem Placed.mono {n k : Nat} (placed : Placed n stack) (le : n ≤ k) : Placed k stack :=
  fun task member f scope => Nat.lt_of_lt_of_le (placed task member f scope) le

theorem Placed.push {n : Nat} (placed : Placed n stack) {task : Task} (inside : ∀ f ∈ task.scope?, f < n) :
    Placed n (task :: stack) :=
  List.forall_mem_cons.mpr ⟨inside, placed⟩

theorem placed_give {n : Nat} (placed : Placed n stack) (same : memory.store.frames.size = n) (v : Value) :
    Machine.Placed ⟨memory, .give v, stack⟩ := by
  subst same
  exact ⟨by rintro f ⟨⟩, placed⟩

theorem placed_enter {n : Nat} (placed : Placed n stack) (same : memory.store.frames.size = n) {scope : FrameId}
    (inside : scope < n) (statements : List Stmt) : (Machine.enter statements scope stack memory).Placed := by
  refine placed_give (placed.push ?_) same .null
  rintro f ⟨⟩
  exact inside

theorem placed_apply (placed : Placed memory.store.frames.size stack) (callee : Callee) (arguments : List Value)
    (scope : FrameId) : (Machine.apply setting callee arguments scope stack memory).Placed := by
  have give := placed_give placed rfl
  cases callee with
  | function g =>
    simp only [Machine.apply]
    split
    · exact give _
    · split
      · exact give _
      · obtain ⟨size, inner⟩ := size_enclose memory scope
        have bound := (size_setEach (memory.enclose scope).1.store (memory.enclose scope).2
          (g.parameters.zip arguments)).trans size
        refine placed_enter ((placed.mono (Nat.le_succ _)).push (by rintro f ⟨⟩)) bound ?_ _
        rw [inner]
        exact Nat.lt_succ_self _
  | builtin b =>
    cases b with
    | println =>
      simp only [Machine.apply]
      split <;> exact give _
    | input =>
      simp only [Machine.apply]
      split
      · exact placed
      · exact give _
    | native g => exact placed

theorem placed_argue (placed : Placed memory.store.frames.size stack) (callee : Callee) (ready : List Value)
    (rest : List Expr) {scope : FrameId} (inside : scope < memory.store.frames.size) :
    (Machine.argue setting callee ready rest scope stack memory).Placed := by
  have here : ∀ f ∈ some scope, f < memory.store.frames.size := by simpa using inside
  cases rest with
  | nil => exact placed_apply placed callee ready scope
  | cons e rest => exact ⟨here, placed.push here⟩

theorem placed_evaluate (placed : Placed memory.store.frames.size stack) (e : Expr) {scope : FrameId}
    (inside : scope < memory.store.frames.size) : (Machine.evaluate setting e scope stack memory).Placed := by
  have here : ∀ f ∈ some scope, f < memory.store.frames.size := by simpa using inside
  cases e with
  | number x => exact placed_give placed rfl _
  | bool b => exact placed_give placed rfl _
  | string text =>
    have same := store_adopt memory (.string text)
    exact placed_give placed (congrArg (fun s => s.frames.size) same) _
  | name name =>
    have same := store_lookup memory setting scope name
    exact placed_give placed (congrArg (fun s => s.frames.size) same) _
  | unary op operand => exact ⟨here, placed.push (by rintro f ⟨⟩)⟩
  | binary left op right => exact ⟨here, placed.push here⟩
  | call function arguments =>
    have same := store_callee memory setting scope function
    simp only [Machine.evaluate]
    generalize memory.callee setting function scope = found at same ⊢
    obtain ⟨callee, memory'⟩ := found
    have size : memory'.store.frames.size = memory.store.frames.size := congrArg (fun s => s.frames.size) same
    cases callee with
    | error fault => exact placed_give placed size _
    | ok callee =>
      rw [← size] at placed inside
      exact placed_argue placed callee [] arguments inside

theorem placed_execute (placed : Placed memory.store.frames.size stack) (s : Stmt) {scope : FrameId}
    (inside : scope < memory.store.frames.size) : (Machine.execute s scope stack memory).Placed := by
  have here : ∀ f ∈ some scope, f < memory.store.frames.size := by simpa using inside
  obtain ⟨size, inner⟩ := size_enclose memory scope
  have opened : ∀ f ∈ some (memory.enclose scope).2, f < memory.store.frames.size + 1 := by
    rintro f ⟨⟩
    rw [inner]
    exact Nat.lt_succ_self _
  have below := placed.mono (Nat.le_succ _)
  cases s with
  | declare position name type value =>
    cases value with
    | none => exact placed_give placed (size_set _ _ _ _) _
    | some e => exact ⟨here, placed.push here⟩
  | block body => exact placed_enter below size (opened _ rfl) _
  | branch position condition consequence alternative =>
    refine ⟨?_, ?_⟩
    · show ∀ f ∈ some (memory.enclose scope).2, f < (memory.enclose scope).1.store.frames.size
      rw [size]
      exact opened
    · show Placed (memory.enclose scope).1.store.frames.size _
      rw [size]
      exact below.push opened
  | define position name parameters body => exact placed_give placed (size_define _ _ _) _
  | assign | giveBack | evaluate | loop => exact ⟨here, placed.push here⟩

theorem size_use (v : Value) (use : Use) (scope : FrameId) :
    (memory.use scope v use).2.store.frames.size = memory.store.frames.size := by
  cases use with
  | declare name type =>
    simp only [Memory.use]
    split
    · exact size_set _ _ _ _
    · rfl
  | assign name =>
    simp only [Memory.use]
    split
    · exact size_set _ _ _ _
    · rfl
  | giveBack | discard => rfl

theorem placed_resume {task : Task} (placed : Placed memory.store.frames.size (task :: stack)) (v : Value) :
    (Machine.resume setting v task stack memory).Placed := by
  obtain ⟨here, below⟩ := List.forall_mem_cons.mp placed
  have give (v : Value) : Machine.Placed ⟨memory, .give v, stack⟩ := placed_give below rfl v
  have conclude (outcome : Except Fault Primitive) :
      Machine.Placed ⟨(memory.conclude outcome).2, .give (memory.conclude outcome).1, stack⟩ :=
    placed_give below (congrArg (fun s => s.frames.size) (store_conclude memory outcome)) _
  cases task with
  | operand op =>
    simp only [Machine.resume]
    split
    · exact give v
    · exact conclude _
  | left op e scope =>
    simp only [Machine.resume]
    split
    · exact give v
    · exact ⟨here, Placed.push below (by rintro f ⟨⟩)⟩
  | right op left =>
    simp only [Machine.resume]
    split
    · exact give v
    · exact conclude _
  | argument callee ready rest scope =>
    simp only [Machine.resume]
    split
    · exact give v
    · exact placed_argue below callee _ rest (here scope rfl)
  | leave =>
    have left : Placed memory.leaveCall.store.frames.size stack := below
    exact placed_give left rfl _
  | settle use s scope =>
    simp only [Machine.resume]
    cases v.isError with
    | true => exact give v
    | false => exact placed_give below (size_use v use scope) _
  | choose s consequence alternative scope =>
    have chosen : Placed memory.store.frames.size (.chosen :: stack) := Placed.push below (by rintro f ⟨⟩)
    show (Machine.branch v consequence alternative scope stack memory).Placed
    unfold Machine.branch
    split
    · exact give v
    · split
      · exact placed_enter chosen rfl (here scope rfl) _
      · cases alternative with
        | some block => exact placed_enter chosen rfl (here scope rfl) _
        | none => exact give .null
  | chosen => exact give _
  | test s body scope =>
    show (Machine.iterate v s body scope stack memory).Placed
    unfold Machine.iterate
    split
    · exact give v
    · split
      · exact ⟨here, Placed.push below here⟩
      · exact give .null
  | again s scope =>
    simp only [Machine.resume]
    split
    · exact give v
    · exact ⟨here, below⟩
  | sequence rest scope =>
    simp only [Machine.resume]
    split
    · exact ⟨here, Placed.push below here⟩
    · exact give v
  | script rest scope =>
    simp only [Machine.resume]
    split
    · exact give _
    · exact give _
    · exact give _
    · exact ⟨here, Placed.push below here⟩

/-- A step goes on in frames that are there. -/
theorem placed_next {m : Machine} (placed : m.Placed) (setting : Setting) : (m.next setting).Placed := by
  obtain ⟨memory, focus, stack⟩ := m
  obtain ⟨here, below⟩ := placed
  cases focus with
  | evaluate e scope => exact placed_evaluate below e (here scope rfl)
  | execute s scope => exact placed_execute below s (here scope rfl)
  | give v =>
    cases stack with
    | nil => trivial
    | cons task stack => exact placed_resume below v

end

/-! ## Runs -/

section

variable {σ ι : Type} {host : Host σ ι} {setting : Setting}

/-- A run in frames that are there, be it under way or waiting for an answer. -/
def Progress.Placed : Progress ι → Prop
  | running m => m.Placed
  | waiting _ w => Stepwise.Placed w.memory.store.frames.size w.stack

theorem placed_start {memory : Memory} {scope : FrameId} (inside : scope < memory.store.frames.size)
    (script : List Stmt) : (Progress.running (ι := ι) (.start memory script scope)).Placed := by
  refine ⟨by rintro f ⟨⟩, List.forall_mem_singleton.mpr ?_⟩
  rintro f ⟨⟩
  exact inside

theorem placed_receive {w : Waiting} (placed : Placed w.memory.store.frames.size w.stack) (a : Answer) :
    (w.resume a).Placed := by
  cases a with
  | nothing => exact placed_give placed rfl _
  | data p => exact placed_give placed (congrArg (fun s => s.frames.size) (store_adopt w.memory p)) _
  | value v => cases v <;> exact placed_give placed rfl _

theorem placed_stride {state : σ} {p : Progress ι} (placed : p.Placed) :
    (p.stride host setting state).result.Holds (fun _ q => q.Placed) (fun _ _ _ => True)
      (p.stride host setting state).state := by
  cases p with
  | running m =>
    have next := placed_next placed setting
    simp only [Progress.stride]
    cases leads : m.next setting with
    | halt v memory => trivial
    | _ => rw [leads] at next; exact next
  | waiting job w =>
    simp only [Progress.stride]
    cases (host.poll state job).result with
    | ready a => exact placed_receive placed a
    | pending job' wakes => exact placed

/-- A run works in frames that are there. -/
theorem placed_trail (host : Host σ ι) (setting : Setting) (state : σ) {p : Progress ι} (placed : p.Placed) (n : Nat) :
    (p.trail host setting n state).standing.Holds (fun _ q => q.Placed) fun _ _ _ => True :=
  holds_trail (P := fun _ q => q.Placed) placed (fun _ _ _ _ placed => placed_stride placed) n

end

end Stepwise
