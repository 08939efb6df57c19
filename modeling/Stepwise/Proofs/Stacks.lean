import Stepwise.Proofs.Trail

/-!
What lies below the stack of a run. A step looks at no task but the topmost (`next_onto`), so a run goes
the same way with more tasks below, and once it would come to its end, they get its value
(`trail_onto`).
-/
namespace Stepwise

/-! ## Steps -/

/-- A machine with more tasks below its stack. -/
def Machine.onto (base : List Task) (m : Machine) : Machine :=
  ⟨m.memory, m.focus, m.stack ++ base⟩

/-- A waiting run with more tasks below its stack. -/
def Waiting.onto (base : List Task) (w : Waiting) : Waiting :=
  ⟨w.memory, w.stack ++ base⟩

/-- A step that does not end the run, without and with more tasks below its stack. -/
inductive Move.Onto (base : List Task) : Move → Move → Prop where
  | step (m : Machine) : Onto base (.step m) (.step (m.onto base))
  | pause (c : Checkpoint) (m : Machine) : Onto base (.pause c m) (.pause c (m.onto base))
  | print (p : Primitive) (m : Machine) : Onto base (.print p m) (.print p (m.onto base))
  | ask (r : Request) (w : Waiting) : Onto base (.ask r w) (.ask r (w.onto base))

/-- A machine that has nothing left to do but to hand out its value. -/
def Machine.Done (m : Machine) : Prop :=
  ∃ memory v, m = ⟨memory, .give v, []⟩

section

variable (base : List Task) (setting : Setting) (stack : List Task) (memory : Memory)

theorem apply_onto (callee : Callee) (arguments : List Value) (scope : FrameId) :
    Move.Onto base (Machine.apply setting callee arguments scope stack memory)
      (Machine.apply setting callee arguments scope (stack ++ base) memory) := by
  cases callee with
  | function f =>
    simp only [Machine.apply]
    split
    · exact .step _
    · split <;> exact .step _
  | builtin b =>
    cases b with
    | println =>
      simp only [Machine.apply]
      split
      · exact .print _ _
      · exact .step _
    | input =>
      simp only [Machine.apply]
      split
      · exact .ask _ ⟨memory, stack⟩
      · exact .step _
    | native f => exact .ask _ ⟨memory, stack⟩

theorem argue_onto (callee : Callee) (ready : List Value) (rest : List Expr) (scope : FrameId) :
    Move.Onto base (Machine.argue setting callee ready rest scope stack memory)
      (Machine.argue setting callee ready rest scope (stack ++ base) memory) := by
  cases rest with
  | nil => exact apply_onto base setting stack memory callee ready scope
  | cons e rest => exact .step _

theorem evaluate_onto (e : Expr) (scope : FrameId) :
    Move.Onto base (Machine.evaluate setting e scope stack memory)
      (Machine.evaluate setting e scope (stack ++ base) memory) := by
  cases e with
  | call function arguments =>
    simp only [Machine.evaluate]
    split
    · exact .step _
    · exact argue_onto base setting stack _ _ [] arguments scope
  | _ => exact .step _

theorem execute_onto (s : Stmt) (scope : FrameId) :
    Move.Onto base (Machine.execute s scope stack memory) (Machine.execute s scope (stack ++ base) memory) := by
  cases s with
  | declare position name type value =>
    cases value with
    | none => exact .pause _ _
    | some e => exact .step _
  | define position name parameters body => exact .pause _ _
  | _ => exact .step _

theorem branch_onto (v : Value) (consequence : Block) (alternative : Option Block) (scope : FrameId) :
    Machine.branch v consequence alternative scope (stack ++ base) memory =
      (Machine.branch v consequence alternative scope stack memory).onto base := by
  unfold Machine.branch
  split
  · rfl
  · split
    · rfl
    · cases alternative <;> rfl

theorem iterate_onto (v : Value) (s : Stmt) (body : Block) (scope : FrameId) :
    Machine.iterate v s body scope (stack ++ base) memory =
      (Machine.iterate v s body scope stack memory).onto base := by
  unfold Machine.iterate
  split
  · rfl
  · split <;> rfl

theorem resume_onto (v : Value) (task : Task) :
    Move.Onto base (Machine.resume setting v task stack memory)
      (Machine.resume setting v task (stack ++ base) memory) := by
  cases task with
  | argument callee ready rest scope =>
    simp only [Machine.resume]
    split
    · exact .step _
    · exact argue_onto base setting stack memory callee _ rest scope
  | choose s consequence alternative scope =>
    simp only [Machine.resume, branch_onto]
    exact .pause _ _
  | test s body scope =>
    simp only [Machine.resume, iterate_onto]
    exact .pause _ _
  | settle use s scope => exact .pause _ _
  | leave | chosen => exact .step _
  | operand _ | left _ _ _ | right _ _ | again _ _ | sequence _ _ | script _ _ =>
    simp only [Machine.resume]
    split <;> exact .step _

/-- A step looks at no task but the topmost, and ends a run only if there is none. -/
theorem next_onto {m : Machine} (busy : ¬ m.Done) : Move.Onto base (m.next setting) ((m.onto base).next setting) := by
  obtain ⟨memory, focus, stack⟩ := m
  cases focus with
  | evaluate e scope => exact evaluate_onto base setting stack memory e scope
  | execute s scope => exact execute_onto base stack memory s scope
  | give v =>
    cases stack with
    | nil => exact absurd ⟨memory, v, rfl⟩ busy
    | cons task stack => exact resume_onto base setting stack memory v task

end

/-! ## Runs -/

section

variable {σ ι : Type} {host : Host σ ι} {setting : Setting}

/-- A run with more tasks below its stack. -/
def Progress.onto (base : List Task) : Progress ι → Progress ι
  | running m => running (m.onto base)
  | waiting job w => waiting job (w.onto base)

theorem receive_onto (base : List Task) (w : Waiting) (a : Answer) :
    (w.onto base).resume a = (w.resume a).onto base := by
  cases a with
  | nothing | data p => rfl
  | value v => cases v <;> rfl

/-- One step of a run that is not done, without and with more tasks below its stack. -/
theorem step_onto (host : Host σ ι) (setting : Setting) (base : List Task) {p : Progress ι}
    (busy : ∀ m, p = .running m → ¬ m.Done) (state : σ) :
    ∃ stops dozes state₁ q, p.trail host setting 1 state = ⟨stops, dozes, .underway state₁ q⟩ ∧
      (p.onto base).trail host setting 1 state = ⟨stops, dozes, .underway state₁ (q.onto base)⟩ := by
  cases p with
  | running m =>
    have next := next_onto base setting (busy m rfl)
    simp only [Progress.trail, Progress.stride, Progress.onto]
    generalize m.next setting = move at next ⊢
    generalize (m.onto base).next setting = move' at next ⊢
    cases next with
    | step m' | pause c m' | print x m' => exact ⟨_, _, _, .running m', rfl, rfl⟩
    | ask r w => exact ⟨_, _, _, .waiting _ w, rfl, rfl⟩
  | waiting job w =>
    simp only [Progress.trail, Progress.stride, Progress.onto]
    cases (host.poll state job).result with
    | ready a =>
      simp only [receive_onto]
      exact ⟨_, _, _, .running (w.resume a), rfl, rfl⟩
    | pending job' wakes => exact ⟨_, _, _, .waiting job' w, rfl, rfl⟩

/-- A run that comes to its end gives its value to what lies below its stack, if something does. -/
theorem trail_onto (base : List Task) {n : Nat} {state state' : σ} {p : Progress ι} {stops : List (Stop σ)}
    {dozes : Bool} {v : Value} {memory : Memory}
    (whole : p.trail host setting n state = ⟨stops, dozes, .ended state' v memory⟩) :
    ∃ k, (p.onto base).trail host setting k state =
      ⟨stops, dozes, .underway state' (.running ⟨memory, .give v, base⟩)⟩ := by
  induction n generalizing state p stops dozes with
  | zero => cases whole
  | succ n ih =>
    by_cases done : ∃ m, p = .running m ∧ m.Done
    · obtain ⟨m, rfl, memory', w, rfl⟩ := done
      cases whole
      exact ⟨0, rfl⟩
    · have busy (m : Machine) (running : p = .running m) : ¬ m.Done := fun own => done ⟨m, running, own⟩
      obtain ⟨stops₁, dozes₁, state₁, q, piece, piece'⟩ := step_onto host setting base busy state
      obtain ⟨stops₂, dozes₂, standing, rest⟩ : ∃ stops₂ dozes₂ standing,
          q.trail host setting n state₁ = ⟨stops₂, dozes₂, standing⟩ := ⟨_, _, _, rfl⟩
      rw [Nat.add_comm, trail_of_piece piece rest] at whole
      cases whole
      obtain ⟨k, later⟩ := ih rest
      exact ⟨1 + k, trail_of_piece piece' later⟩

end

end Stepwise
