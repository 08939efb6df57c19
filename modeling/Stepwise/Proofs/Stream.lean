import Stepwise.Proofs.Course
import Stepwise.Proofs.Usage
import Stepwise.Rehearsal.Host

/-!
The stream of checkpoints. The machine follows the course of a script, whatever is still
on its stack (`follows_course`), so the stops on the trail of a run are those of the course,
and a session that is not cancelled produces them in this order (`produced_course`).
-/
namespace Stepwise

variable {σ ι : Type} {host : Host σ ι} {setting : Setting}

/-! ## Following a course -/

/-- A run goes a piece of its trail. -/
def Progress.Reaches (host : Host σ ι) (setting : Setting) (k : Nat) (state : σ) (p : Progress ι)
    (stops : List (Stop σ)) (state' : σ) (q : Progress ι) : Prop :=
  ∃ dozes, p.trail host setting k state = ⟨stops, dozes, .underway state' q⟩

/-- A run follows a course: it passes the stops of the course and then gives its value to
    what is left on the stack, or, if the course was cut at a depth, it passes the stops
    and takes at least as many steps. -/
inductive Follows (host : Host σ ι) (setting : Setting) (depth : Nat) (state : σ) (p : Progress ι)
    (stack : List Task) : Course σ Value → Prop where
  | whole {k : Nat} {stops : List (Stop σ)} {v : Value} {state' : σ} {memory : Memory}
      (way : p.Reaches host setting k state stops state' (.running ⟨memory, .give v, stack⟩)) :
      Follows host setting depth state p stack ⟨stops, some (v, state', memory)⟩
  | part {k : Nat} {stops : List (Stop σ)} {state' : σ} {q : Progress ι} (deep : depth ≤ k)
      (way : p.Reaches host setting k state stops state' q) :
      Follows host setting depth state p stack ⟨stops, none⟩

variable {depth : Nat} {state : σ} {memory : Memory} {stack : List Task}

theorem Progress.Reaches.trans {k n : Nat} {state₁ state₂ : σ} {p q r : Progress ι} {first second : List (Stop σ)}
    (one : p.Reaches host setting k state first state₁ q) (two : q.Reaches host setting n state₁ second state₂ r) :
    p.Reaches host setting (k + n) state (first ++ second) state₂ r := by
  obtain ⟨_, piece⟩ := one
  obtain ⟨_, next⟩ := two
  exact ⟨_, trail_of_piece piece next⟩

/-- A run that has its value has come to the end of the course. -/
theorem follows_pure (v : Value) :
    Follows host setting depth state (.running ⟨memory, .give v, stack⟩) stack
      ((pure v : Act σ Value) state memory) :=
  .whole (k := 0) ⟨false, rfl⟩

/-- A run that first goes a piece of its trail follows a course with the stops of the piece. -/
theorem Follows.behind {k : Nat} {state₁ : σ} {p q : Progress ι} {stops : List (Stop σ)} {c : Course σ Value}
    (follows : Follows host setting depth state₁ q stack c) (piece : p.Reaches host setting k state stops state₁ q) :
    Follows host setting (depth + k) state p stack (c.after stops) := by
  cases follows with
  | whole way => exact .whole (piece.trans way)
  | part deep way => exact .part (by omega) (piece.trans way)

theorem Follows.mono {less : Nat} {p : Progress ι} {c : Course σ Value} (le : less ≤ depth)
    (follows : Follows host setting depth state p stack c) : Follows host setting less state p stack c := by
  cases follows with
  | whole way => exact .whole way
  | part deep way => exact .part (Nat.le_trans le deep) way

theorem Follows.shallow {p : Progress ι} {c : Course σ Value}
    (follows : Follows host setting (depth + 1) state p stack c) : Follows host setting depth state p stack c :=
  follows.mono (Nat.le_succ depth)

/-- A part of a course and what is done with its value. -/
theorem Follows.andThen {p : Progress ι} {tasks : List Task} {x : Act σ Value} {next : Value → Act σ Value}
    (follows : Follows host setting depth state p tasks (x state memory))
    (rest : ∀ v state' memory', Follows host setting depth state' (.running ⟨memory', .give v, tasks⟩) stack
      (next v state' memory')) :
    Follows host setting depth state p stack ((x >>= next) state memory) := by
  change Follows _ _ _ _ _ _ (x.andThen next state memory)
  rw [Act.andThen]
  generalize x state memory = c at follows
  cases follows with
  | whole way => exact ((rest _ _ _).behind way).mono (Nat.le_add_right _ _)
  | part deep way => exact .part deep way

section

variable {m m' : Machine} {c : Course σ Value}

theorem follows_of_step (next : m.next setting = .step m')
    (follows : Follows host setting depth state (.running m') stack c) :
    Follows host setting (depth + 1) state (.running m) stack c := by
  have gone : (Progress.running m).Reaches host setting 1 state [] state (.running m') :=
    ⟨false, by simp [Progress.trail, Progress.stride, next]⟩
  exact follows.behind gone

/-- A step that gives a value to what is left on the stack ends a course. -/
theorem follows_of_give {v : Value} (next : m.next setting = Machine.give v stack memory) :
    Follows host setting depth state (.running m) stack ((pure v : Act σ Value) state memory) :=
  (follows_of_step next (follows_pure v)).shallow

theorem follows_of_pause {s : Stmt} {scope : FrameId} {focus : Focus} {tasks : List Task} {next : Unit → Act σ Value}
    (leads : m.next setting = .pause ⟨s, scope⟩ ⟨memory, focus, tasks⟩)
    (follows : Follows host setting depth state (.running ⟨memory, focus, tasks⟩) stack (next () state memory)) :
    Follows host setting (depth + 1) state (.running m) stack ((Act.pass s scope >>= next) state memory) := by
  have gone : (Progress.running m).Reaches host setting 1 state [⟨⟨s, scope⟩, state, memory⟩] state
      (.running ⟨memory, focus, tasks⟩) :=
    ⟨false, by simp [Progress.trail, Progress.stride, leads, Trail.after, Progress.memory]⟩
  exact follows.behind gone

theorem follows_of_print {p : Primitive} {next : Unit → Act σ Value} (leads : m.next setting = .print p m')
    (follows : ∀ state', Follows host setting depth state' (.running m') stack (next () state' memory)) :
    Follows host setting (depth + 1) state (.running m) stack
      ((Act.consult (fun state => host.print state p) >>= next) state memory) := by
  have gone : (Progress.running m).Reaches host setting 1 state [] (host.print state p).state (.running m') :=
    ⟨false, by simp [Progress.trail, Progress.stride, leads]⟩
  exact (follows _).behind gone

theorem follows_of_ask {r : Request} {w : Waiting} {next : ι → Act σ Value} (leads : m.next setting = .ask r w)
    (follows : ∀ job state', Follows host setting depth state' (.waiting job w) stack (next job state' memory)) :
    Follows host setting (depth + 1) state (.running m) stack
      ((Act.consult (fun state => host.start state r) >>= next) state memory) := by
  have gone : (Progress.running m).Reaches host setting 1 state [] (host.start state r).state
      (.waiting (host.start state r).result w) :=
    ⟨false, by simp [Progress.trail, Progress.stride, leads]⟩
  exact (follows _ _).behind gone

end

/-! ## The parts of a script -/

/-- The machine follows the courses that the parts of a script have. -/
structure Parts.Sound (host : Host σ ι) (setting : Setting) (depth : Nat) (parts : Parts σ ι) : Prop where
  evaluate : ∀ e scope state memory stack,
    Follows host setting depth state (.running ⟨memory, .evaluate e scope, stack⟩) stack
      (parts.evaluate e scope state memory)
  execute : ∀ s scope state memory stack,
    Follows host setting depth state (.running ⟨memory, .execute s scope, stack⟩) stack
      (parts.execute s scope state memory)
  serve : ∀ job state memory stack,
    Follows host setting depth state (.waiting job ⟨memory, stack⟩) stack (parts.serve job state memory)

section

variable {parts : Parts σ ι}

theorem follows_sequence (sound : parts.Sound host setting depth) (scope : FrameId) (rest : List Stmt) (v : Value)
    (state : σ) (memory : Memory) (stack : List Task) :
    Follows host setting depth state (.running ⟨memory, .give v, .sequence rest scope :: stack⟩) stack
      (parts.sequence scope rest v state memory) := by
  induction rest generalizing v state memory with
  | nil =>
    refine follows_of_give ?_
    simp only [Machine.next, Machine.resume]
    cases v.isControl <;> rfl
  | cons s rest ih =>
    rw [Parts.sequence]
    by_cases control : v.isControl
    · rw [if_pos control]
      exact follows_of_give (by simp [Machine.next, Machine.resume, control])
    · rw [if_neg control]
      have next : (Machine.mk memory (.give v) (.sequence (s :: rest) scope :: stack)).next setting =
          .step ⟨memory, .execute s scope, .sequence rest scope :: stack⟩ := by
        simp [Machine.next, Machine.resume, control]
      exact (follows_of_step next ((sound.execute s scope _ _ _).andThen fun w => ih w)).shallow

theorem follows_invoke (sound : parts.Sound host setting depth) {m : Machine} (callee : Callee)
    (arguments : List Value) (scope : FrameId)
    (next : m.next setting = Machine.apply setting callee arguments scope stack memory) :
    Follows host setting (depth + 1) state (.running m) stack
      (parts.invoke host setting callee arguments scope state memory) := by
  cases callee with
  | function f =>
    simp only [Machine.apply] at next
    simp only [Parts.invoke]
    rw [remember_bind]
    split at next
    · next wrong =>
      rw [if_pos wrong]
      exact follows_of_give next
    · next right =>
      rw [if_neg right]
      split at next
      · next deep =>
        rw [if_pos deep]
        exact follows_of_give next
      · next shallow =>
        rw [if_neg shallow]
        refine follows_of_step next ?_
        rw [Act.enclose, remember_bind, remember_bind]
        refine (follows_sequence sound _ _ _ _ _ _).andThen fun v state' memory' => ?_
        exact follows_of_give rfl
  | builtin b =>
    cases b with
    | println =>
      rcases arguments with _ | ⟨v, _ | ⟨w, rest⟩⟩
      · exact follows_of_give next
      · exact follows_of_print next fun state' => follows_pure _
      · exact follows_of_give next
    | input =>
      cases arguments with
      | nil => exact follows_of_ask next fun job state' => sound.serve job _ _ _
      | cons v rest => exact follows_of_give next
    | native f => exact follows_of_ask next fun job state' => sound.serve job _ _ _

/-- A task that hands a fault on, and otherwise goes on with the value. -/
theorem follows_unless_fault {task : Task} {v : Value} {x : Act σ Value}
    (fault : v.isError = true → Machine.resume setting v task stack memory = Machine.give v stack memory)
    (sane : v.isError = false →
      Follows host setting depth state (.running ⟨memory, .give v, task :: stack⟩) stack (x state memory)) :
    Follows host setting depth state (.running ⟨memory, .give v, task :: stack⟩) stack
      ((if v.isError then pure v else x) state memory) := by
  by_cases faulty : v.isError
  · rw [if_pos faulty]
    exact follows_of_give (fault faulty)
  · rw [if_neg faulty]
    exact sane (Bool.eq_false_iff.mpr faulty)

theorem follows_supply (sound : parts.Sound host setting depth) {m : Machine} (callee : Callee)
    (ready : List Value) (rest : List Expr) (scope : FrameId)
    (next : m.next setting = Machine.argue setting callee ready rest scope stack memory) :
    Follows host setting (depth + 1) state (.running m) stack
      (parts.supply host setting callee scope ready rest state memory) := by
  induction rest generalizing m ready state memory with
  | nil => exact follows_invoke sound callee ready scope next
  | cons e rest ih =>
    refine follows_of_step next ((sound.evaluate e scope _ _ _).andThen fun v state' memory' => ?_)
    refine follows_unless_fault (fun fault => by simp [Machine.resume, fault]) fun sane => ?_
    refine (ih (ready ++ [v]) ?_).shallow
    simp [Machine.next, Machine.resume, sane]

theorem follows_expression (sound : parts.Sound host setting depth) (e : Expr) (scope : FrameId) :
    Follows host setting (depth + 1) state (.running ⟨memory, .evaluate e scope, stack⟩) stack
      (parts.expression host setting e scope state memory) := by
  cases e with
  | number x => exact follows_of_give rfl
  | bool b => exact follows_of_give rfl
  | string text => exact follows_of_give rfl
  | name name => exact follows_of_give rfl
  | unary op operand =>
    refine follows_of_step rfl ((sound.evaluate operand scope _ _ _).andThen fun v state' memory' => ?_)
    refine follows_unless_fault (fun fault => by simp [Machine.resume, fault]) fun sane => ?_
    exact follows_of_give (by simp [Machine.next, Machine.resume, sane])
  | binary left op right =>
    refine follows_of_step rfl ((sound.evaluate left scope _ _ _).andThen fun v state' memory' => ?_)
    refine follows_unless_fault (fun fault => by simp [Machine.resume, fault]) fun sane => ?_
    have next : (Machine.mk memory' (.give v) (.left op right scope :: stack)).next setting =
        .step ⟨memory', .evaluate right scope, .right op v :: stack⟩ := by
      simp [Machine.next, Machine.resume, sane]
    refine (follows_of_step next ((sound.evaluate right scope _ _ _).andThen fun w state' memory' => ?_)).shallow
    refine follows_unless_fault (fun fault => by simp [Machine.resume, fault]) fun sane => ?_
    exact follows_of_give (by simp [Machine.next, Machine.resume, sane])
  | call function arguments =>
    obtain ⟨callee, memory', found⟩ : ∃ callee memory', memory.callee setting function scope = (callee, memory') :=
      ⟨_, _, rfl⟩
    simp only [Parts.expression]
    rw [remember_bind, found]
    cases callee with
    | error fault =>
      exact follows_of_give (by simp [Machine.next, Machine.evaluate, found, Machine.fail])
    | ok callee =>
      refine follows_supply sound callee [] arguments scope ?_
      simp [Machine.next, Machine.evaluate, found]

/-! ### Statements -/

theorem follows_simple (sound : parts.Sound host setting depth) (use : Use) (e : Expr) (s : Stmt) (scope : FrameId)
    {m : Machine} (next : m.next setting = .step ⟨memory, .evaluate e scope, .settle use s scope :: stack⟩) :
    Follows host setting (depth + 1) state (.running m) stack (parts.simple use e s scope state memory) := by
  refine follows_of_step next ((sound.evaluate e scope _ _ _).andThen fun v state' memory' => ?_)
  by_cases fault : v.isError
  · rw [if_pos fault, act_pure_bind]
    refine .shallow (follows_of_pause ?_ (follows_pure v))
    simp [Machine.next, Machine.resume, fault]
  · rw [if_neg fault, remember_bind]
    refine .shallow (follows_of_pause ?_ (follows_pure _))
    simp [Machine.next, Machine.resume, fault]

/-- What is left of a branch when its consequence or its alternative has come to its end. -/
theorem follows_chosen (v : Value) :
    Follows host setting depth state (.running ⟨memory, .give v, .chosen :: stack⟩) stack
      ((pure (if v.isControl then v else .null) : Act σ Value) state memory) :=
  follows_of_give rfl

theorem follows_branch (sound : parts.Sound host setting depth) (position : Position) (condition : Expr)
    (consequence : Block) (alternative : Option Block) (scope : FrameId) :
    Follows host setting (depth + 1) state
      (.running ⟨memory, .execute (.branch position condition consequence alternative) scope, stack⟩) stack
      (parts.statement (.branch position condition consequence alternative) scope state memory) := by
  obtain ⟨opened, inner, found⟩ : ∃ opened inner, memory.enclose scope = (opened, inner) := ⟨_, _, rfl⟩
  have enters : (Machine.mk memory (.execute (.branch position condition consequence alternative) scope) stack).next
      setting = .step ⟨opened, .evaluate condition inner, .choose (.branch position condition consequence alternative)
        consequence alternative inner :: stack⟩ := by
    simp [Machine.next, Machine.execute, found]
  simp only [Parts.statement, Act.enclose]
  rw [remember_bind, found]
  refine follows_of_step enters ((sound.evaluate condition inner _ _ _).andThen fun v state' memory' => ?_)
  refine .shallow ?_
  have leads : (Machine.mk memory' (.give v) (.choose (.branch position condition consequence alternative)
      consequence alternative inner :: stack)).next setting =
    .pause ⟨_, inner⟩ (Machine.branch v consequence alternative inner stack memory') := rfl
  -- The checkpoint comes before the choice, and the machine has made the choice with it.
  unfold Machine.branch at leads
  by_cases fault : v.isError
  · rw [if_pos fault] at leads ⊢
    exact follows_of_pause leads (follows_pure v)
  · by_cases chosen : v.isTrue
    · rw [if_neg fault, if_pos chosen] at leads ⊢
      exact follows_of_pause leads
        ((follows_sequence sound inner _ _ _ _ _).andThen fun w _ _ => follows_chosen w)
    · rw [if_neg fault, if_neg chosen] at leads ⊢
      cases alternative with
      | some block =>
        exact follows_of_pause leads
          ((follows_sequence sound inner _ _ _ _ _).andThen fun w _ _ => follows_chosen w)
      | none => exact follows_of_pause leads (follows_pure .null)

theorem follows_loop (sound : parts.Sound host setting depth) (position : Position) (condition : Expr)
    (body : Block) (scope : FrameId) :
    Follows host setting (depth + 1) state (.running ⟨memory, .execute (.loop position condition body) scope, stack⟩)
      stack (parts.statement (.loop position condition body) scope state memory) := by
  refine follows_of_step rfl ((sound.evaluate condition scope _ _ _).andThen fun v state' memory' => ?_)
  refine .shallow ?_
  have leads : (Machine.mk memory' (.give v) (.test (.loop position condition body) body scope :: stack)).next setting =
    .pause ⟨_, scope⟩ (Machine.iterate v (.loop position condition body) body scope stack memory') := rfl
  rw [Machine.iterate] at leads
  by_cases fault : v.isError
  · rw [if_pos fault] at leads ⊢
    exact follows_of_pause leads (follows_pure v)
  · by_cases more : v.isTrue
    · rw [if_neg fault, if_pos more] at leads ⊢
      refine follows_of_pause leads ?_
      refine (sound.execute (.block body) scope _ _ _).andThen fun w state' memory' => .shallow ?_
      by_cases control : w.isControl
      · rw [if_pos control]
        exact follows_of_give (by simp [Machine.next, Machine.resume, control])
      · rw [if_neg control]
        refine follows_of_step ?_ (sound.execute _ scope _ _ _)
        simp [Machine.next, Machine.resume, control]
    · rw [if_neg fault, if_neg more] at leads ⊢
      exact follows_of_pause leads (follows_pure .null)

theorem follows_statement (sound : parts.Sound host setting depth) (s : Stmt) (scope : FrameId) :
    Follows host setting (depth + 1) state (.running ⟨memory, .execute s scope, stack⟩) stack
      (parts.statement s scope state memory) := by
  cases s with
  | declare position name type value =>
    cases value with
    | some e => exact follows_simple sound _ e _ scope rfl
    | none =>
      simp only [Parts.statement]
      rw [remember_bind]
      exact follows_of_pause rfl (follows_pure _)
  | assign position name e => exact follows_simple sound _ e _ scope rfl
  | giveBack position e => exact follows_simple sound _ e _ scope rfl
  | evaluate position e => exact follows_simple sound _ e _ scope rfl
  | block body => exact follows_of_step rfl (follows_sequence sound _ _ _ _ _ _)
  | branch position condition consequence alternative =>
    exact follows_branch sound position condition consequence alternative scope
  | loop position condition body => exact follows_loop sound position condition body scope
  | define position name parameters body =>
    simp only [Parts.statement]
    rw [remember_bind]
    exact follows_of_pause rfl (follows_pure _)

/-! ### The whole script -/

theorem resume_eq_receive (w : Waiting) (a : Answer) :
    w.resume a = ⟨(w.memory.receive a).2, .give (w.memory.receive a).1, w.stack⟩ := by
  cases a with
  | nothing => rfl
  | data p => rfl
  | value v => cases v <;> rfl

theorem follows_job (sound : parts.Sound host setting depth) (job : ι) :
    Follows host setting (depth + 1) state (.waiting job ⟨memory, stack⟩) stack
      (parts.job host job state memory) := by
  simp only [Parts.job]
  rw [consult_bind]
  cases answered : (host.poll state job).result with
  | ready a =>
    have gone : (Progress.waiting job ⟨memory, stack⟩).Reaches host setting 1 state [] (host.poll state job).state
        (.running ⟨(memory.receive a).2, .give (memory.receive a).1, stack⟩) :=
      ⟨false, by simp [Progress.trail, Progress.stride, answered, resume_eq_receive]⟩
    exact (follows_pure (memory.receive a).1).behind gone
  | pending job' wakes =>
    have gone : (Progress.waiting job ⟨memory, stack⟩).Reaches host setting 1 state [] (host.poll state job).state
        (.waiting job' ⟨memory, stack⟩) :=
      ⟨!wakes, by simp [Progress.trail, Progress.stride, answered, Trail.after]⟩
    exact (sound.serve job' _ memory stack).behind gone

theorem sound_upTo (host : Host σ ι) (setting : Setting) (depth : Nat) :
    (Parts.upTo host setting depth).Sound host setting depth := by
  induction depth with
  | zero =>
    refine ⟨?_, ?_, ?_⟩
    · exact fun _ _ _ _ _ => .part (k := 0) (Nat.le_refl 0) ⟨false, rfl⟩
    · exact fun _ _ _ _ _ => .part (k := 0) (Nat.le_refl 0) ⟨false, rfl⟩
    · exact fun _ _ _ _ => .part (k := 0) (Nat.le_refl 0) ⟨false, rfl⟩
  | succ depth sound =>
    refine ⟨?_, ?_, ?_⟩
    · exact fun e scope _ _ _ => follows_expression sound e scope
    · exact fun s scope _ _ _ => follows_statement sound s scope
    · exact fun job _ _ _ => follows_job sound job

theorem follows_script (sound : parts.Sound host setting depth) (scope : FrameId) (rest : List Stmt) (v : Value)
    (state : σ) (memory : Memory) :
    Follows host setting depth state (.running ⟨memory, .give v, .script rest scope :: stack⟩) stack
      ((parts.sequence scope rest v >>= fun v => pure v.payload) state memory) := by
  induction rest generalizing v state memory with
  | nil =>
    refine follows_of_give ?_
    cases v <;> rfl
  | cons s rest ih =>
    rw [Parts.sequence]
    by_cases control : v.isControl
    · rw [if_pos control]
      refine follows_of_give ?_
      cases v with
      | returned v => rfl
      | error fault => rfl
      | _ => cases control
    · rw [if_neg control, andThen_assoc]
      refine .shallow (follows_of_step ?_ ((sound.execute s scope _ _ _).andThen fun w => ih w))
      cases v with
      | returned v => exact absurd rfl control
      | error fault => exact absurd rfl control
      | _ => rfl

theorem follows_course (host : Host σ ι) (setting : Setting) (depth : Nat) (state : σ) (memory : Memory)
    (script : List Stmt) (scope : FrameId) :
    Follows host setting depth state (.running (.start memory script scope)) []
      (course host setting depth script scope state memory) :=
  follows_script (sound_upTo host setting depth) scope script .null state memory

end

/-! ## The stream of a session -/

section

variable {script : List Stmt} {scope : FrameId}

/-- A run that has given its value to an empty stack ends with the next step. -/
theorem ended_of_reaches {k : Nat} {stops : List (Stop σ)} {v : Value} {state' : σ} {memory' : Memory} {p : Progress ι}
    (way : p.Reaches host setting k state stops state' (.running ⟨memory', .give v, []⟩)) :
    ∃ dozes, p.trail host setting (k + 1) state = ⟨stops, dozes, .ended state' v memory'⟩ := by
  obtain ⟨dozes, piece⟩ := way
  have halt : (Progress.running (ι := ι) ⟨memory', .give v, []⟩).trail host setting 1 state' =
      ⟨[], false, .ended state' v memory'⟩ := rfl
  exact ⟨dozes, by simpa [Trail.after] using trail_of_piece piece halt⟩

/-- The stops of a run begin the stops of every course that is as deep. -/
theorem stops_prefix_course (host : Host σ ι) (setting : Setting) (state : σ) (memory : Memory)
    (script : List Stmt) (scope : FrameId) {n : Nat} (le : n ≤ depth) :
    ((Progress.running (.start memory script scope)).trail host setting n state).stops <+:
      (course host setting depth script scope state memory).stops := by
  have follows := follows_course host setting depth state memory script scope
  generalize course host setting depth script scope state memory = c at follows
  cases follows with
  | @whole k stops v state' memory' way =>
    obtain ⟨dozes, whole⟩ := ended_of_reaches way
    -- The run has ended with the stops of the course, so no piece of it has others.
    have longer := stops_prefix_of_le host setting (Nat.le_add_right n (k + 1)) state
      (.running (.start memory script scope))
    rwa [trail_of_ended whole (Nat.le_add_left (k + 1) n)] at longer
  | @part k stops state' q deep way =>
    obtain ⟨dozes, piece⟩ := way
    have longer := stops_prefix_of_le host setting (Nat.le_trans le deep) state
      (.running (.start memory script scope))
    rwa [piece] at longer

/-- A run that has ended has gone the whole course. -/
theorem course_of_ended {n : Nat} {stops : List (Stop σ)} {dozes : Bool} {state' : σ} {v : Value} {memory' : Memory}
    (whole : (Progress.running (.start memory script scope)).trail host setting n state =
      ⟨stops, dozes, .ended state' v memory'⟩) (le : n ≤ depth) :
    course host setting depth script scope state memory = ⟨stops, some (v, state', memory')⟩ := by
  have follows := follows_course host setting depth state memory script scope
  generalize course host setting depth script scope state memory = c at follows ⊢
  cases follows with
  | @whole k _ _ _ _ way =>
    obtain ⟨_, gone⟩ := ended_of_reaches way
    have same := trail_of_ended gone (Nat.le_add_left (k + 1) n)
    rw [trail_of_ended whole (Nat.le_add_right n (k + 1))] at same
    cases same
    rfl
  | part deep way =>
    obtain ⟨_, piece⟩ := way
    have later := lt_of_underway_of_ended piece whole
    omega

/-- A run that is long enough passes all the stops of a course, and ends if the course is
    whole. -/
theorem course_prefix_stops (host : Host σ ι) (setting : Setting) (depth : Nat) (state : σ) (memory : Memory)
    (script : List Stmt) (scope : FrameId) :
    ∃ least, ∀ n, least ≤ n →
      (course host setting depth script scope state memory).stops <+:
        ((Progress.running (.start memory script scope)).trail host setting n state).stops ∧
      ((course host setting depth script scope state memory).outcome.isSome →
        ∀ q state', ((Progress.running (.start memory script scope)).trail host setting n state).standing ≠
          .underway state' q) := by
  have follows := follows_course host setting depth state memory script scope
  generalize course host setting depth script scope state memory = c at follows ⊢
  cases follows with
  | @whole k _ _ _ _ way =>
    obtain ⟨_, gone⟩ := ended_of_reaches way
    refine ⟨k + 1, fun n le => ?_⟩
    rw [trail_of_ended gone le]
    exact ⟨List.prefix_refl _, fun _ _ _ => by simp⟩
  | @part k _ _ _ deep way =>
    obtain ⟨_, piece⟩ := way
    refine ⟨k, fun n le => ⟨?_, by simp⟩⟩
    have longer := stops_prefix_of_le host setting le state
      (.running (.start memory script scope))
    rwa [piece] at longer

end

/-- What a session shows of a course: what it has produced begins every course that is
    deep enough, and is all of it once the session is completed, with the value of the
    course for its result. The slot is empty, and stays so between the steps of a poll
    until the poll gives way. -/
structure Usage.Shows (host : Host σ ι) (setting : Setting) (course : Nat → Course σ Value) (u : Usage σ ι) :
    Prop where
  begun : ∃ least, ∀ depth, least ≤ depth → u.produced <+: (course depth).stops
  whole : u.session.status = .completed → ∃ least v, u.session.result = some v ∧
    ∀ depth, least ≤ depth → course depth = ⟨u.produced, some (v, u.state, u.session.memory)⟩
  empty : u.session.slot = none
  vacant : ∀ p steps q, u.session.program = .active p →
    (p.poll host setting true steps u.state u.session.slot u.session.cancelled).turn = .exhausted q →
    (p.poll host setting true steps u.state u.session.slot u.session.cancelled).slot = none

/-- A poll that has not come back has left nothing in the slot. -/
theorem slot_of_exhausted {fuel : Nat} {state : σ} {slot : Option Checkpoint} {cancels : Bool} {p q : Progress ι}
    (exhausted : (p.poll host setting true fuel state slot cancels).turn = .exhausted q) :
    (p.poll host setting true fuel state slot cancels).slot = slot := by
  have polled := polled_poll host setting true fuel state slot cancels p
  generalize p.poll host setting true fuel state slot cancels = visit at polled exhausted ⊢
  cases polled with
  | exhausted => rfl
  | _ => cases exhausted

theorem shows_of_tracks {script : List Stmt} {scope : FrameId} {least : Nat} {u : Usage σ ι}
    (tracks : Tracks host setting state (.running (.start memory script scope)) least u)
    (uncancelled : u.session.cancelled = false) :
    u.Shows host setting fun depth => course host setting depth script scope state memory := by
  cases tracks with
  | @underway n produced dozes state' q status cancelled waiter way stands far =>
    refine ⟨⟨n, fun depth le => ?_⟩, ?_, rfl, fun _ _ _ _ exhausted => slot_of_exhausted exhausted⟩
    · have begun := stops_prefix_course host setting state memory script scope le
      rwa [way] at begun
    · rintro rfl
      cases stands.nonterminal
  | @completed n produced dozes state' v memory' cancelled waiter way =>
    refine ⟨⟨n, fun depth le => ?_⟩, fun _ => ⟨n, v, rfl, fun depth le => course_of_ended way le⟩, rfl, ?_⟩
    · simp only [course_of_ended way le]
      exact List.prefix_refl produced
    · rintro _ _ _ ⟨⟩
  | cancelled way => cases uncancelled

/-- The checkpoints that a session produces, as long as nobody asks it to stop, are those of
    the course of its script, in the same order and with the same host and memory behind
    each, whatever operations are made. If enough are made, it produces as many of them as
    one likes, and is completed if the course is whole. -/
theorem produced_course (host : Host σ ι) (setting : Setting) (state : σ) (memory : Memory) (script : List Stmt)
    (scope : FrameId) :
    (∀ fuel operations,
      ((Usage.start state memory script scope).use host setting fuel operations).session.cancelled = false →
      ((Usage.start state memory script scope).use host setting fuel operations).Shows host setting
        fun depth => course host setting depth script scope state memory) ∧
    ∀ depth, ∃ least, ∀ fuel operations, least ≤ fuel → least ≤ operations.length →
      ((Usage.start state memory script scope).use host setting fuel operations).session.cancelled = false →
      (course host setting depth script scope state memory).stops <+:
        ((Usage.start state memory script scope).use host setting fuel operations).produced ∧
      ((course host setting depth script scope state memory).outcome.isSome →
        ((Usage.start state memory script scope).use host setting fuel operations).session.status = .completed) := by
  have tracks := fun fuel operations =>
    tracks_use (tracks_start host setting state memory script scope) fuel operations
  refine ⟨fun fuel operations uncancelled => shows_of_tracks (tracks fuel operations) uncancelled, fun depth => ?_⟩
  obtain ⟨least, far⟩ := course_prefix_stops host setting depth state memory script scope
  refine ⟨least, fun fuel operations steps many uncancelled => ?_⟩
  have gone := tracks fuel operations
  generalize (Usage.start state memory script scope).use host setting fuel operations = u at gone uncancelled ⊢
  cases gone with
  | @underway n _ _ _ _ _ _ _ way stands enough =>
    have steps : 0 + min fuel operations.length ≤ n := enough.resolve_left (Bool.eq_false_iff.mp uncancelled)
    have passed := far n (by omega)
    rw [way] at passed
    exact ⟨passed.1, fun whole => absurd rfl (passed.2 whole _ _)⟩
  | @completed n _ _ _ _ _ _ _ way =>
    have passed := (far (n + least) (Nat.le_add_left least n)).1
    rw [trail_of_ended way (Nat.le_add_right n least)] at passed
    exact ⟨passed, fun _ => rfl⟩
  | cancelled => cases uncancelled

/-- A branch whose condition is a call that waits for an answer, stepped through in some of
    the possible ways. -/
theorem produced_course_of_late_answer :
    ((Usage.start (.start (some [.later 2 (some (.bool true))])) Memory.start.1
      [.define ⟨1, 1, 0⟩ "f" ["b"] (.mk ⟨1, 6, 5⟩ [.giveBack ⟨1, 8, 7⟩ (.call (.name "Input") [])]),
        .branch ⟨2, 1, 20⟩ (.call (.name "f") [.bool false]) (.mk ⟨2, 8, 27⟩ [.evaluate ⟨2, 9, 28⟩ (.bool true)]) none]
      Memory.start.2).use Rehearsal.host ⟨1000, .empty⟩ 100 [.next 0, .poll 0, .poll 1, .runToEnd 0]).Shows
        Rehearsal.host ⟨1000, .empty⟩ fun depth => course Rehearsal.host ⟨1000, .empty⟩ depth
          [.define ⟨1, 1, 0⟩ "f" ["b"] (.mk ⟨1, 6, 5⟩ [.giveBack ⟨1, 8, 7⟩ (.call (.name "Input") [])]),
            .branch ⟨2, 1, 20⟩ (.call (.name "f") [.bool false]) (.mk ⟨2, 8, 27⟩ [.evaluate ⟨2, 9, 28⟩ (.bool true)])
              none]
          Memory.start.2 (.start (some [.later 2 (some (.bool true))])) Memory.start.1 :=
  (produced_course _ _ _ _ _ _).1 100 [.next 0, .poll 0, .poll 1, .runToEnd 0] (by rfl)

end Stepwise
