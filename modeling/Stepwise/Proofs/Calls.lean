import Stepwise.Proofs.Bindings
import Stepwise.Proofs.Control

/-!
The number of active calls. A step begins one call, ends one, or leaves their number as it is
(`counts_next`), and the machine counts along: what it counts are the calls on its stack, never
more than it may have (`counted_trail`). A call for which there is no room comes to a fault and
nothing else. When a run is over, be it at its end or given up somewhere, no call is active, and
whatever is run next is run as if by a new machine (`calls_counted`).
-/
namespace Stepwise

variable {σ ι : Type} {host : Host σ ι} {setting : Setting}

/-! ## Calls -/

/-- What is still to be done behind the call that a machine makes in this step: the last argument is
    not waited for any more. -/
def Machine.behind (m : Machine) : List Task :=
  match m.focus with
  | .give _ => m.stack.tail
  | _ => m.stack

/-- How many calls are active. -/
def Machine.calls (m : Machine) : Nat :=
  m.stack.countP Task.isCall

/-- A call of a function begins in this step: it is made with all its arguments, and the next thing to
    run is the body of the function. -/
def Machine.Begins (setting : Setting) (m : Machine) : Prop :=
  ∃ f arguments inner memory, m.Calls setting (.function f) arguments ∧
    m.next setting = .step (.enter f.body.statements inner (.leave :: m.behind) memory)

/-- The body of a function has come to its end, and the call ends in this step. -/
def Machine.Ends (m : Machine) : Prop :=
  ∃ v, m.focus = .give v ∧ m.stack.head? = some .leave

section

variable (m : Memory) (setting : Setting) (scope : FrameId)

@[simp] theorem depth_adopt (p : Primitive) : (m.adopt p).2.depth = m.depth := by
  cases p <;> rfl

@[simp] theorem depth_conclude (outcome : Except Fault Primitive) : (m.conclude outcome).2.depth = m.depth := by
  cases outcome with
  | error fault => rfl
  | ok p => exact depth_adopt m p

@[simp] theorem depth_lookup (name : String) : (m.lookup setting name scope).2.depth = m.depth := by
  unfold Memory.lookup
  split
  · rfl
  · split
    · rfl
    · split <;> rfl

@[simp] theorem depth_callee (e : Expr) : (m.callee setting e scope).2.depth = m.depth := by
  unfold Memory.callee
  split
  · next name =>
    split
    · rfl
    · have same := depth_lookup m setting scope name
      split <;> simp_all
  · rfl

@[simp] theorem depth_use (v : Value) (use : Use) : (m.use scope v use).2.depth = m.depth := by
  cases use with
  | declare name type =>
    simp only [Memory.use]
    split <;> rfl
  | assign name =>
    simp only [Memory.use]
    split <;> rfl
  | giveBack | discard => rfl

end

/-- A machine that makes a call applies what it calls to the arguments. Until then it has not touched
    the frames. -/
theorem next_of_calls {m : Machine} {callee : Callee} {arguments : List Value}
    (calls : m.Calls setting callee arguments) :
    ∃ memory scope, memory.store = m.memory.store ∧ memory.depth = m.memory.depth ∧
      m.next setting = Machine.apply setting callee arguments scope m.behind memory := by
  cases calls with
  | @bare memory memory' function callee scope stack found =>
    have store := store_callee memory setting scope function
    have depth := depth_callee memory setting scope function
    rw [found] at store depth
    refine ⟨memory', scope, store, depth, ?_⟩
    simp only [Machine.next, Machine.evaluate, found]
    rfl
  | @last memory callee ready v scope stack faultless =>
    refine ⟨memory, scope, rfl, rfl, ?_⟩
    simp only [Machine.next, Machine.resume, faultless]
    rfl

/-- The calls behind a call are those that are active when it is made. -/
theorem calls_behind {m : Machine} {callee : Callee} {arguments : List Value}
    (calls : m.Calls setting callee arguments) : m.behind.countP Task.isCall = m.calls := by
  cases calls <;> rfl

/-- A call with the right number of arguments begins if there is room for it. -/
theorem begins_of_room {m : Machine} {f : Function} {arguments : List Value}
    (calls : m.Calls setting (.function f) arguments) (fits : arguments.length = f.parameters.length)
    (room : m.memory.depth < setting.limit) : m.Begins setting := by
  obtain ⟨memory, scope, -, depth, next⟩ := next_of_calls calls
  have shallow : ¬ setting.limit ≤ memory.depth := by omega
  rw [Machine.apply, if_neg (fun wrong => wrong fits), if_neg shallow] at next
  exact ⟨f, arguments, _, _, calls, next⟩

/-- A call with the right number of arguments for which there is no room comes to a fault. No frame is
    made for it. -/
theorem next_of_full {m : Machine} {f : Function} {arguments : List Value}
    (calls : m.Calls setting (.function f) arguments) (fits : arguments.length = f.parameters.length)
    (full : setting.limit ≤ m.memory.depth) :
    ∃ memory, memory.store = m.memory.store ∧ memory.depth = m.memory.depth ∧
      m.next setting = .step ⟨memory, .give (.error .tooDeep), m.behind⟩ := by
  obtain ⟨memory, scope, store, depth, next⟩ := next_of_calls calls
  refine ⟨memory, store, depth, ?_⟩
  rw [next, Machine.apply, if_neg (fun wrong => wrong fits), if_pos (by omega)]
  rfl

/-! ## What a step does to their number -/

/-- What is still to be done behind a move. -/
def Move.stack : Move → List Task
  | step m | pause _ m | print _ m => m.stack
  | ask _ w => w.stack
  | halt _ _ => []

/-- What is counted and how many calls are active behind a step, `depth` having been counted and `calls`
    active in front of it: both grow by one if a call begins, for which there is room, both shrink by
    one if a call ends, or both stay. -/
inductive Tallies (begins ends : Prop) (limit depth calls : Nat) : Nat → Nat → Prop where
  | begins (begun : begins) (room : depth < limit) : Tallies begins ends limit depth calls (depth + 1) (calls + 1)
  | ends {rest : Nat} (ended : ends) (one : calls = rest + 1) : Tallies begins ends limit depth calls (depth - 1) rest
  | steady : Tallies begins ends limit depth calls depth calls

/-- The machine counts along in a move. -/
def Machine.Counts (setting : Setting) (m : Machine) (move : Move) : Prop :=
  Tallies (m.Begins setting) m.Ends setting.limit m.memory.depth m.calls move.memory.depth
    (move.stack.countP Task.isCall)

theorem counts_of_same {m : Machine} {move : Move} (depth : move.memory.depth = m.memory.depth)
    (calls : move.stack.countP Task.isCall = m.calls) : m.Counts setting move := by
  rw [Machine.Counts, depth, calls]
  exact .steady

theorem counts_of_calls {m : Machine} {callee : Callee} {arguments : List Value}
    (calls : m.Calls setting callee arguments) : m.Counts setting (m.next setting) := by
  have behind := calls_behind calls
  obtain ⟨memory, scope, -, depth, next⟩ := next_of_calls calls
  cases callee with
  | builtin b =>
    rw [next]
    cases b with
    | native g => exact counts_of_same depth behind
    | println | input =>
      simp only [Machine.apply]
      split <;> exact counts_of_same depth behind
  | function f =>
    by_cases fits : arguments.length = f.parameters.length
    · by_cases room : m.memory.depth < setting.limit
      · have begins := begins_of_room calls fits room
        obtain ⟨g, others, inner, memory', calls', entered⟩ := begins
        have shallow : ¬ setting.limit ≤ memory.depth := by omega
        rw [next, Machine.apply, if_neg (fun wrong => wrong fits), if_neg shallow]
        have grown : (Task.leave :: m.behind).countP Task.isCall = m.calls + 1 := by
          rw [← behind]
          exact List.countP_cons_of_pos rfl
        have deeper : memory.depth + 1 = m.memory.depth + 1 := congrArg (· + 1) depth
        show Tallies _ _ _ _ _ (memory.depth + 1) ((Task.leave :: m.behind).countP Task.isCall)
        rw [grown, deeper]
        exact .begins ⟨g, others, inner, memory', calls', entered⟩ room
      · obtain ⟨memory', -, kept, full⟩ := next_of_full calls fits (Nat.le_of_not_lt room)
        rw [full]
        exact counts_of_same kept behind
    · rw [next, Machine.apply, if_pos fits]
      exact counts_of_same depth behind

section

variable {memory : Memory} {stack : List Task}

theorem counts_evaluate (setting : Setting) (e : Expr) (scope : FrameId) :
    Machine.Counts setting ⟨memory, .evaluate e scope, stack⟩ (Machine.next setting ⟨memory, .evaluate e scope, stack⟩) := by
  cases e with
  | number x => exact counts_of_same rfl rfl
  | bool b => exact counts_of_same rfl rfl
  | string text => exact counts_of_same rfl rfl
  | name name => exact counts_of_same (depth_lookup memory setting scope name) rfl
  | unary op operand => exact counts_of_same rfl rfl
  | binary left op right => exact counts_of_same rfl rfl
  | call function arguments =>
    have depth := depth_callee memory setting scope function
    cases found : memory.callee setting function scope with
    | mk outcome memory' =>
      rw [found] at depth
      cases outcome with
      | error fault =>
        simp only [Machine.next, Machine.evaluate, found]
        exact counts_of_same depth rfl
      | ok callee =>
        cases arguments with
        | nil => exact counts_of_calls (.bare found)
        | cons e rest =>
          simp only [Machine.next, Machine.evaluate, found]
          exact counts_of_same depth rfl

theorem counts_execute (setting : Setting) (s : Stmt) (scope : FrameId) :
    Machine.Counts setting ⟨memory, .execute s scope, stack⟩ (Machine.execute s scope stack memory) := by
  cases s with
  | declare position name type value => cases value <;> exact counts_of_same rfl rfl
  | _ => exact counts_of_same rfl rfl

theorem counts_branch (v : Value) (consequence : Block) (alternative : Option Block) (scope : FrameId) :
    (Machine.branch v consequence alternative scope stack memory).stack.countP Task.isCall =
      stack.countP Task.isCall := by
  unfold Machine.branch
  split
  · rfl
  · split
    · rfl
    · cases alternative <;> rfl

theorem counts_iterate (v : Value) (s : Stmt) (body : Block) (scope : FrameId) :
    (Machine.iterate v s body scope stack memory).stack.countP Task.isCall = stack.countP Task.isCall := by
  unfold Machine.iterate
  split
  · rfl
  · split <;> rfl

theorem counts_resume (setting : Setting) (v : Value) (task : Task) :
    Machine.Counts setting ⟨memory, .give v, task :: stack⟩
      (Machine.next setting ⟨memory, .give v, task :: stack⟩) := by
  have conclude (outcome : Except Fault Primitive) := depth_conclude memory outcome
  cases task with
  | operand op =>
    simp only [Machine.next, Machine.resume]
    split
    · exact counts_of_same rfl rfl
    · exact counts_of_same (conclude _) rfl
  | right op left =>
    simp only [Machine.next, Machine.resume]
    split
    · exact counts_of_same rfl rfl
    · exact counts_of_same (conclude _) rfl
  | argument callee ready rest scope =>
    cases faulty : v.isError with
    | true =>
      simp only [Machine.next, Machine.resume, faulty]
      exact counts_of_same rfl rfl
    | false =>
      cases rest with
      | nil => exact counts_of_calls (.last faulty)
      | cons e rest =>
        simp only [Machine.next, Machine.resume, faulty]
        exact counts_of_same rfl rfl
  | leave => exact .ends ⟨v, rfl, rfl⟩ (List.countP_cons_of_pos rfl)
  | settle use s scope =>
    simp only [Machine.next, Machine.resume]
    split
    · exact counts_of_same rfl rfl
    · exact counts_of_same (depth_use memory scope v use) rfl
  | choose s consequence alternative scope =>
    refine counts_of_same ?_ (counts_branch v consequence alternative scope)
    exact congrArg Memory.depth (memory_branch v consequence alternative scope)
  | test s body scope =>
    refine counts_of_same ?_ (counts_iterate v s body scope)
    exact congrArg Memory.depth (memory_iterate v s body scope)
  | chosen => exact counts_of_same rfl rfl
  | left op e scope =>
    simp only [Machine.next, Machine.resume]
    split <;> exact counts_of_same rfl rfl
  | again s scope =>
    simp only [Machine.next, Machine.resume]
    split <;> exact counts_of_same rfl rfl
  | sequence rest scope =>
    simp only [Machine.next, Machine.resume]
    split <;> exact counts_of_same rfl rfl
  | script rest scope =>
    simp only [Machine.next, Machine.resume]
    split <;> exact counts_of_same rfl rfl

/-- A step begins a call, ends one, or leaves their number as it is, and the machine counts along. -/
theorem counts_next (setting : Setting) (m : Machine) : m.Counts setting (m.next setting) := by
  obtain ⟨memory, focus, stack⟩ := m
  cases focus with
  | evaluate e scope => exact counts_evaluate setting e scope
  | execute s scope => exact counts_execute setting s scope
  | give v =>
    cases stack with
    | nil => exact counts_of_same rfl rfl
    | cons task stack => exact counts_resume setting v task

end

theorem calls_of_begins {m : Machine} (begins : m.Begins setting) :
    (m.next setting).stack.countP Task.isCall = m.calls + 1 := by
  obtain ⟨f, arguments, inner, memory, calls, next⟩ := begins
  rw [next, ← calls_behind calls]
  show (Task.leave :: m.behind).countP Task.isCall = m.behind.countP Task.isCall + 1
  exact List.countP_cons_of_pos rfl

theorem calls_of_ends {m : Machine} (ends : m.Ends) : m.calls = (m.next setting).stack.countP Task.isCall + 1 := by
  obtain ⟨memory, focus, stack⟩ := m
  obtain ⟨v, rfl, top⟩ := ends
  cases stack with
  | nil => cases top
  | cons task stack =>
    obtain rfl : task = .leave := Option.some.inj top
    exact List.countP_cons_of_pos rfl

/-! ## Runs -/

/-- How many calls are active in a run. -/
def Progress.calls (p : Progress ι) : Nat :=
  p.stack.countP Task.isCall

namespace Standing

/-- How many calls are active where a run stands; none is once it has ended. -/
def calls : Standing σ ι → Nat
  | underway _ p => p.calls
  | ended _ _ _ => 0

/-- A call begins with the next step. -/
def Begins (setting : Setting) : Standing σ ι → Prop
  | underway _ (.running m) => m.Begins setting
  | _ => False

/-- A call ends with the next step. -/
def Ends : Standing σ ι → Prop
  | underway _ (.running m) => m.Ends
  | _ => False

/-- What is counted are the calls that are active, and they are no more than there may be. -/
structure Counted (setting : Setting) (s : Standing σ ι) : Prop where
  depth : s.memory.depth = s.calls
  room : s.calls ≤ setting.limit

end Standing

theorem calls_step (host : Host σ ι) (setting : Setting) (state : σ) (m : Machine) :
    ((Progress.running m).trail host setting 1 state).standing.calls = (m.next setting).stack.countP Task.isCall := by
  simp only [Progress.trail, Progress.stride]
  cases m.next setting <;> rfl

theorem depth_answer (w : Waiting) (a : Answer) : (w.resume a).memory.depth = w.memory.depth := by
  cases a with
  | nothing => rfl
  | data p => exact depth_adopt w.memory p
  | value v => cases v <;> rfl

theorem stack_answer (w : Waiting) (a : Answer) : (w.resume a).stack = w.stack := by
  cases a with
  | nothing | data => rfl
  | value v => cases v <;> rfl

theorem tallies_step (host : Host σ ι) (setting : Setting) (s : Standing σ ι) :
    Tallies (s.Begins setting) s.Ends setting.limit s.memory.depth s.calls
      (s.trail host setting 1).standing.memory.depth (s.trail host setting 1).standing.calls := by
  cases s with
  | ended state v memory => exact .steady
  | underway state p =>
    cases p with
    | running m =>
      have counts := counts_next setting m
      rw [Machine.Counts, ← memory_step host setting state m, ← calls_step host setting state m] at counts
      exact counts
    | waiting job w =>
      simp only [Standing.trail, Progress.trail, Progress.stride]
      cases (host.poll state job).result with
      | pending job' wakes => exact .steady
      | ready a =>
        have depth := depth_answer w a
        have stack := congrArg (List.countP Task.isCall) (stack_answer w a)
        show Tallies _ _ _ _ _ (w.resume a).memory.depth ((w.resume a).stack.countP Task.isCall)
        rw [depth, stack]
        exact .steady

theorem calls_of_standing_begins {s : Standing σ ι} (begins : s.Begins setting) :
    (s.trail host setting 1).standing.calls = s.calls + 1 := by
  cases s with
  | ended state v memory => cases begins
  | underway state p =>
    cases p with
    | waiting job w => cases begins
    | running m => exact (calls_step host setting state m).trans (calls_of_begins begins)

theorem calls_of_standing_ends {s : Standing σ ι} (ends : s.Ends) :
    s.calls = (s.trail host setting 1).standing.calls + 1 := by
  cases s with
  | ended state v memory => cases ends
  | underway state p =>
    cases p with
    | waiting job w => cases ends
    | running m =>
      rw [Standing.trail, calls_step]
      exact calls_of_ends ends

/-- What is counted are the calls that are active, all along a run. -/
theorem counted_step (host : Host σ ι) {s : Standing σ ι} (counted : s.Counted setting) :
    (s.trail host setting 1).standing.Counted setting := by
  have tallies := tallies_step host setting s
  obtain ⟨same, room⟩ := counted
  generalize (s.trail host setting 1).standing = next at tallies ⊢
  generalize depth : next.memory.depth = d at tallies
  generalize calls : next.calls = c at tallies
  cases tallies with
  | begins begun more => exact ⟨by omega, by omega⟩
  | ends ended one => exact ⟨by omega, by omega⟩
  | steady => exact ⟨by omega, by omega⟩

theorem counted_trail (host : Host σ ι) {state : σ} {p : Progress ι}
    (counted : (Standing.underway state p).Counted setting) (n : Nat) :
    (p.trail host setting n state).standing.Counted setting := by
  induction n with
  | zero => exact counted
  | succ n ih =>
    rw [standing_add]
    exact counted_step host ih

/-- A run that is given up leaves no call behind. -/
theorem idle_abandon {state : σ} {p : Progress ι} (counted : (Standing.underway state p).Counted setting) :
    p.abandon.depth = 0 := by
  have same : p.memory.depth = p.stack.countP Task.isCall := counted.depth
  show p.memory.depth - p.stack.countP Task.isCall = 0
  omega

/-- However a run ends, no call is active any more. -/
theorem idle_finish (host : Host σ ι) (fuel rounds : Nat) {state : σ} {p : Progress ι}
    (counted : (Standing.underway state p).Counted setting) :
    (p.finish host setting fuel rounds state).memory.depth = 0 := by
  induction rounds generalizing state p with
  | zero => exact idle_abandon counted
  | succ rounds ih =>
    have along := counted_trail host counted
    have polled := polled_poll host setting false fuel state none false p
    rw [Progress.finish]
    generalize p.poll host setting false fuel state none false = visit at polled ⊢
    cases polled with
    | @finished k _ _ _ _ _ way =>
      have there := along k
      rw [way] at there
      exact there.depth
    | parked stepped => cases stepped
    | @waiting k _ _ wakes q _ way =>
      have there := along (k + 1)
      rw [way] at there
      cases wakes with
      | true => exact ih there
      | false => exact idle_abandon there
    | exhausted way =>
      have there := along fuel
      rw [way] at there
      exact idle_abandon there

/-- A session that has ended leaves no call behind. -/
theorem idle_session {state : σ} {p : Progress ι} {least : Nat} {u : Usage σ ι}
    (counted : (Standing.underway state p).Counted setting) (tracks : Tracks host setting state p least u)
    (terminal : u.session.status.isTerminal) : u.session.memory.depth = 0 := by
  cases tracks with
  | underway way stands =>
    have going := stands.nonterminal
    rw [terminal] at going
    cases going
  | @completed n _ _ _ _ _ _ _ way =>
    have there := counted_trail host counted n
    rw [way] at there
    exact there.depth
  | @cancelled n _ _ _ _ _ way =>
    have there := counted_trail host counted n
    rw [way] at there
    exact idle_abandon there

/-- Behind every checkpoint that it passes, a run stands where the checkpoint tells. -/
theorem standing_of_stop (host : Host σ ι) (setting : Setting) {n : Nat} {state : σ} {p : Progress ι} {stop : Stop σ}
    (passed : stop ∈ (p.trail host setting n state).stops) :
    ∃ k q, (p.trail host setting k state).standing = .underway stop.state q ∧ q.memory = stop.memory := by
  induction n generalizing state p with
  | zero => cases passed
  | succ n ih =>
    simp only [Progress.trail] at passed
    cases leads : (p.stride host setting state).result with
    | on q =>
      rw [leads] at passed
      obtain ⟨k, r, stands, memory⟩ := ih passed
      exact ⟨k + 1, r, by simpa only [Progress.trail, leads] using stands, memory⟩
    | pass c q =>
      rw [leads] at passed
      rcases List.mem_append.mp passed with here | later
      · rw [List.mem_singleton.mp here]
        exact ⟨1, q, by simp only [Progress.trail, leads, Trail.after], rfl⟩
      · obtain ⟨k, r, stands, memory⟩ := ih later
        exact ⟨k + 1, r, by simpa only [Progress.trail, leads, Trail.after] using stands, memory⟩
    | wait wakes q =>
      rw [leads] at passed
      obtain ⟨k, r, stands, memory⟩ := ih passed
      exact ⟨k + 1, r, by simpa only [Progress.trail, leads, Trail.after] using stands, memory⟩
    | finish v memory =>
      rw [leads] at passed
      cases passed

/-! ## One script after another -/

/-- What is remembered of a script when no call is active. -/
def Memory.idle (m : Memory) : Memory :=
  { m with depth := 0 }

/-- A script that is to be run in a scope, and for how many steps at most; then it is given up. -/
structure Errand where
  fuel : Nat
  script : List Stmt
  scope : FrameId

/-- Runs scripts one after the other on one machine: each begins with what the one before has left. -/
def executeEach (host : Host σ ι) (setting : Setting) (state : σ) (memory : Memory) :
    List Errand → List (Evaluation σ)
  | [] => []
  | errand :: rest =>
    let e := execute host setting errand.fuel state memory errand.script errand.scope
    e :: executeEach host setting e.state e.memory rest

/-- Runs scripts one after the other, each on a new machine, on which no call is active. -/
def executeAfresh (host : Host σ ι) (setting : Setting) (state : σ) (memory : Memory) :
    List Errand → List (Evaluation σ)
  | [] => []
  | errand :: rest =>
    let e := execute host setting errand.fuel state memory.idle errand.script errand.scope
    e :: executeAfresh host setting e.state e.memory rest

theorem counted_start {memory : Memory} (idle : memory.depth = 0) (setting : Setting) (state : σ) (script : List Stmt)
    (scope : FrameId) :
    (Standing.underway state (.running (ι := ι) (.start memory script scope))).Counted setting :=
  ⟨idle, Nat.zero_le _⟩

theorem executeEach_eq_afresh (host : Host σ ι) (setting : Setting) (state : σ) {memory : Memory}
    (idle : memory.depth = 0) (errands : List Errand) :
    executeEach host setting state memory errands = executeAfresh host setting state memory errands := by
  induction errands generalizing state memory with
  | nil => rfl
  | cons errand rest ih =>
    have same : memory.idle = memory := by rw [Memory.idle, ← idle]
    have start := counted_start (ι := ι) idle setting state errand.script errand.scope
    have left : (execute host setting errand.fuel state memory errand.script errand.scope).memory.depth = 0 :=
      idle_finish host errand.fuel errand.fuel start
    simp only [executeEach, executeAfresh, same]
    rw [ih _ left]

/-! ## All of a script -/

/-- The calls of a script, as they are counted. Wherever a run of the script stands, it counts the calls
    that are active, which are those that have begun and not yet ended, and they are not too many;
    so it does behind every checkpoint. A call for which there is no room comes to a fault, and the
    frames stay as they are; any other with the right number of arguments begins. Nothing is left of
    the calls when the script was run to its end, given up, or stepped through, and whatever is run
    next is run as if on a new machine. -/
structure CallsCounted (host : Host σ ι) (setting : Setting) (state : σ) (memory : Memory) (script : List Stmt)
    (scope : FrameId) : Prop where
  active : ∀ n, (standingAfter host setting state memory script scope n).Counted setting
  idle : (standingAfter host setting state memory script scope 0).memory.depth = 0
  begins : ∀ n, (standingAfter host setting state memory script scope n).Begins setting →
    (standingAfter host setting state memory script scope (n + 1)).memory.depth =
      (standingAfter host setting state memory script scope n).memory.depth + 1
  ends : ∀ n, (standingAfter host setting state memory script scope n).Ends →
    (standingAfter host setting state memory script scope n).memory.depth =
      (standingAfter host setting state memory script scope (n + 1)).memory.depth + 1
  steady : ∀ n, ¬ (standingAfter host setting state memory script scope n).Begins setting →
    ¬ (standingAfter host setting state memory script scope n).Ends →
    (standingAfter host setting state memory script scope (n + 1)).memory.depth =
      (standingAfter host setting state memory script scope n).memory.depth
  checkpoint : ∀ fuel operations stop,
    stop ∈ ((Usage.start state memory script scope).use host setting fuel operations).produced →
    ∃ n p, standingAfter host setting state memory script scope n = .underway stop.state p ∧
      stop.memory.depth = p.calls ∧ p.calls ≤ setting.limit
  full : ∀ n state₁ m f arguments,
    standingAfter host setting state memory script scope n = .underway state₁ (.running m) →
    m.Calls setting (.function f) arguments → arguments.length = f.parameters.length →
    m.memory.depth = setting.limit →
    ∃ memory₁ fault, memory₁.store = m.memory.store ∧ fault.message = "maximum call depth exceeded" ∧
      standingAfter host setting state memory script scope (n + 1) =
        .underway state₁ (.running ⟨memory₁, .give (.error fault), m.behind⟩)
  room : ∀ n state₁ m f arguments,
    standingAfter host setting state memory script scope n = .underway state₁ (.running m) →
    m.Calls setting (.function f) arguments → arguments.length = f.parameters.length →
    m.memory.depth < setting.limit → m.Begins setting
  abandoned : ∀ n state₁ p, standingAfter host setting state memory script scope n = .underway state₁ p →
    p.abandon.depth = 0
  run : ∀ fuel, (execute host setting fuel state memory script scope).memory.depth = 0
  session : ∀ fuel operations,
    ((Usage.start state memory script scope).use host setting fuel operations).session.status.isTerminal →
    ((Usage.start state memory script scope).use host setting fuel operations).session.memory.depth = 0
  afresh : ∀ fuel errands,
    executeEach host setting (execute host setting fuel state memory script scope).state
        (execute host setting fuel state memory script scope).memory errands =
      executeAfresh host setting (execute host setting fuel state memory script scope).state
        (execute host setting fuel state memory script scope).memory errands

/-- The calls of every script are counted, as long as none is active when it is begun. -/
theorem calls_counted (host : Host σ ι) (setting : Setting) (state : σ) (memory : Memory) (script : List Stmt)
    (scope : FrameId) (idle : memory.depth = 0) : CallsCounted host setting state memory script scope := by
  have start := counted_start (ι := ι) idle setting state script scope
  have counted := counted_trail host start
  have step (n : Nat) : standingAfter host setting state memory script scope (n + 1) =
      ((standingAfter host setting state memory script scope n).trail host setting 1).standing := standing_add n 1 _ _
  have tracks (fuel : Nat) (operations : List Operation) :=
    tracks_use (tracks_start host setting state memory script scope) fuel operations
  have left (fuel : Nat) : (execute host setting fuel state memory script scope).memory.depth = 0 :=
    idle_finish host fuel fuel start
  constructor
  case active => exact counted
  case idle => exact idle
  case begins =>
    intro n begins
    have here : (standingAfter host setting state memory script scope n).Counted setting := counted n
    have there : (standingAfter host setting state memory script scope (n + 1)).Counted setting := counted (n + 1)
    rw [there.depth, here.depth, step]
    exact calls_of_standing_begins begins
  case ends =>
    intro n ends
    have here : (standingAfter host setting state memory script scope n).Counted setting := counted n
    have there : (standingAfter host setting state memory script scope (n + 1)).Counted setting := counted (n + 1)
    rw [there.depth, here.depth, step]
    exact calls_of_standing_ends ends
  case steady =>
    intro n unbegun unended
    have tallies := tallies_step host setting (standingAfter host setting state memory script scope n)
    rw [step]
    generalize ((standingAfter host setting state memory script scope n).trail host setting 1).standing = next
      at tallies ⊢
    generalize depth : next.memory.depth = d at tallies
    generalize next.calls = c at tallies
    cases tallies with
    | begins begun => exact absurd begun unbegun
    | ends ended => exact absurd ended unended
    | steady => rfl
  case checkpoint =>
    intro fuel operations stop produced
    obtain ⟨n, stops, -⟩ := (tracks fuel operations).place
    rw [← stops] at produced
    obtain ⟨k, p, stands, memory⟩ := standing_of_stop host setting produced
    have there := counted k
    rw [stands] at there
    refine ⟨k, p, stands, ?_, there.room⟩
    rw [← memory]
    exact there.depth
  case full =>
    intro n state₁ m f arguments stands calls fits full
    obtain ⟨memory₁, store, -, next⟩ := next_of_full calls fits (Nat.le_of_eq full.symm)
    refine ⟨memory₁, .tooDeep, store, rfl, ?_⟩
    rw [step, stands]
    simp only [Standing.trail, Progress.trail, Progress.stride, next]
  case room =>
    intro n state₁ m f arguments stands calls fits room
    exact begins_of_room calls fits room
  case abandoned =>
    intro n state₁ p stands
    have there := counted n
    rw [show (Progress.trail host setting n state _).standing = _ from stands] at there
    exact idle_abandon there
  case run => exact left
  case session =>
    intro fuel operations terminal
    exact idle_session start (tracks fuel operations) terminal
  case afresh =>
    intro fuel errands
    exact executeEach_eq_afresh host setting _ (left fuel) errands

/-- A function that calls itself without end, with room for two calls. -/
theorem calls_counted_of_runaway :
    CallsCounted Rehearsal.host ⟨2, .empty⟩ (.start none) Memory.start.1
      [.define ⟨1, 1, 0⟩ "f" ["n"] (.mk ⟨1, 10, 9⟩ [.giveBack ⟨1, 12, 11⟩ (.call (.name "f") [.name "n"])]),
        .evaluate ⟨2, 1, 25⟩ (.call (.name "f") [.bool true])]
      Memory.start.2 :=
  calls_counted _ _ _ _ _ _ rfl

end Stepwise
