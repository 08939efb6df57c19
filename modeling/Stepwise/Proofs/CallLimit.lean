import Stepwise.Proofs.Calls
import Stepwise.Proofs.Faults

/-!
More room for calls. A step does the same with a larger limit, unless it refuses a call
(`next_withLimit`), and a refusal is the result of the whole script. So a script that comes to any
other result does the same under every larger limit, however it is run (`same_within_limit`).
-/
namespace Stepwise

/-- The setting with another limit on the number of active calls. -/
def Setting.withLimit (setting : Setting) (limit : Nat) : Setting :=
  ⟨limit, setting.registry⟩

/-- A move refuses a call for want of room. -/
def Move.Refuses (move : Move) : Prop :=
  ∃ memory stack, move = Machine.fail .tooDeep stack memory

/-! ## Steps -/

section

variable {setting : Setting} {limit : Nat} {memory : Memory} {stack : List Task}

theorem apply_withLimit (le : setting.limit ≤ limit) (callee : Callee) (arguments : List Value) (scope : FrameId)
    (unrefused : ¬ (Machine.apply setting callee arguments scope stack memory).Refuses) :
    Machine.apply (setting.withLimit limit) callee arguments scope stack memory =
      Machine.apply setting callee arguments scope stack memory := by
  cases callee with
  | builtin b => cases b <;> rfl
  | function f =>
    simp only [Machine.apply] at unrefused ⊢
    by_cases wrong : arguments.length ≠ f.parameters.length
    · rw [if_pos wrong, if_pos wrong]
    · rw [if_neg wrong] at unrefused
      rw [if_neg wrong, if_neg wrong]
      by_cases full : setting.limit ≤ memory.depth
      · rw [if_pos full] at unrefused
        exact absurd ⟨memory, stack, rfl⟩ unrefused
      · have wider : ¬ (setting.withLimit limit).limit ≤ memory.depth := by
          show ¬ limit ≤ memory.depth
          omega
        rw [if_neg full, if_neg wider]

theorem argue_withLimit (le : setting.limit ≤ limit) (callee : Callee) (ready : List Value) (rest : List Expr)
    (scope : FrameId) (unrefused : ¬ (Machine.argue setting callee ready rest scope stack memory).Refuses) :
    Machine.argue (setting.withLimit limit) callee ready rest scope stack memory =
      Machine.argue setting callee ready rest scope stack memory := by
  cases rest with
  | nil => exact apply_withLimit le callee ready scope unrefused
  | cons e rest => rfl

theorem evaluate_withLimit (le : setting.limit ≤ limit) (e : Expr) (scope : FrameId)
    (unrefused : ¬ (Machine.evaluate setting e scope stack memory).Refuses) :
    Machine.evaluate (setting.withLimit limit) e scope stack memory =
      Machine.evaluate setting e scope stack memory := by
  cases e with
  | call function arguments =>
    have same : memory.callee (setting.withLimit limit) function scope = memory.callee setting function scope := rfl
    simp only [Machine.evaluate] at unrefused ⊢
    rw [same]
    generalize memory.callee setting function scope = found at unrefused ⊢
    obtain ⟨outcome, memory'⟩ := found
    cases outcome with
    | error fault => rfl
    | ok callee => exact argue_withLimit le callee [] arguments scope unrefused
  | _ => rfl

theorem resume_withLimit (le : setting.limit ≤ limit) (v : Value) (task : Task)
    (unrefused : ¬ (Machine.resume setting v task stack memory).Refuses) :
    Machine.resume (setting.withLimit limit) v task stack memory = Machine.resume setting v task stack memory := by
  cases task with
  | argument callee ready rest scope =>
    simp only [Machine.resume] at unrefused ⊢
    cases faulty : v.isError with
    | true => rfl
    | false =>
      rw [faulty] at unrefused
      exact argue_withLimit le callee _ rest scope unrefused
  | _ => rfl

/-- A step that does not refuse a call is the same under a larger limit. -/
theorem next_withLimit (le : setting.limit ≤ limit) {m : Machine} (unrefused : ¬ (m.next setting).Refuses) :
    m.next (setting.withLimit limit) = m.next setting := by
  obtain ⟨memory, focus, stack⟩ := m
  cases focus with
  | evaluate e scope => exact evaluate_withLimit le e scope unrefused
  | execute s scope => rfl
  | give v =>
    cases stack with
    | nil => rfl
    | cons task stack => exact resume_withLimit le v task unrefused

end

/-! ## Runs -/

variable {σ ι : Type} {host : Host σ ι} {setting : Setting} {limit : Nat} {state : σ} {p q : Progress ι}

/-- There is room for all calls of a run: it comes to its end, and not because it refused one. -/
def Progress.Fits (host : Host σ ι) (setting : Setting) (state : σ) (p : Progress ι) : Prop :=
  ∃ n state' v memory, (p.trail host setting n state).standing = .ended state' v memory ∧ v ≠ .error .tooDeep

theorem unrefused_of_fits {m : Machine} (fits : (Progress.running m).Fits host setting state) :
    ¬ (m.next setting).Refuses := by
  rintro ⟨memory, stack, refuses⟩
  obtain ⟨n, state', v, memory', ended, sound⟩ := fits
  have first : (Progress.running (ι := ι) m).trail host setting 1 state =
      ⟨[], false, .underway state (.running ⟨memory, .give (.error .tooDeep), stack⟩)⟩ := by
    simp only [Progress.trail, Progress.stride, refuses]
    rfl
  -- The fault goes up the stack and comes out as the result.
  obtain ⟨left, -, stops, whole⟩ := settles_of_fault host setting state .tooDeep memory stack
  have fell := trail_of_piece first whole
  cases ended_unique ended (congrArg Trail.standing fell)
  exact sound rfl

theorem fits_of_way {k : Nat} {state' : σ} {stops : List (Stop σ)} {dozes : Bool}
    (fits : p.Fits host setting state)
    (way : p.trail host setting k state = ⟨stops, dozes, .underway state' q⟩) : q.Fits host setting state' := by
  obtain ⟨n, state₁, v, memory, ended, sound⟩ := fits
  have later : k < n := by
    generalize whole : p.trail host setting n state = t at ended
    obtain ⟨all, waits, standing⟩ := t
    obtain rfl : standing = .ended state₁ v memory := ended
    exact lt_of_underway_of_ended way whole
  obtain ⟨m, rfl⟩ := Nat.exists_eq_add_of_le (Nat.le_of_lt later)
  rw [trail_of_piece way rfl] at ended
  exact ⟨m, state₁, v, memory, ended, sound⟩

theorem stride_withLimit (le : setting.limit ≤ limit) (fits : p.Fits host setting state) :
    p.stride host (setting.withLimit limit) state = p.stride host setting state := by
  cases p with
  | waiting job w => rfl
  | running m => simp only [Progress.stride, next_withLimit le (unrefused_of_fits fits)]

theorem poll_withLimit (le : setting.limit ≤ limit) (stepping : Bool) (fuel : Nat) (slot : Option Checkpoint)
    (cancels : Bool) (fits : p.Fits host setting state) :
    p.poll host (setting.withLimit limit) stepping fuel state slot cancels =
      p.poll host setting stepping fuel state slot cancels := by
  induction fuel generalizing state cancels p with
  | zero => rfl
  | succ fuel ih =>
    have step := Progress.trail.eq_2 host setting state p 0
    rw [Progress.poll, Progress.poll, stride_withLimit le fits]
    cases leads : (p.stride host setting state).result with
    | on q =>
      rw [leads] at step
      exact ih _ (fits_of_way fits step)
    | pass c q =>
      rw [leads] at step
      cases stepping with
      | true => rfl
      | false => exact ih _ (fits_of_way fits step)
    | wait wakes q => rfl
    | finish v memory => rfl

theorem finish_withLimit (le : setting.limit ≤ limit) (fuel rounds : Nat) (fits : p.Fits host setting state) :
    p.finish host (setting.withLimit limit) fuel rounds state = p.finish host setting fuel rounds state := by
  induction rounds generalizing state p with
  | zero => rfl
  | succ rounds ih =>
    have polled := polled_poll host setting false fuel state none false p
    rw [Progress.finish, Progress.finish, poll_withLimit le false fuel none false fits]
    generalize p.poll host setting false fuel state none false = visit at polled ⊢
    cases polled with
    | finished way => rfl
    | parked stepped => cases stepped
    | @waiting k _ _ wakes q _ way =>
      cases wakes with
      | true => exact ih (fits_of_way fits way)
      | false => rfl
    | exhausted way => rfl

/-! ## Sessions -/

/-- There is room for all calls that a session has still to make. -/
def Usage.Fits (host : Host σ ι) (setting : Setting) (u : Usage σ ι) : Prop :=
  ∀ p, u.session.program = .active p → p.Fits host setting u.state

theorem fits_stop {u : Usage σ ι} (fits : u.Fits host setting) :
    Usage.Fits host setting { u with session := u.session.stop } := by
  intro p active
  simp only [Session.stop] at active
  split at active
  · exact fits p active
  · cases active

/-- A poll of a session whose run fits does the same under a larger limit, and what is left of the run
    still fits. -/
theorem fits_poll {u : Usage σ ι} (fits : u.Fits host setting) (fuel : Nat) (consumer : Consumer) :
    (u.poll host setting fuel consumer).1.Fits host setting := by
  by_cases asked : u.session.cancelled = true
  · rw [Usage.poll, poll_of_cancelled asked]
    exact fits_stop fits
  · rw [Bool.not_eq_true] at asked
    obtain ⟨state, ⟨status, program, slot, result, cancelled, waiter⟩, produced⟩ := u
    obtain rfl : cancelled = false := asked
    cases program with
    | ended memory =>
      rintro p ⟨⟩
    | active p =>
      have polled := polled_poll host setting true fuel state slot false p
      have here : p.Fits host setting state := fits p rfl
      simp only [Usage.poll, Session.poll]
      generalize p.poll host setting true fuel state slot false = visit at polled ⊢
      cases polled with
      | finished way =>
        rintro p ⟨⟩
      | parked _ way =>
        rintro p ⟨⟩
        exact fits_of_way here way
      | exhausted way =>
        rintro p ⟨⟩
        exact fits_of_way here way
      | @waiting k _ state' wakes q cancels way =>
        cases slot with
        | some c =>
          rintro p ⟨⟩
          exact fits_of_way here way
        | none =>
          have rest : Usage.Fits host setting
              ⟨state', ⟨status, .active q, none, result, cancels, some consumer⟩, produced⟩ := by
            rintro p ⟨⟩
            exact fits_of_way here way
          cases cancels with
          | false => exact rest
          | true => exact fits_stop rest

theorem usage_poll_withLimit (le : setting.limit ≤ limit) {u : Usage σ ι} (fits : u.Fits host setting) (fuel : Nat)
    (consumer : Consumer) :
    u.poll host (setting.withLimit limit) fuel consumer = u.poll host setting fuel consumer := by
  obtain ⟨state, ⟨status, program, slot, result, cancelled, waiter⟩, produced⟩ := u
  cases cancelled with
  | true => rfl
  | false =>
    cases program with
    | ended memory => rfl
    | active p => simp only [Usage.poll, Session.poll, poll_withLimit le true fuel slot false (fits p rfl)]

section

variable {u : Usage σ ι}

theorem fits_perform (fits : u.Fits host setting) (fuel : Nat) (op : Operation) :
    (u.perform host setting fuel op).Fits host setting := by
  refine perform_preserves (P := Usage.Fits host setting) ?_ ?_ ?_ op fits
  · exact fun consumer u fits => fits_poll fits fuel consumer
  · exact fun u fits => fits_stop (u := { u with session := u.session.signal.1 }) fits
  · exact fun u fits => fits

theorem use_withLimit (le : setting.limit ≤ limit) (fits : u.Fits host setting) (fuel : Nat)
    (operations : List Operation) :
    u.use host (setting.withLimit limit) fuel operations = u.use host setting fuel operations := by
  have polls : ∀ consumer (u : Usage σ ι), u.Fits host setting →
      u.poll host (setting.withLimit limit) fuel consumer = u.poll host setting fuel consumer :=
    fun consumer u fits => usage_poll_withLimit le fits fuel consumer
  refine use_congr (P := Usage.Fits host setting) (fun op u fits => fits_perform fits fuel op) ?_ operations fits
  exact fun op u fits =>
    perform_congr (P := Usage.Fits host setting) (fun consumer u fits => fits_poll fits fuel consumer) polls op fits

end

/-- A script that comes to a result under some limit on the number of active calls, other than the
    fault that there was no room for a call, comes to the same under every larger limit: it does
    exactly the same, whether it is run or stepped through. -/
theorem same_within_limit (host : Host σ ι) (setting : Setting) (limit : Nat) (state : σ) (memory : Memory)
    (script : List Stmt) (scope : FrameId) (state' : σ) (s : Store) (v : Value) (le : setting.limit ≤ limit)
    (outcome : Outcome host setting state memory script scope state' s v) (sound : v ≠ .error .tooDeep) :
    Outcome host (setting.withLimit limit) state memory script scope state' s v ∧
      (∀ fuel, execute host (setting.withLimit limit) fuel state memory script scope =
        execute host setting fuel state memory script scope) ∧
      ∀ fuel operations,
        (Usage.start state memory script scope).use host (setting.withLimit limit) fuel operations =
          (Usage.start state memory script scope).use host setting fuel operations := by
  obtain ⟨n, memory', stands, -⟩ := outcome_on_trail outcome
  have fits : (Progress.running (.start memory script scope)).Fits host setting state :=
    ⟨n, state', v, memory', stands, sound⟩
  have runs (fuel : Nat) : execute host (setting.withLimit limit) fuel state memory script scope =
      execute host setting fuel state memory script scope := finish_withLimit le fuel fuel fits
  have begun : (Usage.start (ι := ι) state memory script scope).Fits host setting := by
    rintro p ⟨⟩
    exact fits
  have uses := use_withLimit le begun
  refine ⟨?_, runs, uses⟩
  cases outcome with
  | @run fuel _ ended =>
    rw [← runs fuel] at ended ⊢
    exact .run ended
  | @session fuel operations _ completed =>
    rw [← uses fuel operations] at completed ⊢
    exact .session completed

/-- A function that calls itself once, with room for two calls, and with room for a thousand. -/
theorem same_within_limit_of_recursion :
    ∃ state' s,
      Outcome Rehearsal.host ⟨1000, .empty⟩ (.start none) Memory.start.1
        [.define ⟨1, 1, 0⟩ "f" ["n"]
            (.mk ⟨1, 10, 9⟩ [.branch ⟨1, 12, 11⟩ (.name "n")
              (.mk ⟨1, 15, 14⟩ [.giveBack ⟨1, 17, 16⟩ (.call (.name "f") [.bool false])]) none,
              .giveBack ⟨1, 35, 34⟩ (.bool true)]),
          .evaluate ⟨2, 1, 50⟩ (.call (.name "f") [.bool true])]
        Memory.start.2 state' s (.bool true) :=
  ⟨_, _, (same_within_limit Rehearsal.host ⟨2, .empty⟩ 1000 (.start none) Memory.start.1 _ Memory.start.2 _ _
    (.bool true) (by decide) (@Outcome.run _ _ _ _ _ _ _ _ 100 _ rfl) (by rintro ⟨⟩)).1⟩

end Stepwise
