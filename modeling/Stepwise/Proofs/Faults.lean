import Stepwise.Proofs.Agreement
import Stepwise.Proofs.Cancellation
import Stepwise.Proofs.Seen

/-!
Faults. As soon as something evaluates to a fault, the fault goes up the stack, one task a step
(`resume_fault`), touches nothing on its way but the number of active calls, and is the result of
the script (`aborted_of_fault`).
-/
namespace Stepwise

variable {σ ι : Type} {host : Host σ ι} {setting : Setting}

/-! ## The way up -/

/-- Every task hands a fault on. Some pass a checkpoint when they do, and the end of a call is
    counted. -/
theorem resume_fault (setting : Setting) (fault : Fault) (task : Task) (stack : List Task) (memory : Memory) :
    ∃ memory', memory'.store = memory.store ∧
      (Machine.resume setting (.error fault) task stack memory = .step ⟨memory', .give (.error fault), stack⟩ ∨
        ∃ c, Machine.resume setting (.error fault) task stack memory =
          .pause c ⟨memory', .give (.error fault), stack⟩) := by
  cases task with
  | leave => exact ⟨memory.leaveCall, rfl, .inl rfl⟩
  | settle use s scope => exact ⟨memory, rfl, .inr ⟨⟨s, scope⟩, rfl⟩⟩
  | choose s consequence alternative scope => exact ⟨memory, rfl, .inr ⟨⟨s, scope⟩, rfl⟩⟩
  | test s body scope => exact ⟨memory, rfl, .inr ⟨⟨s, scope⟩, rfl⟩⟩
  | sequence rest scope => exact ⟨memory, rfl, .inl (by cases rest <;> rfl)⟩
  | operand _ | left _ _ _ | right _ _ | argument _ _ _ _ | chosen | again _ _ | script _ _ =>
    exact ⟨memory, rfl, .inl rfl⟩

/-- Where a run stands on which nothing is left to happen: a fault is on its way up, or has come
    out as the result. The host and the frames are as they were. -/
inductive Falls (state : σ) (kept : Store) (fault : Fault) : Standing σ ι → Prop where
  | underway {memory : Memory} {stack : List Task} (same : memory.store = kept) :
      Falls state kept fault (.underway state (.running ⟨memory, .give (.error fault), stack⟩))
  | ended {memory : Memory} (same : memory.store = kept) : Falls state kept fault (.ended state (.error fault) memory)

/-- What one step makes of a fault: there is one task less, or nothing is left to do. -/
theorem stride_fault (host : Host σ ι) (setting : Setting) (state : σ) (fault : Fault) (memory : Memory)
    (stack : List Task) :
    ∃ memory' stops, memory'.store = memory.store ∧
      (Progress.running ⟨memory, .give (.error fault), stack⟩).trail host setting 1 state =
        ⟨stops, false, match stack with
          | [] => .ended state (.error fault) memory'
          | _ :: stack => .underway state (.running ⟨memory', .give (.error fault), stack⟩)⟩ := by
  cases stack with
  | nil => exact ⟨memory, [], rfl, rfl⟩
  | cons task stack =>
    obtain ⟨memory', same, step | ⟨c, pause⟩⟩ := resume_fault setting fault task stack memory
    · refine ⟨memory', [], same, ?_⟩
      simp only [Progress.trail, Progress.stride, Machine.next, step]
    · refine ⟨memory', [⟨c, state, memory'⟩], same, ?_⟩
      simp only [Progress.trail, Progress.stride, Machine.next, pause]
      rfl

theorem falls_trail (host : Host σ ι) (setting : Setting) (state : σ) (kept : Store) (fault : Fault) (k : Nat)
    {standing : Standing σ ι} (falls : Falls state kept fault standing) :
    Falls state kept fault (standing.trail host setting k).standing := by
  induction k generalizing standing with
  | zero =>
    cases falls with
    | underway same => exact .underway same
    | ended same => exact .ended same
  | succ k ih =>
    cases falls with
    | @underway memory stack same =>
      obtain ⟨memory', stops, left, step⟩ := stride_fault host setting state fault memory stack
      rw [Nat.add_comm, Standing.trail, trail_add, step]
      refine ih ?_
      cases stack with
      | nil => exact .ended (left.trans same)
      | cons task stack => exact .underway (left.trans same)
    | ended same => exact .ended same

/-- A fault comes out of the run after one step for every task on the stack, and one more. -/
theorem settles_of_fault (host : Host σ ι) (setting : Setting) (state : σ) (fault : Fault) (memory : Memory)
    (stack : List Task) :
    ∃ memory', memory'.store = memory.store ∧
      (Progress.running ⟨memory, .give (.error fault), stack⟩).Settles host setting (1 + stack.length) state state
        (.error fault) memory' := by
  induction stack generalizing memory with
  | nil =>
    obtain ⟨memory', stops, same, step⟩ := stride_fault host setting state fault memory []
    exact ⟨memory', same, stops, step⟩
  | cons task stack ih =>
    obtain ⟨memory₁, stops, same, step⟩ := stride_fault host setting state fault memory (task :: stack)
    obtain ⟨memory', left, settles⟩ := ih memory₁
    rw [List.length_cons, Nat.add_comm stack.length]
    exact ⟨memory', left.trans same, settles_behind step settles⟩

/-! ## The script -/

/-- A script that a fault aborts after `n` steps, with the host in `state₁` and the frames as in
    `kept`. From there on the fault goes up and nothing else happens. Whoever runs the script or
    steps through it gets the fault for a result, the host and the frames as they were, and has
    asked the host for nothing it was not asked for before. There is a result if the run does not
    have to wait forever before that, and nobody cancels it. -/
structure Aborted (host : Host (σ × List Demand) ι) (setting : Setting) (state : σ × List Demand) (memory : Memory)
    (script : List Stmt) (scope : FrameId) (n : Nat) (state₁ : σ × List Demand) (kept : Store) (fault : Fault) :
    Prop where
  falls : ∀ k, Falls state₁ kept fault
    ((Progress.running (.start memory script scope)).trail host setting (n + k) state).standing
  outcome : ∀ state' s v, Outcome host setting state memory script scope state' s v →
    state' = state₁ ∧ s = kept ∧ v = .error fault
  runs : ((Progress.running (.start memory script scope)).trail host setting n state).dozes = false →
    ∃ least, ∀ fuel, least ≤ fuel →
      (execute host setting fuel state memory script scope).ending = .value (.error fault)
  completes : ∃ least, ∀ fuel operations, least ≤ fuel → least ≤ operations.length →
    ((Usage.start state memory script scope).use host setting fuel operations).session.cancelled = false →
    ((Usage.start state memory script scope).use host setting fuel operations).session.result = some (.error fault)
  run_asks : ∀ fuel, (execute host setting fuel state memory script scope).state.2 <+: state₁.2
  session_asks : ∀ fuel operations,
    ((Usage.start state memory script scope).use host setting fuel operations).state.2 <+: state₁.2

/-- Whatever was asked of the host by any place on the trail was asked before the fault. -/
theorem asked_before_fault (host : Host σ ι) {state state₁ : σ × List Demand} {p : Progress ι} {n : Nat}
    {kept : Store} {fault : Fault}
    (falls : ∀ k, Falls state₁ kept fault (p.trail host.recording setting (n + k) state).standing) (m : Nat) :
    (p.trail host.recording setting m state).standing.state.2 <+: state₁.2 := by
  have later := record_prefix_of_le host setting (Nat.le_add_left m n) state p
  have fallen := falls m
  generalize (p.trail host.recording setting (n + m) state).standing = standing at later fallen
  cases fallen with
  | underway => exact later
  | ended => exact later

/-- If anything in a script evaluates to a fault, the fault aborts the script. -/
theorem aborted_of_fault (host : Host σ ι) (setting : Setting) (state : σ) (memory : Memory) (script : List Stmt)
    (scope : FrameId) (n : Nat) (state₁ : σ × List Demand) (memory₁ : Memory) (fault : Fault) (stack : List Task)
    (faulty : ((Progress.running (.start memory script scope)).trail host.recording setting n (state, [])).standing =
      .underway state₁ (.running ⟨memory₁, .give (.error fault), stack⟩)) :
    Aborted host.recording setting (state, []) memory script scope n state₁ memory₁.store fault := by
  have falls : ∀ k, Falls state₁ memory₁.store fault
      ((Progress.running (.start memory script scope)).trail host.recording setting (n + k) (state, [])).standing := by
    intro k
    rw [trail_add, faulty]
    exact falls_trail host.recording setting state₁ memory₁.store fault k (.underway rfl)
  obtain ⟨memory', same, settles⟩ := settles_of_fault host.recording setting state₁ fault memory₁ stack
  have ended : ((Progress.running (.start memory script scope)).trail host.recording setting
      (n + (1 + stack.length)) (state, [])).standing = .ended state₁ (.error fault) memory' := by
    obtain ⟨stops, whole⟩ := settles
    rw [trail_add, faulty, Standing.trail, whole]
    rfl
  refine ⟨falls, ?_, ?_, ?_, ?_, ?_⟩
  · intro state' s v outcome
    obtain ⟨m, memory'', stands, left⟩ := outcome_on_trail outcome
    cases ended_unique ended stands
    exact ⟨rfl, left.symm.trans same, rfl⟩
  · intro awake
    have piece : (Progress.running (.start memory script scope)).trail host.recording setting n (state, []) =
        ⟨((Progress.running (.start memory script scope)).trail host.recording setting n (state, [])).stops, false,
          .underway state₁ (.running ⟨memory₁, .give (.error fault), stack⟩)⟩ := by
      rw [← faulty, ← awake]
    have whole := settles_behind piece settles
    refine ⟨n + (1 + stack.length), fun fuel enough => ?_⟩
    rw [execute, finish_of_settles whole enough enough]
  · refine ⟨n + (1 + stack.length), fun fuel operations enough many uncancelled => ?_⟩
    have tracks := tracks_use (tracks_start host.recording setting (state, []) memory script scope) fuel operations
    generalize (Usage.start (state, []) memory script scope).use host.recording setting fuel operations = u
      at tracks uncancelled
    cases tracks with
    | @underway m _ _ _ _ _ _ _ way stands far =>
      have reached := far.resolve_left (Bool.eq_false_iff.mp uncancelled)
      have past := trail_of_ended (k := m) (by rw [← ended]) (by omega : n + (1 + stack.length) ≤ m)
      rw [way] at past
      cases past
    | @completed m _ _ _ _ _ _ _ way =>
      cases ended_unique ended (by rw [way])
      rfl
    | cancelled way => cases uncancelled
  · intro fuel
    obtain ⟨m, left, -, -⟩ := finish_on_trail host.recording setting fuel fuel (state, [])
      (.running (.start memory script scope))
    rw [execute, left]
    exact asked_before_fault host falls m
  · intro fuel operations
    obtain ⟨m, left, -, -⟩ := session_on_trail
      (tracks_use (tracks_start host.recording setting (state, []) memory script scope) fuel operations)
    rw [left]
    exact asked_before_fault host falls m

/-- A fault in the condition of a loop, inside a block, after the script has printed something. -/
theorem aborted_in_loop :
    Aborted Rehearsal.host.recording ⟨1000, .empty⟩ (.start none, []) Memory.start.1
      [.evaluate ⟨1, 1, 0⟩ (.call (.name "Println") [.bool true]),
        .block (.mk ⟨2, 1, 15⟩ [.loop ⟨2, 3, 17⟩ (.unary .not (.name "missing")) (.mk ⟨2, 20, 34⟩ [])])]
      Memory.start.2 12 (⟨none, [], [.printed (.bool true)], 3⟩, [.print (.bool true)])
      ⟨#[⟨[], .empty, .empty⟩, ⟨[0], .empty, .empty⟩]⟩ (.notFound "missing") :=
  aborted_of_fault Rehearsal.host ⟨1000, .empty⟩ (.start none) _ _ _ 12 _
    ⟨⟨#[⟨[], .empty, .empty⟩, ⟨[0], .empty, .empty⟩]⟩, 0, 0⟩ (.notFound "missing") _ (by rfl)

end Stepwise
