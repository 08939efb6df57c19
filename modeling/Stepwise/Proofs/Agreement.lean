import Stepwise.Proofs.Quiet
import Stepwise.Rehearsal.Host

/-!
Running and stepping agree. A run that is polled until it ends and a session that is
stepped through until it gives no more checkpoints go along the same trail, and come to
the same end of it (`execute_iff_await_completed`).
-/
namespace Stepwise

variable {σ ι : Type} {host : Host σ ι} {setting : Setting}

/-- A call of a consumer who awaits what it gives. -/
inductive Call where
  | next (consumer : Consumer)
  | runToEnd (consumer : Consumer)

/-- What a call gives. -/
def Session.call (host : Host σ ι) (setting : Setting) (fuel : Nat) (state : σ) (s : Session ι) :
    Call → σ × Session ι × Next
  | .next consumer => s.next host setting fuel consumer fuel state
  | .runToEnd consumer => s.runToEnd host setting fuel consumer fuel state

/-- Awaits calls in the order given until one gives no checkpoint. -/
def Session.await (host : Host σ ι) (setting : Setting) (fuel : Nat) :
    List Call → σ → Session ι → σ × Session ι × Next
  | [], state, s => (state, s, .exhausted)
  | call :: calls, state, s =>
    match s.call host setting fuel state call with
    | (state, s, .checkpoint _) => await host setting fuel calls state s
    | other => other

/-! ## The end of a run -/

/-- A run comes to its end after some steps, and never has to wait for a job that wakes
    nobody. -/
def Progress.Settles (host : Host σ ι) (setting : Setting) (n : Nat) (state : σ) (p : Progress ι) (state' : σ)
    (v : Value) (memory : Memory) : Prop :=
  ∃ stops, p.trail host setting n state = ⟨stops, false, .ended state' v memory⟩

variable {state state' : σ} {p q : Progress ι} {v : Value} {memory : Memory}

/-- What is left of a run that settles. -/
theorem settles_rest {n k : Nat} {state₁ : σ} {stops : List (Stop σ)} {dozes : Bool}
    (settles : p.Settles host setting n state state' v memory)
    (piece : p.trail host setting k state = ⟨stops, dozes, .underway state₁ q⟩) :
    dozes = false ∧ ∃ m, n = k + m ∧ q.Settles host setting m state₁ state' v memory := by
  obtain ⟨all, whole⟩ := settles
  obtain ⟨m, rfl⟩ := Nat.exists_eq_add_of_lt (lt_of_underway_of_ended piece whole)
  rw [Nat.add_assoc, trail_of_piece piece rfl] at whole
  simp only [Trail.after, Trail.mk.injEq, Bool.or_eq_false_iff] at whole
  obtain ⟨_, ⟨awake, rest⟩, ended⟩ := whole
  exact ⟨awake, m + 1, by omega, _, by rw [← rest, ← ended]⟩

theorem settles_behind {n k : Nat} {state₁ : σ} {stops : List (Stop σ)}
    (piece : p.trail host setting k state = ⟨stops, false, .underway state₁ q⟩)
    (settles : q.Settles host setting n state₁ state' v memory) :
    p.Settles host setting (k + n) state state' v memory := by
  obtain ⟨rest, whole⟩ := settles
  exact ⟨_, trail_of_piece piece whole⟩

/-- A run settles in one way only. -/
theorem settles_unique {n k : Nat} {state₁ : σ} {w : Value} {memory₁ : Memory} {stops : List (Stop σ)} {dozes : Bool}
    (settles : p.Settles host setting n state state' v memory)
    (whole : p.trail host setting k state = ⟨stops, dozes, .ended state₁ w memory₁⟩) :
    state₁ = state' ∧ w = v ∧ memory₁ = memory := by
  obtain ⟨all, settled⟩ := settles
  have same : p.trail host setting (n + k) state = _ := trail_of_ended settled (Nat.le_add_right n k)
  rw [trail_of_ended whole (Nat.le_add_left k n)] at same
  cases same
  exact ⟨rfl, rfl, rfl⟩

/-! ## Running -/

theorem finish_of_settles {n fuel rounds : Nat} (settles : p.Settles host setting n state state' v memory)
    (steps : n ≤ fuel) (polls : n ≤ rounds) :
    p.finish host setting fuel rounds state = ⟨state', memory, .value v⟩ := by
  induction rounds generalizing n state p with
  | zero =>
    obtain rfl : n = 0 := Nat.le_zero.mp polls
    obtain ⟨_, whole⟩ := settles
    cases whole
  | succ rounds ih =>
    have polled := polled_poll host setting false fuel state none false p
    rw [Progress.finish]
    generalize p.poll host setting false fuel state none false = visit at polled ⊢
    cases polled with
    | finished way =>
      obtain ⟨rfl, rfl, rfl⟩ := settles_unique settles way
      rfl
    | parked stepped => cases stepped
    | @waiting k _ _ wakes _ _ way =>
      -- A poll that has to wait has taken a step, so there are never more polls than steps.
      obtain ⟨awake, m, rfl, rest⟩ := settles_rest settles way
      obtain rfl : wakes = true := by simpa using awake
      exact ih rest (by omega) (by omega)
    | exhausted way =>
      obtain ⟨_, whole⟩ := settles
      have later := lt_of_underway_of_ended way whole
      omega

theorem settles_of_finish {fuel rounds : Nat}
    (ran : p.finish host setting fuel rounds state = ⟨state', memory, .value v⟩) :
    ∃ n, p.Settles host setting n state state' v memory := by
  induction rounds generalizing state p with
  | zero => cases ran
  | succ rounds ih =>
    have polled := polled_poll host setting false fuel state none false p
    rw [Progress.finish] at ran
    generalize p.poll host setting false fuel state none false = visit at polled ran
    cases polled with
    | finished way =>
      cases ran
      exact ⟨_, _, way⟩
    | parked stepped => cases stepped
    | @waiting k _ _ wakes _ _ way =>
      cases wakes with
      | true =>
        obtain ⟨n, rest⟩ := ih ran
        exact ⟨_, settles_behind way rest⟩
      | false => cases ran
    | exhausted => cases ran

/-! ## Stepping -/

/-- What awaiting a session comes to, when its run was under way at `p`: either nobody
    asked it to stop, and it went some way along the trail without waiting for a job that
    wakes nobody, or it was asked to stop. What is awaited to the end gives no checkpoint. -/
inductive Came (host : Host σ ι) (setting : Setting) (toEnd : Bool) (least : Nat) (state : σ) (p : Progress ι) :
    σ × Session ι × Next → Prop where
  | completed {k : Nat} {stops : List (Stop σ)} {state' : σ} {v : Value} {memory : Memory} {s : Session ι}
      (way : p.trail host setting k state = ⟨stops, false, .ended state' v memory⟩) (status : s.status = .completed)
      (result : s.result = some v) (ended : s.program = .ended memory) :
      Came host setting toEnd least state p (state', s, .none)
  | suspended {k : Nat} {stops : List (Stop σ)} {c : Checkpoint} {state' : σ} {q : Progress ι} {s : Session ι}
      (way : p.trail host setting (k + 1) state = ⟨stops, false, .underway state' q⟩) (going : s.Going q)
      (single : toEnd = false) : Came host setting toEnd least state p (state', s, .checkpoint c)
  | dozing {k : Nat} {stops : List (Stop σ)} {state' : σ} {q : Progress ι} {s : Session ι}
      (way : p.trail host setting k state = ⟨stops, true, .underway state' q⟩) :
      Came host setting toEnd least state p (state', s, .pending false)
  | exhausted {k : Nat} {stops : List (Stop σ)} {state' : σ} {q : Progress ι} {s : Session ι} (enough : least ≤ k)
      (way : p.trail host setting k state = ⟨stops, false, .underway state' q⟩) :
      Came host setting toEnd least state p (state', s, .exhausted)
  | asked {state' : σ} {s : Session ι} {answer : Next} (asked : s.cancelled = true) :
      Came host setting toEnd least state p (state', s, answer)

theorem Came.behind {toEnd : Bool} {least less k : Nat} {state₁ : σ} {stops : List (Stop σ)}
    {r : σ × Session ι × Next} (came : Came host setting toEnd least state₁ q r)
    (piece : p.trail host setting (k + 1) state = ⟨stops, false, .underway state₁ q⟩) (le : less ≤ least + 1) :
    Came host setting toEnd less state p r := by
  cases came with
  | completed way status result ended => exact .completed (trail_of_piece piece way) status result ended
  | @suspended n _ _ _ _ _ way going single =>
    exact .suspended (k := k + 1 + n) (trail_of_piece piece way) going single
  | dozing way => exact .dozing (trail_of_piece piece way)
  | exhausted enough way => exact .exhausted (by omega) (trail_of_piece piece way)
  | asked asked => exact .asked asked

section

variable {s : Session ι} {P : Session ι → Prop} {fuel : Nat}

theorem session_next_preserves
    (poll : ∀ consumer state s, P s → P (s.poll host setting fuel consumer state).2.1) (consumer : Consumer)
    (rounds : Nat) (state : σ) (holds : P s) : P (s.next host setting fuel consumer rounds state).2.1 := by
  rw [← record_next fuel consumer rounds ⟨state, s, []⟩]
  exact next_preserves (P := fun u => P u.session) (fun consumer u => poll consumer u.state u.session) consumer
    rounds holds

theorem session_runToEnd_preserves
    (poll : ∀ consumer state s, P s → P (s.poll host setting fuel consumer state).2.1) (consumer : Consumer)
    (rounds : Nat) (state : σ) (holds : P s) : P (s.runToEnd host setting fuel consumer rounds state).2.1 := by
  rw [← record_runToEnd fuel consumer rounds ⟨state, s, []⟩]
  exact runToEnd_preserves (P := fun u => P u.session) (fun consumer u => poll consumer u.state u.session) consumer
    rounds holds

theorem await_preserves
    (poll : ∀ consumer state s, P s → P (s.poll host setting fuel consumer state).2.1) (calls : List Call)
    (state : σ) (holds : P s) : P (s.await host setting fuel calls state).2.1 := by
  induction calls generalizing s state with
  | nil => exact holds
  | cons call calls ih =>
    have after : P (s.call host setting fuel state call).2.1 := by
      cases call with
      | next consumer => exact session_next_preserves poll consumer fuel state holds
      | runToEnd consumer => exact session_runToEnd_preserves poll consumer fuel state holds
    rw [Session.await]
    generalize s.call host setting fuel state call = r at after ⊢
    split
    · exact ih _ after
    · exact after

end

theorem cancelled_poll {s : Session ι} (asked : s.cancelled = true) (fuel : Nat) (consumer : Consumer) (state : σ) :
    (s.poll host setting fuel consumer state).2.1.cancelled = true := by
  rw [poll_of_cancelled asked, Session.stop]
  split <;> exact asked

section

variable {s : Session ι}

theorem came_next (host : Host σ ι) (setting : Setting) (going : s.Going p) (fuel : Nat) (consumer : Consumer)
    (rounds : Nat) (state : σ) :
    Came host setting false (min fuel rounds) state p (s.next host setting fuel consumer rounds state) := by
  induction rounds generalizing s p state with
  | zero => exact .exhausted (k := 0) (by omega) rfl
  | succ rounds ih =>
    have handed := handed_poll host setting going fuel consumer state
    rw [Session.next]
    generalize s.poll host setting fuel consumer state = r at handed ⊢
    cases handed with
    | completed way => exact .completed way rfl rfl rfl
    | @suspended k c state' q cancels waiter way =>
      cases cancels with
      | true => exact .asked rfl
      | false => exact .suspended way ⟨rfl, rfl, rfl, rfl⟩ rfl
    | @waiting k wakes state' q waiter way =>
      cases wakes with
      | true =>
        have rest := ih (s := ⟨s.status, .active q, none, s.result, false, waiter⟩) (p := q)
          ⟨rfl, rfl, rfl, going.unfinished⟩ state'
        exact rest.behind way (by omega)
      | false => exact .dozing way
    | stopped way => exact .asked rfl
    | exhausted way => exact .exhausted (by omega) way

theorem came_runToEnd (host : Host σ ι) (setting : Setting) (going : s.Going p) (fuel : Nat) (consumer : Consumer)
    (rounds : Nat) (state : σ) :
    Came host setting true (min fuel rounds) state p (s.runToEnd host setting fuel consumer rounds state) := by
  induction rounds generalizing s p state with
  | zero => exact .exhausted (k := 0) (by omega) rfl
  | succ rounds ih =>
    have came := came_next host setting going fuel consumer fuel state
    rw [Session.runToEnd]
    generalize s.next host setting fuel consumer fuel state = r at came ⊢
    cases came with
    | completed way status result ended => exact .completed way status result ended
    | suspended way going => exact (ih going _).behind way (by omega)
    | dozing way => exact .dozing way
    | exhausted enough way => exact .exhausted (by omega) way
    | @asked state' s' answer asked =>
      cases answer with
      | checkpoint c =>
        -- The request to stop came with the checkpoint; it is not taken back.
        exact .asked (session_runToEnd_preserves (P := fun s => s.cancelled = true)
          (fun consumer state _ asked => cancelled_poll asked fuel consumer state) consumer rounds state' asked)
      | _ => exact .asked asked

theorem came_await (host : Host σ ι) (setting : Setting) (going : s.Going p) (fuel : Nat) (calls : List Call)
    (state : σ) :
    Came host setting true (min fuel calls.length) state p (s.await host setting fuel calls state) := by
  induction calls generalizing s p state with
  | nil => exact .exhausted (k := 0) (by simp) rfl
  | cons call calls ih =>
    have came : ∃ toEnd, Came host setting toEnd fuel state p (s.call host setting fuel state call) := by
      cases call with
      | next consumer => exact ⟨false, by simpa [Session.call] using came_next host setting going fuel consumer fuel state⟩
      | runToEnd consumer => exact ⟨true, by simpa [Session.call] using came_runToEnd host setting going fuel consumer fuel state⟩
    obtain ⟨toEnd, came⟩ := came
    rw [Session.await, List.length_cons]
    generalize s.call host setting fuel state call = r at came ⊢
    cases came with
    | completed way status result ended => exact .completed way status result ended
    | suspended way going => exact (ih going _).behind way (by omega)
    | dozing way => exact .dozing way
    | exhausted enough way => exact .exhausted (by omega) way
    | @asked state' s' answer asked =>
      cases answer with
      | checkpoint c =>
        exact .asked (await_preserves (P := fun s => s.cancelled = true)
          (fun consumer state _ asked => cancelled_poll asked fuel consumer state) calls state' asked)
      | _ => exact .asked asked

end

/-- A run that settles is awaited to its end, whatever the calls, if there are enough. -/
theorem ended_of_settles {n least : Nat} {r : σ × Session ι × Next}
    (settles : p.Settles host setting n state state' v memory) (enough : n ≤ least)
    (came : Came host setting true least state p r) (uncancelled : r.2.1.cancelled = false) :
    r.1 = state' ∧ r.2.2 = .none ∧ r.2.1.status = .completed ∧ r.2.1.result = some v ∧ r.2.1.memory = memory := by
  cases came with
  | completed way status result ended =>
    obtain ⟨rfl, rfl, rfl⟩ := settles_unique settles way
    exact ⟨rfl, rfl, status, result, by rw [Session.memory, ended]; rfl⟩
  | suspended _ _ single => cases single
  | dozing way =>
    obtain ⟨awake, _⟩ := settles_rest settles way
    cases awake
  | exhausted most way =>
    obtain ⟨_, whole⟩ := settles
    have later := lt_of_underway_of_ended way whole
    omega
  | asked asked => cases asked.symm.trans uncancelled

theorem settles_of_ended {least : Nat} {s : Session ι} (came : Came host setting true least state p (state', s, .none))
    (uncancelled : s.cancelled = false) (result : s.result = some v) (left : s.memory = memory) :
    ∃ n, p.Settles host setting n state state' v memory := by
  cases came with
  | completed way status given ended =>
    obtain rfl := Option.some.inj (given.symm.trans result)
    rw [Session.memory, ended] at left
    obtain rfl := left
    exact ⟨_, _, way⟩
  | asked asked => cases asked.symm.trans uncancelled

/-- Running a script ends with a value, and leaves the host and what the script remembers
    in some state, exactly if stepping through it does, whatever calls the consumer makes,
    as long as nobody asks for a cancellation. -/
theorem execute_iff_await_completed (host : Host σ ι) (setting : Setting) (state : σ) (memory : Memory)
    (script : List Stmt) (scope : FrameId) (calls : Nat → Call)
    (uncancelled : ∀ fuel n, ((Session.start memory script scope).await host setting fuel
      ((List.range n).map calls) state).2.1.cancelled = false)
    (state' : σ) (memory' : Memory) (v : Value) :
    (∃ fuel, execute host setting fuel state memory script scope = ⟨state', memory', .value v⟩) ↔
      ∃ fuel n s, (Session.start memory script scope).await host setting fuel ((List.range n).map calls) state =
        (state', s, .none) ∧ s.status = .completed ∧ s.result = some v ∧ s.memory = memory' := by
  have came := fun fuel n => came_await host setting (s := .start memory script scope)
    ⟨rfl, rfl, rfl, rfl⟩ fuel ((List.range n).map calls) state
  constructor
  · rintro ⟨fuel, ran⟩
    obtain ⟨n, settles⟩ := settles_of_finish ran
    have ended := ended_of_settles settles (by simp) (came n n) (uncancelled n n)
    generalize awaited : (Session.start memory script scope).await host setting n ((List.range n).map calls) state = r
      at ended
    obtain ⟨state₁, s, answer⟩ := r
    obtain ⟨rfl, rfl, status, result, left⟩ := ended
    exact ⟨n, n, s, awaited, status, result, left⟩
  · rintro ⟨fuel, n, s, awaited, status, result, left⟩
    have unasked := uncancelled fuel n
    have arrived := came fuel n
    rw [awaited] at unasked arrived
    obtain ⟨steps, settles⟩ := settles_of_ended arrived unasked result left
    exact ⟨steps, finish_of_settles settles (Nat.le_refl _) (Nat.le_refl _)⟩

/-- The run of a script that waits twice for an answer, stepped through by awaiting now one
    checkpoint, now the end. -/
theorem await_completed_of_late_answer :
    ∃ fuel n s, (Session.start Memory.start.1
        [.declare ⟨1, 1, 0⟩ "x" .bool (some (.call (.name "Input") [])), .evaluate ⟨2, 1, 20⟩ (.name "x")]
        Memory.start.2).await Rehearsal.host.calm ⟨1000, .empty⟩ fuel
        ((List.range n).map fun k => if k % 2 = 0 then .next 0 else .runToEnd 0)
        (.start (some [.later 2 (some (.bool true))])) =
      (⟨some [], [], [.asked], 3⟩, s, .none) ∧ s.status = .completed ∧ s.result = some (.bool true) ∧
        s.memory = ⟨⟨#[⟨[], Table.empty.insert "x" (.bool true), .empty⟩]⟩, 0, 0⟩ :=
  (execute_iff_await_completed Rehearsal.host.calm ⟨1000, .empty⟩ _ _ _ _ _
    (fun fuel n => await_preserves (P := fun s => s.cancelled = false)
      (fun consumer state _ uncancelled => uncancelled_poll (quiet_calm _) uncancelled fuel consumer state) _ _ rfl)
    _ _ _).mp ⟨100, by rfl⟩

end Stepwise
