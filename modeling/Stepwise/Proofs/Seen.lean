import Stepwise.Proofs.Usage

/-!
What can be seen of a script. Running it and stepping through it, however often and however
far, stop at some place on the trail of its run (`seen_on_trail`, `outcome_on_trail`).
-/
namespace Stepwise

variable {σ ι : Type} {host : Host σ ι} {setting : Setting}

/-- What running a script leaves is found on the trail of its run. -/
theorem finish_on_trail (host : Host σ ι) (setting : Setting) (fuel rounds : Nat) (state : σ) (p : Progress ι) :
    ∃ n, (p.finish host setting fuel rounds state).state = (p.trail host setting n state).standing.state ∧
      (p.finish host setting fuel rounds state).memory.store =
        (p.trail host setting n state).standing.memory.store ∧
      ∀ v, (p.finish host setting fuel rounds state).ending = .value v →
        ∃ state' memory, (p.trail host setting n state).standing = .ended state' v memory := by
  induction rounds generalizing state p with
  | zero => exact ⟨0, rfl, rfl, by rintro v ⟨⟩⟩
  | succ rounds ih =>
    have polled := polled_poll host setting false fuel state none false p
    rw [Progress.finish]
    generalize p.poll host setting false fuel state none false = visit at polled ⊢
    cases polled with
    | @finished k _ _ _ _ _ way =>
      refine ⟨k, by rw [way]; rfl, by rw [way]; rfl, ?_⟩
      rintro v ⟨⟩
      exact ⟨_, _, by rw [way]⟩
    | parked stepped => cases stepped
    | @waiting k _ state' wakes q _ way =>
      cases wakes with
      | true =>
        obtain ⟨n, left, store, ended⟩ := ih state' q
        have rest : (p.trail host setting (k + 1 + n) state).standing = (q.trail host setting n state').standing := by
          rw [trail_of_piece way rfl]
          rfl
        refine ⟨k + 1 + n, ?_, ?_, ?_⟩
        · rw [rest]
          exact left
        · rw [rest]
          exact store
        · rw [rest]
          exact ended
      | false => exact ⟨k + 1, by rw [way]; rfl, by rw [way]; rfl, by rintro v ⟨⟩⟩
    | exhausted way => exact ⟨fuel, by rw [way]; rfl, by rw [way]; rfl, by rintro v ⟨⟩⟩

/-- What a session holds is found on the trail of its run. -/
theorem session_on_trail {state₀ : σ} {p₀ : Progress ι} {least : Nat} {u : Usage σ ι}
    (tracks : Tracks host setting state₀ p₀ least u) :
    ∃ n, u.state = (p₀.trail host setting n state₀).standing.state ∧
      u.session.memory.store = (p₀.trail host setting n state₀).standing.memory.store ∧
      ∀ v, u.session.result = some v →
        ∃ state' memory, (p₀.trail host setting n state₀).standing = .ended state' v memory := by
  cases tracks with
  | @underway n _ _ _ _ _ _ _ way => exact ⟨n, by rw [way]; rfl, by rw [way]; rfl, by rintro v ⟨⟩⟩
  | @completed n _ _ _ _ _ _ _ way =>
    refine ⟨n, by rw [way]; rfl, by rw [way]; rfl, ?_⟩
    rintro v ⟨⟩
    exact ⟨_, _, by rw [way]⟩
  | @cancelled n _ _ _ _ _ way => exact ⟨n, by rw [way]; rfl, by rw [way]; rfl, by rintro v ⟨⟩⟩

section

variable (host : Host σ ι) (setting : Setting) (state : σ) (memory : Memory) (script : List Stmt) (scope : FrameId)

/-- The stores that can be seen of a script: wherever its run stands, and whenever running it
    or stepping through it stops. -/
inductive Seen : Store → Prop where
  | midway (n : Nat) :
      Seen ((Progress.running (.start memory script scope)).trail host setting n state).standing.memory.store
  | run (fuel : Nat) : Seen (execute host setting fuel state memory script scope).memory.store
  | session (fuel : Nat) (operations : List Operation) :
      Seen ((Usage.start state memory script scope).use host setting fuel operations).session.memory.store

/-- What a script can come to, be it run or stepped through: the host, the store and the
    result. -/
inductive Outcome : σ → Store → Value → Prop where
  | run {fuel : Nat} {v : Value} (ended : (execute host setting fuel state memory script scope).ending = .value v) :
      Outcome (execute host setting fuel state memory script scope).state
        (execute host setting fuel state memory script scope).memory.store v
  | session {fuel : Nat} {operations : List Operation} {v : Value}
      (completed : ((Usage.start state memory script scope).use host setting fuel operations).session.result = some v) :
      Outcome ((Usage.start state memory script scope).use host setting fuel operations).state
        ((Usage.start state memory script scope).use host setting fuel operations).session.memory.store v

end

section

variable {state : σ} {memory : Memory} {script : List Stmt} {scope : FrameId}

theorem seen_on_trail {s : Store} (seen : Seen host setting state memory script scope s) :
    ∃ n, s = ((Progress.running (.start memory script scope)).trail host setting n state).standing.memory.store := by
  cases seen with
  | midway n => exact ⟨n, rfl⟩
  | run fuel =>
    obtain ⟨n, -, store, -⟩ := finish_on_trail host setting fuel fuel state (.running (.start memory script scope))
    exact ⟨n, store⟩
  | session fuel operations =>
    obtain ⟨n, -, store, -⟩ := session_on_trail
      (tracks_use (tracks_start host setting state memory script scope) fuel operations)
    exact ⟨n, store⟩

theorem outcome_on_trail {state' : σ} {s : Store} {v : Value}
    (outcome : Outcome host setting state memory script scope state' s v) :
    ∃ n memory', ((Progress.running (.start memory script scope)).trail host setting n state).standing =
      .ended state' v memory' ∧ memory'.store = s := by
  cases outcome with
  | @run fuel _ ended =>
    obtain ⟨n, left, store, halted⟩ :=
      finish_on_trail host setting fuel fuel state (.running (.start memory script scope))
    obtain ⟨state', memory', stands⟩ := halted v ended
    rw [stands] at left store
    obtain rfl : _ = state' := left
    exact ⟨n, memory', stands, store.symm⟩
  | @session fuel operations _ completed =>
    obtain ⟨n, left, store, halted⟩ := session_on_trail
      (tracks_use (tracks_start host setting state memory script scope) fuel operations)
    obtain ⟨state', memory', stands⟩ := halted v completed
    rw [stands] at left store
    obtain rfl : _ = state' := left
    exact ⟨n, memory', stands, store.symm⟩

end

end Stepwise
