import Stepwise.Execution

/-!
The trail of a run: the checkpoints it passes and where it stands after any number
of steps. Whoever lets a run go on, and in however many polls, only cuts its trail
into pieces (`polled_poll`), and any two pieces that begin at the same place agree as
far as both go (`trail_add`).
-/
namespace Stepwise

/-- What can be seen when a run passes a checkpoint: the checkpoint, the host and what
    the script remembers, all of it as the statement has left it. -/
structure Stop (σ : Type) where
  checkpoint : Checkpoint
  state : σ
  memory : Memory

/-- Where a run and its host stand. -/
inductive Standing (σ ι : Type) where
  | underway (state : σ) (p : Progress ι)
  | ended (state : σ) (v : Value) (memory : Memory)

/-- The host where a run stands. -/
def Standing.state {σ ι : Type} : Standing σ ι → σ
  | underway state _ => state
  | ended state _ _ => state

/-- What a script remembers where its run stands. -/
def Standing.memory {σ ι : Type} : Standing σ ι → Memory
  | underway _ p => p.memory
  | ended _ _ memory => memory

/-- What holds where a run stands: `P` as long as it is under way, `Q` once it has ended. -/
def Standing.Holds {σ ι : Type} (P : σ → Progress ι → Prop) (Q : σ → Value → Memory → Prop) : Standing σ ι → Prop
  | underway state p => P state p
  | ended state v memory => Q state v memory

/-- What holds where a step of a run leads. -/
def Stride.Holds {σ ι : Type} (P : σ → Progress ι → Prop) (Q : σ → Value → Memory → Prop) (state : σ) :
    Stride ι → Prop
  | on p | pass _ p | wait _ p => P state p
  | finish v memory => Q state v memory

/-- A piece of a run: the checkpoints it passed, whether it had to wait for a job that
    did not wake anybody, and where it stands. -/
structure Trail (σ ι : Type) where
  stops : List (Stop σ)
  dozes : Bool
  standing : Standing σ ι

section

variable {σ ι : Type} {host : Host σ ι} {setting : Setting}

/-- A piece of a run with what came before it. -/
def Trail.after (stops : List (Stop σ)) (dozes : Bool) (t : Trail σ ι) : Trail σ ι :=
  ⟨stops ++ t.stops, dozes || t.dozes, t.standing⟩

/-- The trail of a run for a number of steps. A job that is not ready is polled again. -/
def Progress.trail (host : Host σ ι) (setting : Setting) : Nat → σ → Progress ι → Trail σ ι
  | 0, state, p => ⟨[], false, .underway state p⟩
  | n + 1, state, p =>
    let e := p.stride host setting state
    match e.result with
    | .on p => trail host setting n e.state p
    | .pass c p => (trail host setting n e.state p).after [⟨c, e.state, p.memory⟩] false
    | .wait wakes p => (trail host setting n e.state p).after [] (!wakes)
    | .finish v memory => ⟨[], false, .ended e.state v memory⟩

/-- The trail from where a run stands. -/
def Standing.trail (host : Host σ ι) (setting : Setting) (n : Nat) : Standing σ ι → Trail σ ι
  | underway state p => p.trail host setting n state
  | ended state v memory => ⟨[], false, .ended state v memory⟩

@[simp] theorem Trail.after_nil (t : Trail σ ι) : t.after [] false = t := by
  simp [Trail.after]

/-! ## Pieces of a trail -/

theorem trail_add (n k : Nat) (state : σ) (p : Progress ι) :
    p.trail host setting (n + k) state =
      ((p.trail host setting n state).standing.trail host setting k).after
        (p.trail host setting n state).stops (p.trail host setting n state).dozes := by
  induction n generalizing state p with
  | zero => simp [Progress.trail, Standing.trail]
  | succ n ih =>
    rw [Nat.succ_add]
    simp only [Progress.trail]
    cases (p.stride host setting state).result with
    | on q => exact ih _ q
    | pass c q => simp [ih _ q, Trail.after]
    | wait wakes q => simp [ih _ q, Trail.after, Bool.or_assoc]
    | finish v memory => simp [Standing.trail]

/-- A piece of a trail goes on with the trail from where it stands. -/
theorem trail_of_piece {n k : Nat} {state state' : σ} {p q : Progress ι} {stops : List (Stop σ)} {dozes : Bool}
    {rest : Trail σ ι} (piece : p.trail host setting n state = ⟨stops, dozes, .underway state' q⟩)
    (next : q.trail host setting k state' = rest) :
    p.trail host setting (n + k) state = rest.after stops dozes := by
  rw [trail_add, piece]
  simp only [Standing.trail, next]

/-- A trail that has come to its end does not get longer. -/
theorem trail_of_ended {n k : Nat} {state state' : σ} {p : Progress ι} {stops : List (Stop σ)} {dozes : Bool}
    {v : Value} {memory : Memory}
    (whole : p.trail host setting n state = ⟨stops, dozes, .ended state' v memory⟩) (le : n ≤ k) :
    p.trail host setting k state = ⟨stops, dozes, .ended state' v memory⟩ := by
  obtain ⟨more, rfl⟩ := Nat.exists_eq_add_of_le le
  rw [trail_add, whole]
  simp [Standing.trail, Trail.after]

/-- A run that is under way after some steps comes to its end later, if at all. -/
theorem lt_of_underway_of_ended {n k : Nat} {state state₁ state₂ : σ} {p q : Progress ι}
    {stops₁ stops₂ : List (Stop σ)} {a b : Bool} {v : Value} {memory : Memory}
    (piece : p.trail host setting n state = ⟨stops₁, a, .underway state₁ q⟩)
    (whole : p.trail host setting k state = ⟨stops₂, b, .ended state₂ v memory⟩) : n < k := by
  refine Nat.lt_of_not_le fun le => ?_
  rw [trail_of_ended whole le] at piece
  cases piece

/-- A run comes to one end only. -/
theorem ended_unique {n k : Nat} {state state₁ state₂ : σ} {p : Progress ι} {v₁ v₂ : Value} {memory₁ memory₂ : Memory}
    (first : (p.trail host setting n state).standing = .ended state₁ v₁ memory₁)
    (second : (p.trail host setting k state).standing = .ended state₂ v₂ memory₂) :
    Standing.ended (ι := ι) state₁ v₁ memory₁ = .ended state₂ v₂ memory₂ := by
  have one : (p.trail host setting (n + k) state).standing = .ended state₁ v₁ memory₁ := by
    rw [trail_add, first]
    rfl
  have other : (p.trail host setting (k + n) state).standing = .ended state₂ v₂ memory₂ := by
    rw [trail_add, second]
    rfl
  rw [Nat.add_comm] at other
  exact one.symm.trans other

/-- The stops of a trail are the first of those of a longer one. -/
theorem stops_prefix_of_le (host : Host σ ι) (setting : Setting) {n k : Nat} (le : n ≤ k) (state : σ)
    (p : Progress ι) :
    (p.trail host setting n state).stops <+: (p.trail host setting k state).stops := by
  obtain ⟨more, rfl⟩ := Nat.exists_eq_add_of_le le
  rw [trail_add]
  exact List.prefix_append _ _

/-- What every step of a run preserves holds all along its trail. -/
theorem holds_trail {P : σ → Progress ι → Prop} {Q : σ → Value → Memory → Prop} {state : σ} {p : Progress ι}
    (start : P state p)
    (step : ∀ n state' q, (p.trail host setting n state).standing = .underway state' q → P state' q →
      (q.stride host setting state').result.Holds P Q (q.stride host setting state').state) (n : Nat) :
    (p.trail host setting n state).standing.Holds P Q := by
  induction n with
  | zero => exact start
  | succ n ih =>
    rw [trail_add n 1]
    cases stands : (p.trail host setting n state).standing with
    | underway state' q =>
      rw [stands] at ih
      have next := step n state' q stands ih
      simp only [Standing.trail, Progress.trail, Trail.after]
      cases leads : (q.stride host setting state').result with
      | _ => rw [leads] at next; exact next
    | ended state' v memory =>
      rw [stands] at ih
      exact ih

/-! ## Polls -/

/-- What a poll does: it goes some way along the trail of the run. A run that is stepped
    through passes no checkpoint on that way, except that it gives way behind the first. -/
inductive Polled (host : Host σ ι) (setting : Setting) (stepping : Bool) (fuel : Nat) (state : σ)
    (slot : Option Checkpoint) (p : Progress ι) : Visit σ ι → Prop where
  | finished {k : Nat} {stops : List (Stop σ)} {state' : σ} {v : Value} {memory : Memory} {cancels : Bool}
      (way : p.trail host setting k state = ⟨stops, false, .ended state' v memory⟩)
      (silent : stepping = true → stops = []) :
      Polled host setting stepping fuel state slot p ⟨state', .finished v memory, slot, cancels⟩
  | parked {k : Nat} {c : Checkpoint} {state' : σ} {q : Progress ι} {cancels : Bool} (stepped : stepping = true)
      (way : p.trail host setting (k + 1) state = ⟨[⟨c, state', q.memory⟩], false, .underway state' q⟩) :
      Polled host setting stepping fuel state slot p ⟨state', .pending false q, some c, cancels⟩
  | waiting {k : Nat} {stops : List (Stop σ)} {state' : σ} {wakes : Bool} {q : Progress ι} {cancels : Bool}
      (way : p.trail host setting (k + 1) state = ⟨stops, !wakes, .underway state' q⟩)
      (silent : stepping = true → stops = []) :
      Polled host setting stepping fuel state slot p ⟨state', .pending wakes q, slot, cancels⟩
  | exhausted {stops : List (Stop σ)} {state' : σ} {q : Progress ι} {cancels : Bool}
      (way : p.trail host setting fuel state = ⟨stops, false, .underway state' q⟩)
      (silent : stepping = true → stops = []) :
      Polled host setting stepping fuel state slot p ⟨state', .exhausted q, slot, cancels⟩

/-- One step more in front of a poll. -/
theorem Polled.behind {stepping : Bool} {fuel : Nat} {state state₁ : σ} {slot : Option Checkpoint}
    {p q : Progress ι} {visit : Visit σ ι} (before : List (Stop σ))
    (step : ∀ n, p.trail host setting (n + 1) state = (q.trail host setting n state₁).after before false)
    (silent : stepping = true → before = []) (polled : Polled host setting stepping fuel state₁ slot q visit) :
    Polled host setting stepping (fuel + 1) state slot p visit := by
  cases polled with
  | finished way quiet =>
    refine .finished (by rw [step, way]; rfl) fun stepped => ?_
    rw [silent stepped, quiet stepped]
    rfl
  | @parked k c _ r _ stepped way =>
    refine .parked (k := k + 1) stepped ?_
    rw [step, way, silent stepped]
    rfl
  | @waiting k _ _ _ _ _ way quiet =>
    refine .waiting (k := k + 1) (by rw [step, way]; rfl) fun stepped => ?_
    rw [silent stepped, quiet stepped]
    rfl
  | exhausted way quiet =>
    refine .exhausted (by rw [step, way]; rfl) fun stepped => ?_
    rw [silent stepped, quiet stepped]
    rfl

theorem polled_poll (host : Host σ ι) (setting : Setting) (stepping : Bool) (fuel : Nat) (state : σ)
    (slot : Option Checkpoint) (cancels : Bool) (p : Progress ι) :
    Polled host setting stepping fuel state slot p (p.poll host setting stepping fuel state slot cancels) := by
  induction fuel generalizing state cancels p with
  | zero => exact .exhausted rfl fun _ => rfl
  | succ fuel ih =>
    rw [Progress.poll]
    have step := fun n => Progress.trail.eq_2 host setting state p n
    cases leads : (p.stride host setting state).result with
    | on q =>
      simp only [leads] at step ⊢
      exact (ih _ _ q).behind [] (by simpa using step) fun _ => rfl
    | pass c q =>
      simp only [leads] at step ⊢
      cases stepping with
      | true => exact .parked (k := 0) rfl (step 0)
      | false => exact (ih _ _ q).behind _ step (by simp)
    | wait wakes q =>
      simp only [leads] at step ⊢
      exact .waiting (k := 0) (by rw [step 0]; simp [Progress.trail, Trail.after]) fun _ => rfl
    | finish v memory =>
      simp only [leads] at step ⊢
      exact .finished (step 0) fun _ => rfl

end

end Stepwise
