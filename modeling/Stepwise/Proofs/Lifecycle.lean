import Stepwise.Proofs.Frames
import Stepwise.Proofs.Usage

/-!
The life of a session. It begins ready, is suspended behind every checkpoint, and ends
completed or cancelled; nothing the script does shows in the frames it was given before
the session is suspended for the first time (`orderly_use`).
-/
namespace Stepwise

variable {σ ι : Type} {host : Host σ ι} {setting : Setting}

/-- What holds of a session whenever it is looked at, `origin` being the store it was
    given at its start: its status tells whether there is a result, whether there is still
    a run, and whether it has produced anything. -/
structure Orderly (origin : Store) (u : Usage σ ι) : Prop where
  result : u.session.result.isSome ↔ u.session.status = .completed
  dropped : (∃ left, u.session.program = .ended left) ↔ u.session.status.isTerminal
  empty : u.session.slot = none
  delivered : u.session.status = .suspended → u.produced ≠ []
  untouched : u.session.status = .ready → u.produced = [] ∧ origin.Keeps u.session.memory.store

/-- What may become of a session: nothing any more, once its status is terminal, and it
    is never ready again. -/
structure Session.Leads (s s' : Session ι) : Prop where
  settled : s.status.isTerminal → s'.status = s.status ∧ s'.result = s.result
  begun : s.status ≠ .ready → s'.status ≠ .ready

theorem leads_refl (s : Session ι) : s.Leads s :=
  ⟨fun _ => ⟨rfl, rfl⟩, id⟩

theorem Session.Leads.trans {first second third : Session ι} (one : first.Leads second) (two : second.Leads third) :
    first.Leads third := by
  refine ⟨fun terminal => ?_, fun left => two.begun (one.begun left)⟩
  obtain ⟨status, result⟩ := one.settled terminal
  obtain ⟨status', result'⟩ := two.settled (status ▸ terminal)
  exact ⟨status'.trans status, result'.trans result⟩

/-- A session that has not ended leads to any that is not ready. -/
theorem leads_of_unfinished {s s' : Session ι} (unfinished : s.status.isTerminal = false)
    (begun : s.status ≠ .ready → s'.status ≠ .ready) : s.Leads s' := by
  refine ⟨fun terminal => ?_, begun⟩
  rw [unfinished] at terminal
  cases terminal

/-! ## Operations -/

theorem leads_stop (s : Session ι) : s.Leads s.stop := by
  rw [Session.stop]
  split
  · exact leads_refl s
  · next unfinished => exact leads_of_unfinished (by simpa using unfinished) fun _ => by simp

theorem leads_signal (s : Session ι) : s.Leads s.signal.1 :=
  ⟨fun _ => ⟨rfl, rfl⟩, id⟩

theorem leads_handed {fuel : Nat} {state : σ} {p : Progress ι} {s : Session ι} {r : σ × Session ι × Next}
    (unfinished : s.status.isTerminal = false) (handed : Handed host setting fuel state p s r) : s.Leads r.2.1 := by
  refine leads_of_unfinished unfinished fun begun => ?_
  cases handed with
  | completed => simp
  | suspended => simp
  | waiting => exact begun
  | stopped => simp
  | exhausted => exact begun

section

variable {state₀ : σ} {p₀ : Progress ι} {least : Nat} {u : Usage σ ι}

theorem leads_poll (tracks : Tracks host setting state₀ p₀ least u) (fuel : Nat) (consumer : Consumer) :
    u.session.Leads (u.poll host setting fuel consumer).1.session := by
  by_cases asked : u.session.cancelled = true
  · rw [Usage.poll, poll_of_cancelled asked]
    exact leads_stop u.session
  · rw [Bool.not_eq_true] at asked
    cases tracks with
    | underway way stands =>
      exact leads_handed stands.nonterminal (handed_poll _ _ ⟨rfl, asked, rfl, stands.nonterminal⟩ fuel consumer _)
    | completed way =>
      rw [Usage.poll, poll_of_ended rfl asked]
      exact leads_refl _
    | cancelled way => cases asked

theorem leads_perform (tracks : Tracks host setting state₀ p₀ least u) (fuel : Nat) (op : Operation) :
    u.session.Leads (u.perform host setting fuel op).session := by
  refine (perform_preserves (P := fun u' => Tracks host setting state₀ p₀ least u' ∧ u.session.Leads u'.session)
    ?_ ?_ ?_ op ⟨tracks, leads_refl _⟩).2
  · rintro consumer u' ⟨tracks, leads⟩
    exact ⟨(tracks_poll tracks fuel consumer).mono (Nat.le_add_right _ _), leads.trans (leads_poll tracks fuel consumer)⟩
  · rintro u' ⟨tracks, leads⟩
    exact ⟨tracks_stop (tracks_signal tracks least) rfl least, (leads.trans (leads_signal _)).trans (leads_stop _)⟩
  · rintro u' ⟨tracks, leads⟩
    exact ⟨tracks_signal tracks least, leads.trans (leads_signal _)⟩

theorem leads_use (tracks : Tracks host setting state₀ p₀ least u) (fuel : Nat) (operations : List Operation) :
    u.session.Leads (u.use host setting fuel operations).session := by
  induction operations generalizing u least with
  | nil => exact leads_refl _
  | cons op rest ih => exact (leads_perform tracks fuel op).trans (ih (tracks_perform tracks fuel op))

/-- A session that follows the trail of its run is in order. -/
theorem orderly_of_tracks (tracks : Tracks host setting state₀ p₀ least u) : Orderly p₀.memory.store u := by
  cases tracks with
  | @underway n produced dozes state q status cancelled waiter way stands =>
    have kept := keeps_trail host setting n state₀ p₀
    rw [way] at kept
    rcases stands with ⟨rfl, rfl⟩ | ⟨rfl, some⟩
    · exact ⟨by simp, by simp [Status.isTerminal], rfl, by simp, fun _ => ⟨rfl, kept rfl⟩⟩
    · exact ⟨by simp, by simp [Status.isTerminal], rfl, fun _ => some, by simp⟩
  | completed way => exact ⟨by simp, by simp [Status.isTerminal], rfl, by simp, by simp⟩
  | cancelled way => exact ⟨by simp, by simp [Status.isTerminal], rfl, by simp, by simp⟩

end

/-- A session is in order after any operations, and whatever operations follow, its status
    only changes as a status may. -/
theorem orderly_use (host : Host σ ι) (setting : Setting) (fuel : Nat) (state : σ) (memory : Memory)
    (script : List Stmt) (scope : FrameId) (operations more : List Operation) :
    Orderly memory.store ((Usage.start state memory script scope).use host setting fuel operations) ∧
      ((Usage.start state memory script scope).use host setting fuel operations).session.Leads
        ((Usage.start state memory script scope).use host setting fuel (operations ++ more)).session := by
  have tracks := tracks_use (tracks_start host setting state memory script scope) fuel operations
  rw [use_append]
  exact ⟨orderly_of_tracks tracks, leads_use tracks fuel more⟩

end Stepwise
