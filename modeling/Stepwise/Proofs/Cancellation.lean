import Stepwise.Proofs.Quiet
import Stepwise.Rehearsal.Host

/-!
Cancellation. A session that was asked to stop does nothing any more, whatever is done with
it (`frozen_of_cancelled`), and wherever that leaves it, the same session comes by if nobody
asks it to stop (`cancellable_use`). So that what a script asks of its host can be compared,
the host writes it down.
-/
namespace Stepwise

variable {σ ι : Type} {host : Host σ ι} {setting : Setting}

/-! ## What a host is asked -/

/-- What a script wants of its host. -/
inductive Demand where
  | print (p : Primitive)
  | answer (r : Request)

/-- The host that does the same and writes down what is wanted of it. -/
def Host.recording (host : Host σ ι) : Host (σ × List Demand) ι where
  print state p :=
    let e := host.print state.1 p
    ⟨(e.state, state.2 ++ [.print p]), (), e.cancels⟩
  start state r :=
    let e := host.start state.1 r
    ⟨(e.state, state.2 ++ [.answer r]), e.result, e.cancels⟩
  poll state job :=
    let e := host.poll state.1 job
    ⟨(e.state, state.2), e.result, e.cancels⟩

theorem record_stride (host : Host σ ι) (setting : Setting) (state : σ × List Demand) (p : Progress ι) :
    state.2 <+: (p.stride host.recording setting state).state.2 := by
  cases p with
  | running m =>
    simp only [Progress.stride]
    cases m.next setting with
    | print p m => exact List.prefix_append _ _
    | ask r w => exact List.prefix_append _ _
    | _ => exact List.prefix_refl _
  | waiting job w =>
    simp only [Progress.stride, Host.recording]
    cases (host.poll state.1 job).result <;> exact List.prefix_refl _

theorem record_trail (host : Host σ ι) (setting : Setting) (n : Nat) (state : σ × List Demand) (p : Progress ι) :
    state.2 <+: (p.trail host.recording setting n state).standing.state.2 := by
  induction n generalizing state p with
  | zero => exact List.prefix_refl _
  | succ n ih =>
    have grown := record_stride host setting state p
    simp only [Progress.trail]
    cases (p.stride host.recording setting state).result with
    | on q => exact grown.trans (ih _ q)
    | pass c q => exact grown.trans (ih _ q)
    | wait wakes q => exact grown.trans (ih _ q)
    | finish v memory => exact grown

/-- What was written down on a piece of a trail begins what is written down on a longer one. -/
theorem record_prefix_of_le (host : Host σ ι) (setting : Setting) {n k : Nat} (le : n ≤ k) (state : σ × List Demand)
    (p : Progress ι) :
    (p.trail host.recording setting n state).standing.state.2 <+:
      (p.trail host.recording setting k state).standing.state.2 := by
  obtain ⟨more, rfl⟩ := Nat.exists_eq_add_of_le le
  rw [trail_add]
  generalize p.trail host.recording setting n state = t
  obtain ⟨stops, dozes, standing⟩ := t
  cases standing with
  | underway state' q => exact record_trail host setting more state' q
  | ended state' v memory => exact List.prefix_refl _

/-! ## Stopping -/

/-- What stopping does to a session: its frames stay as they are, and unless it is completed
    already, it is cancelled and has no result. -/
structure Session.Stops (s s' : Session ι) : Prop where
  store : s'.memory.store = s.memory.store
  completed : s.status = .completed → s'.status = .completed ∧ s'.result = s.result
  cancelled : s.status ≠ .completed → s'.status = .cancelled ∧ s'.result = none

@[simp] theorem store_stop (s : Session ι) : s.stop.memory.store = s.memory.store := by
  obtain ⟨status, program, slot, result, cancelled, waiter⟩ := s
  rw [Session.stop]
  split
  · rfl
  · cases program <;> rfl

@[simp] theorem cancelled_stop (s : Session ι) : s.stop.cancelled = s.cancelled := by
  rw [Session.stop]
  split <;> rfl

theorem stops_stop {state₀ : σ} {p₀ : Progress ι} {least : Nat} {u : Usage σ ι}
    (tracks : Tracks host setting state₀ p₀ least u) : u.session.Stops u.session.stop := by
  refine ⟨store_stop u.session, ?_, ?_⟩
  · intro completed
    rw [Session.stop, completed]
    exact ⟨completed, rfl⟩
  · intro uncompleted
    cases tracks with
    | underway way stands =>
      simp only [Session.stop, stands.nonterminal]
      exact ⟨rfl, rfl⟩
    | completed way => exact absurd rfl uncompleted
    | cancelled way => exact ⟨rfl, rfl⟩

/-- Between two uses of a session nothing has happened, and it stays asked to stop. -/
structure Usage.Still (u u' : Usage σ ι) : Prop where
  asked : u'.session.cancelled = true
  state : u'.state = u.state
  produced : u'.produced = u.produced
  store : u'.session.memory.store = u.session.memory.store

/-- A session that nothing can move: each call gives nothing and leaves it stopped, and
    whatever is done, the host, the frames and what was produced stay as they are. -/
structure Usage.Frozen (host : Host σ ι) (setting : Setting) (u : Usage σ ι) : Prop where
  poll : ∀ fuel consumer,
    u.session.poll host setting fuel consumer u.state = (u.state, u.session.stop, .none)
  next : ∀ fuel consumer rounds,
    u.session.next host setting fuel consumer (rounds + 1) u.state = (u.state, u.session.stop, .none)
  runToEnd : ∀ fuel consumer rounds,
    u.session.runToEnd host setting (fuel + 1) consumer (rounds + 1) u.state = (u.state, u.session.stop, .none)
  stops : u.session.Stops u.session.stop
  still : ∀ fuel operations, u.Still (u.use host setting fuel operations)

theorem next_of_cancelled {s : Session ι} (asked : s.cancelled = true) (fuel : Nat) (consumer : Consumer)
    (rounds : Nat) (state : σ) :
    s.next host setting fuel consumer (rounds + 1) state = (state, s.stop, .none) := by
  rw [Session.next, poll_of_cancelled asked]

theorem runToEnd_of_cancelled {s : Session ι} (asked : s.cancelled = true) (fuel : Nat) (consumer : Consumer)
    (rounds : Nat) (state : σ) :
    s.runToEnd host setting (fuel + 1) consumer (rounds + 1) state = (state, s.stop, .none) := by
  rw [Session.runToEnd, next_of_cancelled asked]

theorem still_stop {u u' : Usage σ ι} (still : u.Still u') : u.Still { u' with session := u'.session.stop } :=
  ⟨by simpa using still.asked, still.state, still.produced, by simpa using still.store⟩

theorem still_perform (host : Host σ ι) (setting : Setting) {u u' : Usage σ ι} (still : u.Still u') (fuel : Nat)
    (op : Operation) :
    u.Still (u'.perform host setting fuel op) := by
  refine perform_preserves (P := u.Still) ?_ ?_ ?_ op still
  · intro consumer u' still
    have stopped := still_stop still
    rw [Usage.poll, poll_of_cancelled still.asked]
    simpa [Next.stops] using stopped
  · intro u' still
    have asked : u.Still { u' with session := u'.session.signal.1 } :=
      ⟨rfl, still.state, still.produced, still.store⟩
    exact still_stop asked
  · exact fun u' still => ⟨rfl, still.state, still.produced, still.store⟩

theorem still_use (host : Host σ ι) (setting : Setting) {u : Usage σ ι} (asked : u.session.cancelled = true)
    (fuel : Nat) (operations : List Operation) : u.Still (u.use host setting fuel operations) :=
  use_preserves (P := u.Still) (fun op _ still => still_perform host setting still fuel op) operations
    ⟨asked, rfl, rfl, rfl⟩

theorem frozen_of_cancelled {state₀ : σ} {p₀ : Progress ι} {least : Nat} {u : Usage σ ι}
    (tracks : Tracks host setting state₀ p₀ least u) (asked : u.session.cancelled = true) :
    u.Frozen host setting :=
  ⟨fun fuel consumer => poll_of_cancelled asked fuel consumer _,
    fun fuel consumer rounds => next_of_cancelled asked fuel consumer rounds _,
    fun fuel consumer rounds => runToEnd_of_cancelled asked fuel consumer rounds _, stops_stop tracks,
    fun fuel operations => still_use host setting asked fuel operations⟩

/-! ## The session without cancellation -/

/-- A session that nobody asks to stop, and one that is where the other is, as far as the
    script can tell; as long as it is not asked to stop either, they are the same. -/
structure Usage.Shadows (w u : Usage σ ι) : Prop where
  uncancelled : w.session.cancelled = false
  state : w.state = u.state
  produced : w.produced = u.produced
  store : w.session.memory.store = u.session.memory.store
  same : u.session.cancelled = false → w.session = u.session

theorem Usage.Shadows.eq {w u : Usage σ ι} (shadows : w.Shadows u) (uncancelled : u.session.cancelled = false) :
    w = u := by
  obtain ⟨state, session, produced⟩ := w
  obtain ⟨state', session', produced'⟩ := u
  obtain ⟨-, rfl, rfl, -, same⟩ := shadows
  obtain rfl : session = session' := same uncancelled
  rfl

theorem shadows_poll {w u : Usage σ ι} (shadows : w.Shadows u) (uncancelled : u.session.cancelled = false)
    (fuel : Nat) (consumer : Consumer) :
    (w.poll host.calm setting fuel consumer).1.Shadows (u.poll host setting fuel consumer).1 := by
  obtain rfl := shadows.eq uncancelled
  obtain ⟨state, ⟨status, program, slot, result, cancelled, waiter⟩, produced⟩ := w
  obtain rfl : cancelled = false := uncancelled
  cases program with
  | ended memory => exact ⟨rfl, rfl, rfl, rfl, fun _ => rfl⟩
  | active p =>
    simp only [Usage.poll, Session.poll]
    rw [poll_calm true fuel state slot false p]
    obtain ⟨state', turn, slot', cancels⟩ := p.poll host setting true fuel state slot false
    cases turn with
    | finished v memory => exact ⟨rfl, rfl, rfl, rfl, by rintro ⟨⟩; rfl⟩
    | exhausted q => exact ⟨rfl, rfl, rfl, rfl, by rintro ⟨⟩; rfl⟩
    | pending wakes q =>
      cases slot' with
      | some c => exact ⟨rfl, rfl, rfl, rfl, by rintro ⟨⟩; rfl⟩
      | none =>
        cases cancels with
        | false => exact ⟨rfl, rfl, rfl, rfl, fun _ => rfl⟩
        | true =>
          have left := store_stop (Session.mk status (.active q) none result true (some consumer))
          simp only [Bool.false_eq_true, ↓reduceIte]
          exact ⟨rfl, rfl, rfl, left.symm, by simp⟩

/-- Whatever is done with a session, the session that is only polled, with nobody asking it to
    stop, comes by where it is. -/
theorem shadows_perform {origin u : Usage σ ι} {fuel : Nat}
    (shadowed : ∃ polls : List Consumer, (origin.use host.calm setting fuel (polls.map .poll)).Shadows u)
    (op : Operation) :
    ∃ polls : List Consumer,
      (origin.use host.calm setting fuel (polls.map .poll)).Shadows (u.perform host setting fuel op) := by
  refine perform_preserves (P := fun u => ∃ polls : List Consumer,
    (origin.use host.calm setting fuel (polls.map .poll)).Shadows u) ?_ ?_ ?_ op shadowed
  · rintro consumer u ⟨polls, shadows⟩
    by_cases asked : u.session.cancelled = true
    · -- The shadow waits where the other one was asked to stop.
      rw [Usage.poll, poll_of_cancelled asked]
      refine ⟨polls, shadows.uncancelled, shadows.state, ?_, ?_, by simp [asked]⟩
      · simpa [Next.stops] using shadows.produced
      · exact shadows.store.trans (store_stop u.session).symm
    · rw [Bool.not_eq_true] at asked
      refine ⟨polls ++ [consumer], ?_⟩
      rw [List.map_append, use_append]
      exact shadows_poll shadows asked fuel consumer
  · rintro u ⟨polls, shadows⟩
    refine ⟨polls, shadows.uncancelled, shadows.state, shadows.produced, ?_, ?_⟩
    · exact shadows.store.trans (store_stop u.session.signal.1).symm
    · simp [Session.cancel, Session.signal]
  · rintro u ⟨polls, shadows⟩
    exact ⟨polls, shadows.uncancelled, shadows.state, shadows.produced, shadows.store, by simp [Session.signal]⟩

theorem shadows_use (host : Host σ ι) (setting : Setting) (fuel : Nat) {origin : Usage σ ι}
    (uncancelled : origin.session.cancelled = false) (operations : List Operation) :
    ∃ polls : List Consumer,
      (origin.use host.calm setting fuel (polls.map .poll)).Shadows (origin.use host setting fuel operations) := by
  have start : ∃ polls : List Consumer, (origin.use host.calm setting fuel (polls.map .poll)).Shadows origin :=
    ⟨[], uncancelled, rfl, rfl, rfl, fun _ => rfl⟩
  exact use_preserves (P := fun u => ∃ polls : List Consumer,
    (origin.use host.calm setting fuel (polls.map .poll)).Shadows u)
    (fun op _ shadowed => shadows_perform shadowed op) operations start

/-- As soon as a session is asked to stop, also in the middle of an operation, nothing more
    happens. -/
theorem still_singles (host : Host σ ι) (setting : Setting) (fuel : Nat) (operations : List Operation)
    (origin : Usage σ ι) :
    ∃ singles : List Operation, (∀ op ∈ singles, op.isSingle) ∧
      origin.use host setting fuel singles = origin.use host setting fuel operations ∧
      ∀ first rest, singles = first ++ rest → (origin.use host setting fuel first).session.cancelled = true →
        (origin.use host setting fuel first).Still (origin.use host setting fuel operations) := by
  obtain ⟨singles, all, same⟩ := becomes_use host setting fuel operations origin
  refine ⟨singles, all, same, ?_⟩
  rintro first rest rfl asked
  rw [← same, use_append]
  exact still_use host setting asked fuel rest

/-- What it means for `u`, which `origin` has become, that a session can be cancelled. Once it
    was asked to stop it is frozen, also if that was in the middle of an operation, and to
    cancel it stops it at once. Asked or not, the session that nobody asks to stop comes by
    the same place, and however it is used, it produces and wants of its host what `u` has
    before anything else. -/
structure Usage.Cancellable (host : Host (σ × List Demand) ι) (setting : Setting) (fuel : Nat)
    (origin u : Usage (σ × List Demand) ι) : Prop where
  frozen : u.session.cancelled = true → u.Frozen host setting
  midway : ∃ singles : List Operation, (∀ op ∈ singles, op.isSingle) ∧ origin.use host setting fuel singles = u ∧
    ∀ first rest, singles = first ++ rest → (origin.use host setting fuel first).session.cancelled = true →
      (origin.use host setting fuel first).Still u
  cancel : u.session.Stops u.session.cancel
  comes : ∃ polls : List Consumer, (origin.use host.calm setting fuel (polls.map .poll)).Shadows u
  goes : ∃ least, ∀ fuel' operations, least ≤ fuel' → least ≤ operations.length →
    (origin.use host.calm setting fuel' operations).session.cancelled = false →
    u.produced <+: (origin.use host.calm setting fuel' operations).produced ∧
      u.state.2 <+: (origin.use host.calm setting fuel' operations).state.2

/-- Whatever is done with a session, by the consumer or by the host, it can be cancelled. -/
theorem cancellable_use (host : Host σ ι) (setting : Setting) (fuel : Nat) (state : σ) (memory : Memory)
    (script : List Stmt) (scope : FrameId) (operations : List Operation) :
    (Usage.start (state, []) memory script scope).Cancellable host.recording setting fuel
      ((Usage.start (state, []) memory script scope).use host.recording setting fuel operations) := by
  have tracks := tracks_use (tracks_start host.recording setting (state, []) memory script scope) fuel operations
  refine ⟨frozen_of_cancelled tracks, still_singles _ _ _ _ _, ?_, shadows_use _ _ _ rfl operations, ?_⟩
  · have stops := stops_stop (tracks_signal tracks 0)
    exact ⟨stops.store, stops.completed, stops.cancelled⟩
  · obtain ⟨n, produced, wanted⟩ := tracks.place
    refine ⟨n, fun fuel' operations' steps many uncancelled => ?_⟩
    have tracks' := tracks_use (tracks_start host.recording.calm setting (state, []) memory script scope) fuel'
      operations'
    obtain ⟨k, far, produced', wanted'⟩ := tracks'.far uncancelled
    have le : n ≤ k := by omega
    rw [← produced, ← wanted, ← produced', ← wanted', trail_calm]
    exact ⟨stops_prefix_of_le _ _ le _ _, record_prefix_of_le host setting le _ _⟩

/-- A session that the host asks to stop while it answers: the checkpoint behind the answer is
    still produced, and then nothing runs any more. -/
theorem frozen_by_host :
    ((Usage.start (.start (some [.cancelThen (some (.bool true))]), []) Memory.start.1
      [.declare ⟨1, 1, 0⟩ "x" .bool (some (.call (.name "Input") [])), .evaluate ⟨2, 1, 20⟩ (.name "x")]
      Memory.start.2).use Rehearsal.host.recording ⟨1000, .empty⟩ 100 [.next 0]).session.status = .suspended ∧
    ((Usage.start (.start (some [.cancelThen (some (.bool true))]), []) Memory.start.1
      [.declare ⟨1, 1, 0⟩ "x" .bool (some (.call (.name "Input") [])), .evaluate ⟨2, 1, 20⟩ (.name "x")]
      Memory.start.2).use Rehearsal.host.recording ⟨1000, .empty⟩ 100 [.next 0]).Frozen
        Rehearsal.host.recording ⟨1000, .empty⟩ :=
  ⟨by rfl, (cancellable_use Rehearsal.host ⟨1000, .empty⟩ 100 _ _ _ _ [.next 0]).frozen (by rfl)⟩

end Stepwise
