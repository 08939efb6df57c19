import Stepwise.Proofs.Agreement
import Stepwise.Proofs.Calls

/-!
The time a host takes. A host may give the same answers later (`Host.delayed`). A run with the
slow host then stands still for some steps and otherwise does what it does with the fast one
(`stride_lags`), so that each comes by all the places the other comes by (`follows_trail`,
`leads_trail`), and nobody can tell them apart (`latency_invisible`).
-/
namespace Stepwise

variable {σ τ ι κ : Type}

/-! ## Slow hosts -/

/-- How long the answers of a host take: for how many polls the answer to each request is not
    ready, and whether such a poll wakes its consumer, which may differ with the number of requests
    so far and the number of polls still to come. -/
structure Latency where
  polls : Nat → Nat
  wakes : Nat → Nat → Bool

/-- What came of polling a job, with the job as somebody else sees it. -/
def Poll.map (job : κ → ι) : Poll κ → Poll ι
  | ready a => .ready a
  | pending k wakes => .pending (job k) wakes

/-- The host that gives the same answers later. It counts the requests. -/
def Host.delayed (host : Host σ ι) (latency : Latency) : Host (σ × Nat) (Nat × ι) where
  print state p :=
    let e := host.print state.1 p
    ⟨(e.state, state.2), (), e.cancels⟩
  start state r :=
    let e := host.start state.1 r
    ⟨(e.state, state.2 + 1), (latency.polls state.2, e.result), e.cancels⟩
  poll state job :=
    match job with
    | (left + 1, job) => ⟨state, .pending (left, job) (latency.wakes state.2 left), false⟩
    | (0, job) =>
      let e := host.poll state.1 job
      ⟨(e.state, state.2), e.result.map fun job => (0, job), e.cancels⟩

/-- What a host did, as somebody else sees it. -/
def Effect.map {α β : Type} (view : τ → σ) (f : α → β) (e : Effect τ α) : Effect σ β :=
  ⟨view e.state, f e.result, e.cancels⟩

/-- One host does what another does, but for polls at which it does nothing and the job is not ready;
    there are only so many of these in a row. If it is `awake`, they wake their consumer. -/
structure Host.Lags (slow : Host τ κ) (fast : Host σ ι) (view : τ → σ) (job : κ → ι) (left : κ → Nat)
    (awake : Prop) : Prop where
  print : ∀ t p, fast.print (view t) p = (slow.print t p).map view id
  start : ∀ t r, fast.start (view t) r = (slow.start t r).map view job
  poll : ∀ t k, fast.poll (view t) (job k) = (slow.poll t k).map view (Poll.map job) ∨
    ∃ k' wakes, slow.poll t k = ⟨t, .pending k' wakes, false⟩ ∧ job k' = job k ∧ left k' < left k ∧
      (awake → wakes = true)

theorem lags_delayed (host : Host σ ι) (latency : Latency) :
    (host.delayed latency).Lags host Prod.fst Prod.snd Prod.fst (∀ requests left, latency.wakes requests left = true) := by
  refine ⟨fun _ _ => rfl, fun _ _ => rfl, ?_⟩
  rintro t ⟨left, job⟩
  cases left with
  | zero =>
    left
    simp only [Host.delayed, Effect.map]
    generalize host.poll t.1 job = e
    obtain ⟨state, result, cancels⟩ := e
    cases result <;> rfl
  | succ left => exact .inr ⟨(left, job), _, rfl, rfl, Nat.lt_succ_self left, fun awake => awake _ _⟩

variable {slow : Host τ κ} {fast : Host σ ι} {view : τ → σ} {job : κ → ι} {left : κ → Nat} {awake : Prop}

theorem lags_recording (lags : slow.Lags fast view job left awake) :
    slow.recording.Lags fast.recording (Prod.map view id) job left awake := by
  refine ⟨fun t p => ?_, fun t r => ?_, fun t k => ?_⟩
  · simp only [Host.recording, Prod.map_fst, lags.print]
    rfl
  · simp only [Host.recording, Prod.map_fst, lags.start]
    rfl
  · rcases lags.poll t.1 k with same | ⟨k', wakes, late, rest⟩
    · left
      simp only [Host.recording, Prod.map_fst, same]
      rfl
    · right
      refine ⟨k', wakes, ?_, rest⟩
      simp only [Host.recording, late]

/-! ## Slow runs -/

/-- A run with its job as somebody else sees it. -/
def Progress.map (job : κ → ι) : Progress κ → Progress ι
  | running m => .running m
  | waiting k w => .waiting (job k) w

/-- Where a step leads, as somebody else sees it. -/
def Stride.map (job : κ → ι) : Stride κ → Stride ι
  | on p => .on (p.map job)
  | pass c p => .pass c (p.map job)
  | wait wakes p => .wait wakes (p.map job)
  | finish v memory => .finish v memory

/-- What can be seen at a checkpoint, as somebody else sees it. -/
def Stop.map (view : τ → σ) (stop : Stop τ) : Stop σ :=
  ⟨stop.checkpoint, view stop.state, stop.memory⟩

/-- Where a run stands, as somebody else sees it. -/
def Standing.map (view : τ → σ) (job : κ → ι) : Standing τ κ → Standing σ ι
  | underway t p => .underway (view t) (p.map job)
  | ended t v memory => .ended (view t) v memory

/-- How much is left of the delay a run is in. -/
def Progress.delay (left : κ → Nat) : Progress κ → Nat
  | running _ => 0
  | waiting k _ => left k

@[simp] theorem memory_map (p : Progress κ) : (p.map job).memory = p.memory := by
  cases p <;> rfl

@[simp] theorem state_map (s : Standing τ κ) : (s.map view job).state = view s.state := by
  cases s <;> rfl

variable {setting : Setting}

/-- A step with the slow host is a step with the fast one, or nothing happens. -/
theorem stride_lags (lags : slow.Lags fast view job left awake) (setting : Setting) (t : τ) (p : Progress κ) :
    (p.map job).stride fast setting (view t) = (p.stride slow setting t).map view (Stride.map job) ∨
      ∃ p' wakes, p.stride slow setting t = ⟨t, .wait wakes p', false⟩ ∧ p'.map job = p.map job ∧
        p'.delay left < p.delay left ∧ (awake → wakes = true) := by
  cases p with
  | running m =>
    left
    simp only [Progress.map, Progress.stride]
    cases m.next setting with
    | print p m => simp only [lags.print]; rfl
    | ask r w => simp only [lags.start]; rfl
    | _ => rfl
  | waiting k w =>
    rcases lags.poll t k with same | ⟨k', wakes, late, unchanged, less, woken⟩
    · left
      simp only [Progress.map, Progress.stride, same]
      generalize slow.poll t k = e
      obtain ⟨t', result, cancels⟩ := e
      cases result <;> rfl
    · right
      refine ⟨.waiting k' w, wakes, ?_, ?_, less, woken⟩
      · simp only [Progress.stride, late]
      · simp only [Progress.map, unchanged]

/-- A piece of a run with the slow host is one of the run with the fast host, but that it may have
    had to wait for longer. -/
structure Trail.Lags (view : τ → σ) (job : κ → ι) (awake : Prop) (slow : Trail τ κ) (fast : Trail σ ι) : Prop where
  stops : fast.stops = slow.stops.map (Stop.map view)
  standing : fast.standing = slow.standing.map view job
  dozes : fast.dozes = true → slow.dozes = true
  awake : awake → slow.dozes = true → fast.dozes = true

theorem Trail.Lags.after {s s' : Trail τ κ} {f f' : Trail σ ι} (first : s.Lags view job awake f)
    (rest : s'.Lags view job awake f') :
    (s'.after s.stops s.dozes).Lags view job awake (f'.after f.stops f.dozes) := by
  refine ⟨?_, rest.standing, ?_, ?_⟩
  · simp only [Trail.after, first.stops, rest.stops, List.map_append]
  · simp only [Trail.after, Bool.or_eq_true]
    exact Or.imp first.dozes rest.dozes
  · simp only [Trail.after, Bool.or_eq_true]
    exact fun woken => Or.imp (first.awake woken) (rest.awake woken)

theorem lags_start (t : τ) (p : Progress κ) :
    (p.trail slow setting 0 t).Lags view job awake ((p.map job).trail fast setting 0 (view t)) :=
  ⟨rfl, rfl, id, fun _ => id⟩

theorem lags_add {t : τ} {s : σ} {p : Progress κ} {q : Progress ι} {n m k j : Nat}
    (first : (p.trail slow setting n t).Lags view job awake (q.trail fast setting m s))
    (rest : ((p.trail slow setting n t).standing.trail slow setting k).Lags view job awake
      (((p.trail slow setting n t).standing.map view job).trail fast setting j)) :
    (p.trail slow setting (n + k) t).Lags view job awake (q.trail fast setting (m + j) s) := by
  rw [trail_add, trail_add, first.standing]
  exact first.after rest

/-- A step that is the same with both hosts. -/
theorem lags_same {t : τ} {p : Progress κ}
    (same : (p.map job).stride fast setting (view t) = (p.stride slow setting t).map view (Stride.map job)) :
    (p.trail slow setting 1 t).Lags view job awake ((p.map job).trail fast setting 1 (view t)) := by
  simp only [Progress.trail, same]
  generalize p.stride slow setting t = e
  obtain ⟨t', result, cancels⟩ := e
  cases result with
  | on q => exact ⟨rfl, rfl, id, fun _ => id⟩
  | pass c q => exact ⟨by simp [Trail.after, Effect.map, Stride.map, Stop.map], rfl, id, fun _ => id⟩
  | wait wakes q => exact ⟨rfl, rfl, id, fun _ => id⟩
  | finish v memory => exact ⟨rfl, rfl, id, fun _ => id⟩

/-- A step at which the slow host does nothing. -/
theorem lags_late (fast : Host σ ι) {t : τ} {p p' : Progress κ} {wakes : Bool}
    (late : p.stride slow setting t = ⟨t, .wait wakes p', false⟩) (unchanged : p'.map job = p.map job)
    (woken : awake → wakes = true) :
    (p.trail slow setting 1 t).Lags view job awake ((p.map job).trail fast setting 0 (view t)) := by
  simp only [Progress.trail, late]
  refine ⟨rfl, ?_, ?_, ?_⟩
  · simp only [Trail.after, Standing.map, unchanged]
  · rintro ⟨⟩
  · intro holds
    simp [Trail.after, woken holds]

/-- What the slow run does in one step, the fast one does in one step or less. -/
theorem follows_step (lags : slow.Lags fast view job left awake) (setting : Setting) (stands : Standing τ κ) :
    ∃ j, (stands.trail slow setting 1).Lags view job awake ((stands.map view job).trail fast setting j) := by
  cases stands with
  | ended t v memory => exact ⟨0, rfl, rfl, id, fun _ => id⟩
  | underway t p =>
    rcases stride_lags lags setting t p with same | ⟨p', wakes, late, unchanged, -, woken⟩
    · exact ⟨1, lags_same same⟩
    · exact ⟨0, lags_late fast late unchanged woken⟩

/-- What the fast run does in one step, the slow one does some time. -/
theorem leads_step (lags : slow.Lags fast view job left awake) (setting : Setting) (stands : Standing τ κ) :
    ∃ k, (stands.trail slow setting k).Lags view job awake ((stands.map view job).trail fast setting 1) := by
  cases stands with
  | ended t v memory => exact ⟨0, rfl, rfl, id, fun _ => id⟩
  | underway t p =>
    induction delay : p.delay left using Nat.strongRecOn generalizing p with
    | _ delayed ih =>
      rcases stride_lags lags setting t p with same | ⟨p', wakes, late, unchanged, less, woken⟩
      · exact ⟨1, lags_same same⟩
      · obtain ⟨k, rest⟩ := ih _ (delay ▸ less) p' rfl
        have stands : (p.trail slow setting 1 t).standing = .underway t p' := by
          simp only [Progress.trail, late, Trail.after]
        have whole := lags_add (k := k) (j := 1) (lags_late fast late unchanged woken) (by rw [stands]; exact rest)
        rw [Nat.zero_add] at whole
        exact ⟨1 + k, whole⟩

/-- Wherever the slow run comes, the fast one comes, and as it goes on, so does the fast one. -/
theorem follows_trail (lags : slow.Lags fast view job left awake) {t : τ} {p : Progress κ} {n m : Nat}
    (first : (p.trail slow setting n t).Lags view job awake ((p.map job).trail fast setting m (view t))) (k : Nat) :
    ∃ j, (p.trail slow setting (n + k) t).Lags view job awake ((p.map job).trail fast setting (m + j) (view t)) := by
  induction k with
  | zero => exact ⟨0, first⟩
  | succ k ih =>
    obtain ⟨j, before⟩ := ih
    obtain ⟨i, step⟩ := follows_step lags setting (p.trail slow setting (n + k) t).standing
    have whole := lags_add before step
    rw [Nat.add_assoc, Nat.add_assoc] at whole
    exact ⟨j + i, whole⟩

/-- Wherever the fast run comes, the slow one comes. -/
theorem leads_trail (lags : slow.Lags fast view job left awake) (setting : Setting) (m : Nat) (t : τ)
    (p : Progress κ) :
    ∃ n, (p.trail slow setting n t).Lags view job awake ((p.map job).trail fast setting m (view t)) := by
  induction m with
  | zero => exact ⟨0, lags_start t p⟩
  | succ m ih =>
    obtain ⟨n, before⟩ := ih
    obtain ⟨k, step⟩ := leads_step lags setting (p.trail slow setting n t).standing
    exact ⟨n + k, lags_add before step⟩

/-! ## Runs to the end -/

section

variable {n : Nat} {t : τ} {p : Progress κ} {v : Value} {memory : Memory}

theorem settles_fast (lags : slow.Lags fast view job left awake) {t' : τ}
    (settles : p.Settles slow setting n t t' v memory) :
    ∃ m, (p.map job).Settles fast setting m (view t) (view t') v memory := by
  obtain ⟨stops, whole⟩ := settles
  obtain ⟨m, same⟩ := follows_trail lags (lags_start t p) n
  rw [Nat.zero_add, Nat.zero_add, whole] at same
  refine ⟨m, stops.map (Stop.map view), ?_⟩
  generalize (p.map job).trail fast setting m (view t) = f at same
  obtain ⟨stops', dozes, standing⟩ := f
  obtain ⟨rfl, rfl, awake, -⟩ := same
  obtain rfl : dozes = false := Bool.eq_false_iff.mpr fun dozes => by cases awake dozes
  rfl

theorem settles_slow (lags : slow.Lags fast view job left awake) (woken : awake) {s : σ}
    (settles : (p.map job).Settles fast setting n (view t) s v memory) :
    ∃ m t', view t' = s ∧ p.Settles slow setting m t t' v memory := by
  obtain ⟨stops, whole⟩ := settles
  obtain ⟨m, same⟩ := leads_trail lags setting n t p
  rw [whole] at same
  obtain ⟨-, stands, -, dozes⟩ := same
  cases ended : (p.trail slow setting m t).standing with
  | underway t' q =>
    rw [ended] at stands
    cases stands
  | ended t' v' memory' =>
    rw [ended] at stands
    cases stands
    refine ⟨m, t', rfl, (p.trail slow setting m t).stops, ?_⟩
    have awake : (p.trail slow setting m t).dozes = false := Bool.eq_false_iff.mpr fun late => by
      cases dozes woken late
    rw [← ended, ← awake]

end

/-! ## Slow sessions -/

/-- What can be seen of a session: what it has produced, the host, and, once it is completed, what
    its script remembers and the result. -/
structure Sight (σ : Type) where
  produced : List (Stop σ)
  state : σ
  memory : Memory
  result : Option Value

/-- What can be seen of a session in use. -/
def Usage.sight (u : Usage σ ι) : Sight σ :=
  ⟨u.produced, u.state, u.session.memory, u.session.result⟩

/-- What somebody else sees of a session. -/
def Sight.map (view : τ → σ) (a : Sight τ) : Sight σ :=
  ⟨a.produced.map (Stop.map view), view a.state, a.memory, a.result⟩

/-- What can be seen of a session that has gone `n` steps of its trail. -/
structure Sight.On (host : Host σ ι) (setting : Setting) (origin : σ) (p : Progress ι) (n : Nat) (a : Sight σ) :
    Prop where
  produced : (p.trail host setting n origin).stops = a.produced
  state : (p.trail host setting n origin).standing.state = a.state
  ended : ∀ v memory, (p.trail host setting n origin).standing = .ended a.state v memory ↔
    a.result = some v ∧ a.memory = memory

theorem Tracks.on {host : Host σ ι} {state : σ} {p : Progress ι} {least : Nat} {u : Usage σ ι}
    (tracks : Tracks host setting state p least u) :
    ∃ n, (u.session.cancelled = false → least ≤ n) ∧ u.sight.On host setting state p n := by
  cases tracks with
  | @underway n _ _ _ _ _ _ _ way stands far =>
    refine ⟨n, fun uncancelled => far.resolve_left (Bool.eq_false_iff.mp uncancelled), ?_⟩
    refine ⟨by rw [way]; rfl, by rw [way]; rfl, ?_⟩
    simp [way, Usage.sight]
  | @completed n _ _ _ _ _ _ _ way =>
    have later := trail_of_ended way (Nat.le_add_right n least)
    refine ⟨n + least, fun _ => Nat.le_add_left least n, by rw [later]; rfl, by rw [later]; rfl, ?_⟩
    simp [later, Usage.sight, Session.memory, Program.memory]
  | @cancelled n _ _ _ _ _ way =>
    refine ⟨n, by rintro ⟨⟩, by rw [way]; rfl, by rw [way]; rfl, ?_⟩
    simp [way, Usage.sight]

/-- What can be seen of a session with the slow host can be seen of one with the fast host. -/
theorem on_map {t : τ} {p : Progress κ} {n m : Nat} {a : Sight τ} (on : a.On slow setting t p n)
    (same : (p.trail slow setting n t).Lags view job awake ((p.map job).trail fast setting m (view t))) :
    (a.map view).On fast setting (view t) (p.map job) m := by
  refine ⟨?_, ?_, fun v memory => ?_⟩
  · rw [same.stops, on.produced]
    rfl
  · rw [same.standing, state_map, on.state]
    rfl
  · rw [same.standing]
    refine Iff.trans ?_ (on.ended v memory)
    have state := on.state
    cases stands : (p.trail slow setting n t).standing with
    | underway t' q => simp [Standing.map]
    | ended t' v' memory' =>
      rw [stands] at state
      obtain rfl : t' = a.state := state
      simp [Standing.map, Sight.map]

/-- What can be seen at one time and later: the checkpoints and what was wanted of the host are the
    first ones of those later, and once there is a result, everything stays as it is. -/
structure Sight.Begins (a b : Sight (σ × List Demand)) : Prop where
  produced : a.produced <+: b.produced
  wanted : a.state.2 <+: b.state.2
  completed : ∀ v, a.result = some v → b = a

theorem begins_of_le {host : Host σ ι} {state : σ × List Demand} {p : Progress ι} {n m : Nat}
    {a b : Sight (σ × List Demand)} (first : a.On host.recording setting state p n)
    (second : b.On host.recording setting state p m) (le : n ≤ m) : a.Begins b := by
  refine ⟨?_, ?_, ?_⟩
  · rw [← first.produced, ← second.produced]
    exact stops_prefix_of_le _ _ le _ _
  · rw [← first.state, ← second.state]
    exact record_prefix_of_le host setting le _ _
  · intro v result
    have ended := (first.ended v a.memory).mpr ⟨result, rfl⟩
    have whole : p.trail host.recording setting n state =
        ⟨a.produced, (p.trail host.recording setting n state).dozes, .ended a.state v a.memory⟩ := by
      rw [← first.produced, ← ended]
    have later := trail_of_ended whole le
    have produced := second.produced
    have stands := second.state
    have left := second.ended v a.memory
    rw [later] at produced stands left
    obtain ⟨produced', state', memory', result'⟩ := b
    obtain rfl : a.produced = produced' := produced
    obtain rfl : a.state = state' := stands
    obtain ⟨rfl, rfl⟩ := left.mp rfl
    obtain ⟨_, _, _, _⟩ := a
    cases result
    rfl

/-- A poll that has to wait for the host takes nothing from the session, so that it does not matter if
    nobody waits any longer for what it would have given. -/
theorem produced_of_pending {host : Host σ ι} {u : Usage σ ι} {fuel : Nat} {consumer : Consumer} {wakes : Bool}
    (pending : (u.poll host setting fuel consumer).2 = .pending wakes) :
    (u.poll host setting fuel consumer).1.produced = u.produced ∧
      (u.poll host setting fuel consumer).1.session.status = u.session.status ∧
        (u.poll host setting fuel consumer).1.session.result = u.session.result := by
  obtain ⟨state, ⟨status, program, slot, result, cancelled, waiter⟩, produced⟩ := u
  simp only [Usage.poll] at pending ⊢
  cases cancelled with
  | true => cases pending
  | false =>
    cases program with
    | ended memory => cases pending
    | active p =>
      simp only [Session.poll] at pending ⊢
      generalize p.poll host setting true fuel state slot false = visit at pending ⊢
      obtain ⟨state', turn, slot', cancels⟩ := visit
      cases turn with
      | finished v memory => cases pending
      | exhausted q => cases pending
      | pending woken q =>
        cases slot' with
        | some c => cases pending
        | none =>
          cases cancels with
          | true => cases pending
          | false => exact ⟨by simp [Next.stops], rfl, rfl⟩

/-! ## What a host is asked -/

theorem demand_next (setting : Setting) (m : Machine) (d : Demand) :
    (m.next setting).demand = some d ↔ m.Wants setting d := by
  constructor
  · exact wants_of_next
  · rintro ⟨callee, arguments, calls, demand⟩
    obtain ⟨memory, scope, -, -, next⟩ := next_of_calls calls
    rw [next, demand_apply, demand]

/-- Each call that wants something of the host does so exactly once, and nothing else does: a job that
    is polled, however often, wants nothing more. -/
structure AsksOnce (host : Host σ ι) (setting : Setting) (origin : σ × List Demand) (p : Progress ι) : Prop where
  wanted : ∀ n state m d, (p.trail host.recording setting n origin).standing = .underway state (.running m) →
    m.Wants setting d → (p.trail host.recording setting (n + 1) origin).standing.state.2 = state.2 ++ [d]
  unwanted : ∀ n state m, (p.trail host.recording setting n origin).standing = .underway state (.running m) →
    (∀ d, ¬ m.Wants setting d) → (p.trail host.recording setting (n + 1) origin).standing.state.2 = state.2
  polled : ∀ n state k w, (p.trail host.recording setting n origin).standing = .underway state (.waiting k w) →
    (p.trail host.recording setting (n + 1) origin).standing.state.2 = state.2

theorem asked_step (host : Host σ ι) (setting : Setting) (state : σ × List Demand) (m : Machine) :
    ((Progress.running m).trail host.recording setting 1 state).standing.state.2 =
      state.2 ++ (m.next setting).demand.toList := by
  simp only [Progress.trail, Progress.stride]
  cases m.next setting <;> simp [Move.demand, Host.recording, Trail.after, Standing.state]

theorem asks_once (host : Host σ ι) (setting : Setting) (origin : σ × List Demand) (p : Progress ι) :
    AsksOnce host setting origin p := by
  refine ⟨fun n state m d stands wants => ?_, fun n state m stands unwanted => ?_, fun n state k w stands => ?_⟩
  · rw [trail_add n 1, stands]
    refine (asked_step host setting state m).trans ?_
    rw [(demand_next setting m d).mpr wants]
    rfl
  · have nothing : (m.next setting).demand = none := by
      cases wants : (m.next setting).demand with
      | none => rfl
      | some d => exact absurd ((demand_next setting m d).mp wants) (unwanted d)
    rw [trail_add n 1, stands]
    refine (asked_step host setting state m).trans ?_
    simp [nothing]
  · rw [trail_add n 1, stands]
    simp only [Standing.trail, Trail.after, Progress.trail, Progress.stride, Host.recording]
    cases (host.poll state.1 k).result <;> rfl

/-! ## Latency -/

/-- A session for a script that has been used in some way, with a host that writes down what is wanted
    of it. -/
def Usage.recorded (host : Host σ ι) (setting : Setting) (state : σ) (memory : Memory) (script : List Stmt) (scope : FrameId)
    (fuel : Nat) (operations : List Operation) : Usage (σ × List Demand) ι :=
  (Usage.start (state, []) memory script scope).use host.recording setting fuel operations

/-- The host behind the delays, and what was wanted of it. -/
def undelayed (t : (σ × Nat) × List Demand) : σ × List Demand :=
  (t.1.1, t.2)

/-- A script cannot tell how long its host takes, nor can anybody who looks on. If it is run, it comes to
    the same value, host and memory, having wanted the same of the host in the same order (`run`), and
    it is run to the end if the host wakes its consumer (`awaited`). If it is stepped through, what
    can be seen with the one host is a part of what can be seen with the other, whatever is polled or
    awaited and however often that is given up (`compared`); nothing that can be seen with the one
    fails to be seen with the other, if only it is polled often enough (`reached`, `kept`). A poll that
    has to wait takes nothing from the session (`dropped`), and the host is asked once for each call,
    however often its job is polled (`once`). -/
structure LatencyInvisible (host : Host σ ι) (latency : Latency) (setting : Setting) (state : σ) (memory : Memory)
    (script : List Stmt) (scope : FrameId) : Prop where
  run : ∀ fuel t memory' v,
    execute (host.delayed latency).recording setting fuel ((state, 0), []) memory script scope =
        ⟨t, memory', .value v⟩ →
      ∃ fuel', execute host.recording setting fuel' (state, []) memory script scope = ⟨undelayed t, memory', .value v⟩
  awaited : (∀ requests left, latency.wakes requests left = true) → ∀ fuel s memory' v,
    execute host.recording setting fuel (state, []) memory script scope = ⟨s, memory', .value v⟩ →
      ∃ fuel' t, undelayed t = s ∧
        execute (host.delayed latency).recording setting fuel' ((state, 0), []) memory script scope =
          ⟨t, memory', .value v⟩
  compared : ∀ fuel operations fuel' operations',
    let plain := (Usage.recorded host setting state memory script scope fuel operations).sight
    let late := (Usage.recorded (host.delayed latency) setting (state, 0) memory script scope fuel' operations').sight.map undelayed
    plain.Begins late ∨ late.Begins plain
  reached : ∀ fuel operations, ∃ least, ∀ fuel' operations', least ≤ fuel' → least ≤ operations'.length →
    let plain := Usage.recorded host setting state memory script scope fuel operations
    let late := Usage.recorded (host.delayed latency) setting (state, 0) memory script scope fuel' operations'
    late.session.cancelled = false → plain.sight.Begins (late.sight.map undelayed)
  kept : ∀ fuel operations, ∃ least, ∀ fuel' operations', least ≤ fuel' → least ≤ operations'.length →
    let late := Usage.recorded (host.delayed latency) setting (state, 0) memory script scope fuel operations
    let plain := Usage.recorded host setting state memory script scope fuel' operations'
    plain.session.cancelled = false → (late.sight.map undelayed).Begins plain.sight
  dropped : ∀ fuel operations fuel' consumer wakes,
    let late := Usage.recorded (host.delayed latency) setting (state, 0) memory script scope fuel operations
    let polled := late.poll (host.delayed latency).recording setting fuel' consumer
    polled.2 = .pending wakes → polled.1.produced = late.produced ∧ polled.1.session.status = late.session.status ∧
      polled.1.session.result = late.session.result
  once : AsksOnce (host.delayed latency) setting ((state, 0), []) (.running (.start memory script scope))

/-- However long a host takes over its answers, nobody can tell. -/
theorem latency_invisible (host : Host σ ι) (latency : Latency) (setting : Setting) (state : σ) (memory : Memory)
    (script : List Stmt) (scope : FrameId) : LatencyInvisible host latency setting state memory script scope := by
  have lags := lags_recording (lags_delayed host latency)
  have plain := fun fuel operations =>
    (tracks_use (tracks_start host.recording setting (state, []) memory script scope) fuel operations).on
  have late := fun fuel operations =>
    (tracks_use (tracks_start (host.delayed latency).recording setting ((state, 0), []) memory script scope) fuel
      operations).on
  constructor
  case run =>
    intro fuel t memory' v ran
    obtain ⟨n, settles⟩ := settles_of_finish ran
    obtain ⟨m, settled⟩ := settles_fast lags settles
    exact ⟨m, finish_of_settles settled (Nat.le_refl m) (Nat.le_refl m)⟩
  case awaited =>
    intro awake fuel s memory' v ran
    obtain ⟨n, settles⟩ := settles_of_finish ran
    obtain ⟨m, t, seen, settled⟩ := settles_slow (t := ((state, 0), [])) (p := .running (.start memory script scope))
      lags awake settles
    exact ⟨m, t, seen, finish_of_settles settled (Nat.le_refl m) (Nat.le_refl m)⟩
  case compared =>
    intro fuel operations fuel' operations'
    obtain ⟨n, -, first⟩ := plain fuel operations
    obtain ⟨k, -, second⟩ := late fuel' operations'
    obtain ⟨m, same⟩ := follows_trail lags (lags_start _ _) k
    rw [Nat.zero_add, Nat.zero_add] at same
    have seen := on_map second same
    rcases Nat.le_total n m with le | le
    · exact .inl (begins_of_le first seen le)
    · exact .inr (begins_of_le seen first le)
  case reached =>
    intro fuel operations
    obtain ⟨n, -, first⟩ := plain fuel operations
    obtain ⟨k, before⟩ := leads_trail lags setting n ((state, 0), []) (.running (.start memory script scope))
    refine ⟨k, fun fuel' operations' steps many uncancelled => ?_⟩
    obtain ⟨k', far, second⟩ := late fuel' operations'
    obtain ⟨more, rfl⟩ := Nat.exists_eq_add_of_le (show k ≤ k' by have := far uncancelled; omega)
    obtain ⟨j, same⟩ := follows_trail lags before more
    exact begins_of_le first (on_map second same) (Nat.le_add_right n j)
  case kept =>
    intro fuel operations
    obtain ⟨k, -, first⟩ := late fuel operations
    obtain ⟨m, same⟩ := follows_trail lags (lags_start _ _) k
    rw [Nat.zero_add, Nat.zero_add] at same
    refine ⟨m, fun fuel' operations' steps many uncancelled => ?_⟩
    obtain ⟨n, far, second⟩ := plain fuel' operations'
    exact begins_of_le (on_map first same) second (by have := far uncancelled; omega)
  case dropped => exact fun _ _ _ _ _ pending => produced_of_pending pending
  case once => exact asks_once _ _ _ _

/-- An answer that is there at the third poll: only then is there a checkpoint. -/
example :
    let late (polls : Nat) : Usage ((Rehearsal.State × Nat) × List Demand) (Nat × Rehearsal.Job) :=
      .recorded (Rehearsal.host.delayed ⟨fun _ => 2, fun _ _ => false⟩) ⟨1000, .empty⟩
        (.start (some [.now (some (.bool true))]), 0) Memory.start.1
        [.declare ⟨1, 1, 0⟩ "x" .bool (some (.call (.name "Input") []))] Memory.start.2 100
        (List.replicate polls (.poll 0))
    (late 2).produced.length = 0 ∧ (late 3).produced.length = 1 := by
  exact ⟨rfl, rfl⟩

end Stepwise
