import Stepwise.Proofs.Trail
import Stepwise.Session

/-!
Sessions in use. A consumer polls a session, awaits its next checkpoint or its end,
cancels it, or has it cancelled through its handle; whatever is done, a session is
only ever polled, cancelled or asked to stop (`perform_preserves`). A poll takes the
session some way along the trail of its run (`handed_poll`), so that what a session
has produced is always the beginning of that trail (`tracks_use`).
-/
namespace Stepwise

variable {σ ι : Type} {host : Host σ ι} {setting : Setting}

/-! ## One poll -/

/-- What a poll of a session gives, if its run is under way and nobody asked it to stop. -/
inductive Handed (host : Host σ ι) (setting : Setting) (fuel : Nat) (state : σ) (p : Progress ι) (s : Session ι) :
    σ × Session ι × Next → Prop where
  | completed {k : Nat} {state' : σ} {v : Value} {memory : Memory} {cancels : Bool} {waiter : Option Consumer}
      (way : p.trail host setting k state = ⟨[], false, .ended state' v memory⟩) :
      Handed host setting fuel state p s (state', ⟨.completed, .ended memory, none, some v, cancels, waiter⟩, .none)
  | suspended {k : Nat} {c : Checkpoint} {state' : σ} {q : Progress ι} {cancels : Bool} {waiter : Option Consumer}
      (way : p.trail host setting (k + 1) state = ⟨[⟨c, state', q.memory⟩], false, .underway state' q⟩) :
      Handed host setting fuel state p s
        (state', ⟨.suspended, .active q, none, s.result, cancels, waiter⟩, .checkpoint c)
  | waiting {k : Nat} {wakes : Bool} {state' : σ} {q : Progress ι} {waiter : Option Consumer}
      (way : p.trail host setting (k + 1) state = ⟨[], !wakes, .underway state' q⟩) :
      Handed host setting fuel state p s (state', ⟨s.status, .active q, none, s.result, false, waiter⟩, .pending wakes)
  | stopped {k : Nat} {dozes : Bool} {state' : σ} {q : Progress ι} {waiter : Option Consumer}
      (way : p.trail host setting (k + 1) state = ⟨[], dozes, .underway state' q⟩) :
      Handed host setting fuel state p s
        (state', ⟨.cancelled, .ended q.abandon, none, s.result, true, waiter⟩, .none)
  | exhausted {state' : σ} {q : Progress ι} {cancels : Bool} {waiter : Option Consumer}
      (way : p.trail host setting fuel state = ⟨[], false, .underway state' q⟩) :
      Handed host setting fuel state p s
        (state', ⟨s.status, .active q, none, s.result, cancels, waiter⟩, .exhausted)

/-- A session whose run is under way, that nobody asked to stop and whose slot is empty. -/
structure Session.Going (s : Session ι) (p : Progress ι) : Prop where
  active : s.program = .active p
  uncancelled : s.cancelled = false
  empty : s.slot = none
  unfinished : s.status.isTerminal = false

theorem handed_poll (host : Host σ ι) (setting : Setting) {s : Session ι} {p : Progress ι} (going : s.Going p)
    (fuel : Nat) (consumer : Consumer) (state : σ) :
    Handed host setting fuel state p s (s.poll host setting fuel consumer state) := by
  obtain ⟨status, program, slot, result, cancelled, waiter⟩ := s
  obtain ⟨rfl, rfl, rfl, nonterminal⟩ := going
  have polled := polled_poll host setting true fuel state none false p
  simp only [Session.poll]
  generalize p.poll host setting true fuel state none false = visit at polled ⊢
  cases polled with
  | finished way silent =>
    obtain rfl := silent rfl
    exact .completed way
  | parked _ way => exact .suspended way
  | @waiting k _ _ wakes q cancels way silent =>
    obtain rfl := silent rfl
    cases cancels with
    | false => exact .waiting way
    | true =>
      simp only [Session.stop, nonterminal]
      exact .stopped way
  | exhausted way silent =>
    obtain rfl := silent rfl
    exact .exhausted way

/-- A session that was asked to stop does so at the next poll, and nothing runs. -/
theorem poll_of_cancelled {s : Session ι} (asked : s.cancelled = true) (fuel : Nat) (consumer : Consumer)
    (state : σ) : s.poll host setting fuel consumer state = (state, s.stop, .none) := by
  obtain ⟨status, program, slot, result, cancelled, waiter⟩ := s
  obtain rfl : cancelled = true := asked
  rfl

/-- A session whose run has ended stays as it is. -/
theorem poll_of_ended {s : Session ι} {memory : Memory} (ended : s.program = .ended memory)
    (uncancelled : s.cancelled = false) (fuel : Nat) (consumer : Consumer) (state : σ) :
    s.poll host setting fuel consumer state = (state, s, .none) := by
  obtain ⟨status, program, slot, result, cancelled, waiter⟩ := s
  obtain rfl : program = .ended memory := ended
  obtain rfl : cancelled = false := uncancelled
  rfl

/-! ## Uses -/

/-- A session in use: the host, the session, and all it has produced so far. -/
structure Usage (σ ι : Type) where
  state : σ
  session : Session ι
  produced : List (Stop σ)

/-- What a poll has produced. -/
def Next.stops (state : σ) (memory : Memory) : Next → List (Stop σ)
  | checkpoint c => [⟨c, state, memory⟩]
  | _ => []

/-- What a consumer does with a session: it polls once, awaits the next checkpoint or
    the end, cancels, or asks for a cancellation through the handle. -/
inductive Operation where
  | poll (consumer : Consumer)
  | next (consumer : Consumer)
  | runToEnd (consumer : Consumer)
  | cancel
  | signal

namespace Usage

/-- A new session for a script. -/
def start (state : σ) (memory : Memory) (script : List Stmt) (scope : FrameId) : Usage σ ι :=
  ⟨state, .start memory script scope, []⟩

/-- `Session.poll`, with a record of what it produces. -/
def poll (host : Host σ ι) (setting : Setting) (fuel : Nat) (consumer : Consumer) (u : Usage σ ι) :
    Usage σ ι × Next :=
  let r := u.session.poll host setting fuel consumer u.state
  (⟨r.1, r.2.1, u.produced ++ r.2.2.stops r.1 r.2.1.memory⟩, r.2.2)

/-- `Session.next`, with a record of what it produces. -/
def next (host : Host σ ι) (setting : Setting) (fuel : Nat) (consumer : Consumer) :
    (rounds : Nat) → Usage σ ι → Usage σ ι × Next
  | 0, u => (u, .exhausted)
  | rounds + 1, u =>
    match u.poll host setting fuel consumer with
    | (u, .pending true) => next host setting fuel consumer rounds u
    | other => other

/-- `Session.runToEnd`, with a record of what it produces. -/
def runToEnd (host : Host σ ι) (setting : Setting) (fuel : Nat) (consumer : Consumer) :
    (rounds : Nat) → Usage σ ι → Usage σ ι × Next
  | 0, u => (u, .exhausted)
  | rounds + 1, u =>
    match u.next host setting fuel consumer fuel with
    | (u, .checkpoint _) => runToEnd host setting fuel consumer rounds u
    | other => other

/-- One operation on a session. -/
def perform (host : Host σ ι) (setting : Setting) (fuel : Nat) (u : Usage σ ι) : Operation → Usage σ ι
  | .poll consumer => (u.poll host setting fuel consumer).1
  | .next consumer => (u.next host setting fuel consumer fuel).1
  | .runToEnd consumer => (u.runToEnd host setting fuel consumer fuel).1
  | .cancel => { u with session := u.session.cancel }
  | .signal => { u with session := u.session.signal.1 }

/-- Operations on a session, one after the other. -/
def use (host : Host σ ι) (setting : Setting) (fuel : Nat) (operations : List Operation) (u : Usage σ ι) :
    Usage σ ι :=
  operations.foldl (perform host setting fuel) u

end Usage

/-- A record changes nothing. -/
theorem record_next (fuel : Nat) (consumer : Consumer) (rounds : Nat) (u : Usage σ ι) :
    ((u.next host setting fuel consumer rounds).1.state, (u.next host setting fuel consumer rounds).1.session,
      (u.next host setting fuel consumer rounds).2) =
      u.session.next host setting fuel consumer rounds u.state := by
  induction rounds generalizing u with
  | zero => rfl
  | succ rounds ih =>
    rw [Usage.next, Session.next]
    have same := ih (u.poll host setting fuel consumer).1
    simp only [Usage.poll] at same ⊢
    generalize u.session.poll host setting fuel consumer u.state = r at same ⊢
    obtain ⟨state, s, next⟩ := r
    cases next with
    | pending wakes =>
      cases wakes with
      | true => exact same
      | false => rfl
    | checkpoint _ => rfl
    | none => rfl
    | exhausted => rfl

theorem record_runToEnd (fuel : Nat) (consumer : Consumer) (rounds : Nat) (u : Usage σ ι) :
    ((u.runToEnd host setting fuel consumer rounds).1.state,
      (u.runToEnd host setting fuel consumer rounds).1.session,
      (u.runToEnd host setting fuel consumer rounds).2) =
      u.session.runToEnd host setting fuel consumer rounds u.state := by
  induction rounds generalizing u with
  | zero => rfl
  | succ rounds ih =>
    rw [Usage.runToEnd, Session.runToEnd, ← record_next]
    have same := ih (u.next host setting fuel consumer fuel).1
    generalize u.next host setting fuel consumer fuel = r at same ⊢
    obtain ⟨u', next⟩ := r
    cases next with
    | checkpoint _ => exact same
    | pending _ => rfl
    | none => rfl
    | exhausted => rfl

/-! ## Reduction to polls -/

section

variable {P : Usage σ ι → Prop} {fuel : Nat}

theorem next_preserves (poll : ∀ consumer u, P u → P (u.poll host setting fuel consumer).1) (consumer : Consumer)
    (rounds : Nat) {u : Usage σ ι} (holds : P u) : P (u.next host setting fuel consumer rounds).1 := by
  induction rounds generalizing u with
  | zero => exact holds
  | succ rounds ih =>
    have after := poll consumer u holds
    rw [Usage.next]
    generalize u.poll host setting fuel consumer = r at after ⊢
    split
    · exact ih after
    · exact after

theorem runToEnd_preserves (poll : ∀ consumer u, P u → P (u.poll host setting fuel consumer).1)
    (consumer : Consumer) (rounds : Nat) {u : Usage σ ι} (holds : P u) :
    P (u.runToEnd host setting fuel consumer rounds).1 := by
  induction rounds generalizing u with
  | zero => exact holds
  | succ rounds ih =>
    have after := next_preserves poll consumer fuel holds
    rw [Usage.runToEnd]
    generalize u.next host setting fuel consumer fuel = r at after ⊢
    split
    · exact ih after
    · exact after

/-- What polls, cancellations and requests to stop preserve, every operation preserves. -/
theorem perform_preserves (poll : ∀ consumer u, P u → P (u.poll host setting fuel consumer).1)
    (cancel : ∀ u : Usage σ ι, P u → P { u with session := u.session.cancel })
    (signal : ∀ u : Usage σ ι, P u → P { u with session := u.session.signal.1 }) (op : Operation)
    {u : Usage σ ι} (holds : P u) : P (u.perform host setting fuel op) := by
  cases op with
  | poll consumer => exact poll consumer u holds
  | next consumer => exact next_preserves poll consumer fuel holds
  | runToEnd consumer => exact runToEnd_preserves poll consumer fuel holds
  | cancel => exact cancel u holds
  | signal => exact signal u holds

theorem use_preserves (step : ∀ op u, P u → P (u.perform host setting fuel op)) (operations : List Operation)
    {u : Usage σ ι} (holds : P u) : P (u.use host setting fuel operations) := by
  induction operations generalizing u with
  | nil => exact holds
  | cons op rest ih => exact ih (step op u holds)

end

section

variable {P : Usage σ ι → Prop} {fuel : Nat} {host' : Host σ ι} {setting' : Setting} {u : Usage σ ι}

theorem next_congr (poll : ∀ consumer u, P u → P (u.poll host setting fuel consumer).1)
    (same : ∀ consumer u, P u → u.poll host' setting' fuel consumer = u.poll host setting fuel consumer)
    (consumer : Consumer) (rounds : Nat) (holds : P u) :
    u.next host' setting' fuel consumer rounds = u.next host setting fuel consumer rounds := by
  induction rounds generalizing u with
  | zero => rfl
  | succ rounds ih =>
    have after := poll consumer u holds
    rw [Usage.next, Usage.next, same consumer u holds]
    generalize u.poll host setting fuel consumer = r at after ⊢
    split
    · exact ih after
    · rfl

theorem runToEnd_congr (poll : ∀ consumer u, P u → P (u.poll host setting fuel consumer).1)
    (same : ∀ consumer u, P u → u.poll host' setting' fuel consumer = u.poll host setting fuel consumer)
    (consumer : Consumer) (rounds : Nat) (holds : P u) :
    u.runToEnd host' setting' fuel consumer rounds = u.runToEnd host setting fuel consumer rounds := by
  induction rounds generalizing u with
  | zero => rfl
  | succ rounds ih =>
    have after := next_preserves poll consumer fuel holds
    rw [Usage.runToEnd, Usage.runToEnd, next_congr poll same consumer fuel holds]
    generalize u.next host setting fuel consumer fuel = r at after ⊢
    split
    · exact ih after
    · rfl

/-- Where polls do the same with two hosts or in two settings, all operations do. -/
theorem perform_congr (poll : ∀ consumer u, P u → P (u.poll host setting fuel consumer).1)
    (same : ∀ consumer u, P u → u.poll host' setting' fuel consumer = u.poll host setting fuel consumer)
    (op : Operation) (holds : P u) : u.perform host' setting' fuel op = u.perform host setting fuel op := by
  cases op with
  | poll consumer => exact congrArg Prod.fst (same consumer u holds)
  | next consumer => exact congrArg Prod.fst (next_congr poll same consumer fuel holds)
  | runToEnd consumer => exact congrArg Prod.fst (runToEnd_congr poll same consumer fuel holds)
  | cancel | signal => rfl

theorem use_congr (step : ∀ op u, P u → P (u.perform host setting fuel op))
    (same : ∀ op u, P u → u.perform host' setting' fuel op = u.perform host setting fuel op)
    (operations : List Operation) (holds : P u) :
    u.use host' setting' fuel operations = u.use host setting fuel operations := by
  induction operations generalizing u with
  | nil => rfl
  | cons op rest ih =>
    rw [Usage.use, Usage.use, List.foldl_cons, List.foldl_cons, same op u holds]
    exact ih (step op u holds)

end

theorem use_append (fuel : Nat) (first second : List Operation) (u : Usage σ ι) :
    u.use host setting fuel (first ++ second) =
      (u.use host setting fuel first).use host setting fuel second :=
  List.foldl_append

/-- An operation that polls at most once. -/
def Operation.isSingle : Operation → Bool
  | poll _ | cancel | signal => true
  | next _ | runToEnd _ => false

/-- One use of a session comes to another by operations that poll at most once. -/
def Usage.Becomes (host : Host σ ι) (setting : Setting) (fuel : Nat) (u u' : Usage σ ι) : Prop :=
  ∃ singles : List Operation, (∀ op ∈ singles, op.isSingle) ∧ u.use host setting fuel singles = u'

theorem becomes_single {fuel : Nat} {u u' : Usage σ ι} (becomes : u.Becomes host setting fuel u')
    (op : Operation) (single : op.isSingle) : u.Becomes host setting fuel (u'.perform host setting fuel op) := by
  obtain ⟨singles, all, rfl⟩ := becomes
  refine ⟨singles ++ [op], ?_, use_append fuel singles [op] u⟩
  simpa [or_imp, forall_and] using ⟨all, single⟩

/-- What can be done at all can be done by operations that poll at most once. -/
theorem becomes_use (host : Host σ ι) (setting : Setting) (fuel : Nat) (operations : List Operation)
    (u : Usage σ ι) : u.Becomes host setting fuel (u.use host setting fuel operations) := by
  refine use_preserves (P := u.Becomes host setting fuel) (fun op u' becomes => ?_) operations ⟨[], by simp, rfl⟩
  refine perform_preserves (P := u.Becomes host setting fuel) ?_ ?_ ?_ op becomes
  · exact fun consumer u' becomes => becomes_single becomes (.poll consumer) rfl
  · exact fun u' becomes => becomes_single becomes .cancel rfl
  · exact fun u' becomes => becomes_single becomes .signal rfl

/-! ## The trail of a session -/

/-- A session that has not ended is ready as long as it has produced nothing, and
    suspended afterwards. -/
def Stands (status : Status) (produced : List (Stop σ)) : Prop :=
  status = .ready ∧ produced = [] ∨ status = .suspended ∧ produced ≠ []

theorem Stands.nonterminal {status : Status} {produced : List (Stop σ)} (stands : Stands status produced) :
    status.isTerminal = false := by
  rcases stands with ⟨rfl, _⟩ | ⟨rfl, _⟩ <;> rfl

/-- A session follows the trail of its run: what it has produced are the stops of the
    trail so far, and it holds what the trail has come to, unless it was cancelled and has
    given the run up there. The trail has gone `least` steps, unless it has come to its end
    or the session was asked to stop. -/
inductive Tracks (host : Host σ ι) (setting : Setting) (state₀ : σ) (p₀ : Progress ι) (least : Nat) :
    Usage σ ι → Prop where
  | underway {n : Nat} {produced : List (Stop σ)} {dozes : Bool} {state : σ} {q : Progress ι} {status : Status}
      {cancelled : Bool} {waiter : Option Consumer}
      (way : p₀.trail host setting n state₀ = ⟨produced, dozes, .underway state q⟩)
      (stands : Stands status produced) (far : cancelled = true ∨ least ≤ n) :
      Tracks host setting state₀ p₀ least ⟨state, ⟨status, .active q, none, none, cancelled, waiter⟩, produced⟩
  | completed {n : Nat} {produced : List (Stop σ)} {dozes : Bool} {state : σ} {v : Value} {memory : Memory}
      {cancelled : Bool} {waiter : Option Consumer}
      (way : p₀.trail host setting n state₀ = ⟨produced, dozes, .ended state v memory⟩) :
      Tracks host setting state₀ p₀ least
        ⟨state, ⟨.completed, .ended memory, none, some v, cancelled, waiter⟩, produced⟩
  | cancelled {n : Nat} {produced : List (Stop σ)} {dozes : Bool} {state : σ} {q : Progress ι}
      {waiter : Option Consumer} (way : p₀.trail host setting n state₀ = ⟨produced, dozes, .underway state q⟩) :
      Tracks host setting state₀ p₀ least
        ⟨state, ⟨.cancelled, .ended q.abandon, none, none, true, waiter⟩, produced⟩

section

variable {state₀ : σ} {p₀ : Progress ι} {least : Nat}

theorem tracks_start (host : Host σ ι) (setting : Setting) (state : σ) (memory : Memory) (script : List Stmt)
    (scope : FrameId) :
    Tracks host setting state (.running (.start memory script scope)) 0 (.start state memory script scope) :=
  .underway (n := 0) rfl (.inl ⟨rfl, rfl⟩) (.inr (Nat.le_refl 0))

theorem Tracks.mono {less : Nat} {u : Usage σ ι} (le : less ≤ least) (tracks : Tracks host setting state₀ p₀ least u) :
    Tracks host setting state₀ p₀ less u := by
  cases tracks with
  | underway way stands far => exact .underway way stands (far.imp id (Nat.le_trans le))
  | completed way => exact .completed way
  | cancelled way => exact .cancelled way

theorem tracks_handed {n fuel : Nat} {produced : List (Stop σ)} {dozes : Bool} {state : σ} {q : Progress ι}
    {s : Session ι} {r : σ × Session ι × Next}
    (way : p₀.trail host setting n state₀ = ⟨produced, dozes, .underway state q⟩)
    (stands : Stands s.status produced) (far : least ≤ n) (unfinished : s.result = none)
    (handed : Handed host setting fuel state q s r) :
    Tracks host setting state₀ p₀ (least + min fuel 1) ⟨r.1, r.2.1, produced ++ r.2.2.stops r.1 r.2.1.memory⟩ := by
  cases handed with
  | completed next =>
    have whole := trail_of_piece way next
    simpa [Trail.after, Next.stops] using Tracks.completed whole
  | suspended next =>
    have longer := trail_of_piece way next
    rw [unfinished]
    exact .underway longer (.inr ⟨rfl, by simp [Next.stops]⟩) (.inr (by omega))
  | waiting next =>
    have longer := trail_of_piece way next
    simp only [Trail.after, List.append_nil] at longer
    simp only [Next.stops, List.append_nil, unfinished]
    exact .underway longer stands (.inr (by omega))
  | stopped next =>
    have longer := trail_of_piece way next
    rw [unfinished]
    simpa [Trail.after, Next.stops] using Tracks.cancelled longer
  | exhausted next =>
    have longer := trail_of_piece way next
    simp only [Trail.after, List.append_nil] at longer
    simp only [Next.stops, List.append_nil, unfinished]
    exact .underway longer stands (.inr (by omega))

theorem tracks_stop {u : Usage σ ι} (tracks : Tracks host setting state₀ p₀ least u)
    (asked : u.session.cancelled = true) (more : Nat) :
    Tracks host setting state₀ p₀ more { u with session := u.session.stop } := by
  cases tracks with
  | underway way stands =>
    obtain rfl := asked
    simp only [Session.stop, stands.nonterminal, Bool.false_eq_true, ↓reduceIte]
    exact .cancelled way
  | completed way => exact .completed way
  | cancelled way => exact .cancelled way

theorem tracks_signal {u : Usage σ ι} (tracks : Tracks host setting state₀ p₀ least u) (more : Nat) :
    Tracks host setting state₀ p₀ more { u with session := u.session.signal.1 } := by
  cases tracks with
  | underway way stands => exact .underway way stands (.inl rfl)
  | completed way => exact .completed way
  | cancelled way => exact .cancelled way

theorem tracks_poll {u : Usage σ ι} (tracks : Tracks host setting state₀ p₀ least u) (fuel : Nat)
    (consumer : Consumer) :
    Tracks host setting state₀ p₀ (least + min fuel 1) (u.poll host setting fuel consumer).1 := by
  by_cases asked : u.session.cancelled = true
  · have stopped := tracks_stop tracks asked (least + min fuel 1)
    rw [Usage.poll, poll_of_cancelled asked]
    simpa [Next.stops] using stopped
  · rw [Bool.not_eq_true] at asked
    cases tracks with
    | underway way stands far =>
      have going : Session.Going _ _ := ⟨rfl, asked, rfl, stands.nonterminal⟩
      refine tracks_handed way stands (far.resolve_left ?_) rfl (handed_poll _ _ going fuel consumer _)
      exact Bool.eq_false_iff.mp asked
    | completed way =>
      rw [Usage.poll, poll_of_ended rfl asked]
      simpa [Next.stops] using Tracks.completed way
    | cancelled way => cases asked

section

variable {u : Usage σ ι}

theorem tracks_next (tracks : Tracks host setting state₀ p₀ least u) (fuel : Nat) (consumer : Consumer)
    (rounds : Nat) :
    Tracks host setting state₀ p₀ (least + min (min fuel rounds) 1) (u.next host setting fuel consumer rounds).1 := by
  cases rounds with
  | zero => exact tracks.mono (by omega)
  | succ rounds =>
    have after := tracks_poll tracks fuel consumer
    refine Tracks.mono (show _ ≤ least + min fuel 1 by omega) ?_
    rw [Usage.next]
    generalize u.poll host setting fuel consumer = r at after ⊢
    split
    · exact next_preserves (P := Tracks host setting state₀ p₀ (least + min fuel 1))
        (fun consumer _ tracks => (tracks_poll tracks fuel consumer).mono (Nat.le_add_right _ _)) consumer rounds after
    · exact after

theorem tracks_runToEnd (tracks : Tracks host setting state₀ p₀ least u) (fuel : Nat) (consumer : Consumer)
    (rounds : Nat) :
    Tracks host setting state₀ p₀ (least + min (min fuel rounds) 1)
      (u.runToEnd host setting fuel consumer rounds).1 := by
  cases rounds with
  | zero => exact tracks.mono (by omega)
  | succ rounds =>
    have after := tracks_next tracks fuel consumer fuel
    refine Tracks.mono (show _ ≤ least + min (min fuel fuel) 1 by omega) ?_
    rw [Usage.runToEnd]
    generalize u.next host setting fuel consumer fuel = r at after ⊢
    split
    · exact runToEnd_preserves (P := Tracks host setting state₀ p₀ (least + min (min fuel fuel) 1))
        (fun consumer _ tracks => (tracks_poll tracks fuel consumer).mono (Nat.le_add_right _ _)) consumer rounds after
    · exact after

/-- Every operation goes at least one step of the trail, unless it asks the session to stop. -/
theorem tracks_perform (tracks : Tracks host setting state₀ p₀ least u) (fuel : Nat) (op : Operation) :
    Tracks host setting state₀ p₀ (least + min fuel 1) (u.perform host setting fuel op) := by
  cases op with
  | poll consumer => exact tracks_poll tracks fuel consumer
  | next consumer => exact (tracks_next tracks fuel consumer fuel).mono (by omega)
  | runToEnd consumer => exact (tracks_runToEnd tracks fuel consumer fuel).mono (by omega)
  | cancel => exact tracks_stop (tracks_signal tracks 0) rfl _
  | signal => exact tracks_signal tracks _

theorem tracks_use (tracks : Tracks host setting state₀ p₀ least u) (fuel : Nat) (operations : List Operation) :
    Tracks host setting state₀ p₀ (least + min fuel operations.length) (u.use host setting fuel operations) := by
  induction operations generalizing u least with
  | nil => exact tracks.mono (by simp)
  | cons op rest ih =>
    refine (ih (tracks_perform tracks fuel op)).mono ?_
    rw [List.length_cons]
    omega

/-- A session is somewhere on the trail of its run. -/
theorem Tracks.place (tracks : Tracks host setting state₀ p₀ least u) :
    ∃ n, (p₀.trail host setting n state₀).stops = u.produced ∧
      (p₀.trail host setting n state₀).standing.state = u.state := by
  cases tracks with
  | @underway n _ _ _ _ _ _ _ way => exact ⟨n, by rw [way], by rw [way]; rfl⟩
  | @completed n _ _ _ _ _ _ _ way => exact ⟨n, by rw [way], by rw [way]; rfl⟩
  | @cancelled n _ _ _ _ _ way => exact ⟨n, by rw [way], by rw [way]; rfl⟩

/-- A session that nobody asked to stop has got as far as it should. -/
theorem Tracks.far (tracks : Tracks host setting state₀ p₀ least u) (uncancelled : u.session.cancelled = false) :
    ∃ n, least ≤ n ∧ (p₀.trail host setting n state₀).stops = u.produced ∧
      (p₀.trail host setting n state₀).standing.state = u.state := by
  cases tracks with
  | @underway n _ _ _ _ _ _ _ way stands far =>
    exact ⟨n, far.resolve_left (Bool.eq_false_iff.mp uncancelled), by rw [way], by rw [way]; rfl⟩
  | @completed n _ _ _ _ _ _ _ way =>
    have later := trail_of_ended way (Nat.le_add_right n least)
    exact ⟨n + least, Nat.le_add_left least n, by rw [later], by rw [later]; rfl⟩
  | cancelled => cases uncancelled

end

end

end Stepwise
