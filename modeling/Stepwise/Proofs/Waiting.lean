import Stepwise.Proofs.Cancellation

/-!
Consumers that wait. So that no wish to stop a session can go unnoticed, the host counts how
often it has one (`Host.counting`). A session is asked to stop just when somebody had that
wish (`flagged_use`). A consumer is left waiting only if nobody had it up to then, and it is
this consumer whom the next cancellation wakes (`attentive_use`).
-/
namespace Stepwise

variable {σ ι : Type} {host : Host σ ι} {setting : Setting}

/-! ## Wishes -/

/-- The host that does the same and counts how often it asks for a cancellation. -/
def Host.counting (host : Host σ ι) : Host (σ × Nat) ι where
  print state p :=
    let e := host.print state.1 p
    ⟨(e.state, state.2 + e.cancels.toNat), (), e.cancels⟩
  start state r :=
    let e := host.start state.1 r
    ⟨(e.state, state.2 + e.cancels.toNat), e.result, e.cancels⟩
  poll state job :=
    let e := host.poll state.1 job
    ⟨(e.state, state.2 + e.cancels.toNat), e.result, e.cancels⟩

/-- Whether an operation is a wish to stop the session. -/
def Operation.asks : Operation → Bool
  | cancel | signal => true
  | poll _ | next _ | runToEnd _ => false

theorem count_stride (host : Host σ ι) (setting : Setting) (state : σ × Nat) (p : Progress ι) :
    (p.stride host.counting setting state).state.2 =
      state.2 + (p.stride host.counting setting state).cancels.toNat := by
  cases p with
  | running m =>
    simp only [Progress.stride]
    cases m.next setting <;> rfl
  | waiting job w =>
    simp only [Progress.stride, Host.counting]
    cases (host.poll state.1 job).result <;> rfl

/-- What a visit notices of the wishes of its host, of which there were `before`: it tells
    that there are more now, or what it was told already. -/
structure Visit.Notices (before : Nat) (told : Bool) (v : Visit (σ × Nat) ι) : Prop where
  least : before ≤ v.state.2
  tells : v.cancels = true ↔ told = true ∨ before < v.state.2

theorem notices_poll (host : Host σ ι) (setting : Setting) (stepping : Bool) (fuel : Nat) (state : σ × Nat)
    (slot : Option Checkpoint) (told : Bool) (p : Progress ι) :
    (p.poll host.counting setting stepping fuel state slot told).Notices state.2 told := by
  induction fuel generalizing state told p with
  | zero => exact ⟨Nat.le_refl _, by simp [Progress.poll]⟩
  | succ fuel ih =>
    have counted := count_stride host setting state p
    simp only [Progress.poll]
    generalize p.stride host.counting setting state = e at counted
    obtain ⟨state', result, cancels⟩ := e
    simp only at counted
    -- What this step notices, together with what the steps behind it notice.
    have here : state.2 ≤ state'.2 ∧ ((told || cancels) = true ↔ told = true ∨ state.2 < state'.2) := by
      cases cancels <;> simp [counted]
    have onward (v : Visit (σ × Nat) ι) (notices : v.Notices state'.2 (told || cancels)) :
        v.Notices state.2 told := by
      obtain ⟨less, asked⟩ := here
      obtain ⟨least, tells⟩ := notices
      refine ⟨Nat.le_trans less least, ?_⟩
      rw [tells, asked, or_assoc]
      exact or_congr_right (by omega)
    cases result with
    | on q => exact onward _ (ih state' (told || cancels) q)
    | pass c q =>
      cases stepping with
      | true => exact ⟨here.1, here.2⟩
      | false => exact onward _ (ih state' (told || cancels) q)
    | wait wakes q => exact ⟨here.1, here.2⟩
    | finish v memory => exact ⟨here.1, here.2⟩

/-! ## Sessions -/

/-- What a poll leaves of a session that the host may ask to stop: it notices if that happened
    and does not wait then; if it waits, it does so for its own consumer. -/
structure Heeds (before : Nat) (consumer : Consumer) (r : (σ × Nat) × Session ι × Next) : Prop where
  least : before ≤ r.1.2
  noticed : r.2.1.cancelled = true ↔ before < r.1.2
  waits : ∀ wakes, r.2.2 = .pending wakes → r.2.1.cancelled = false ∧ r.2.1.waiter = some consumer

theorem heeds_poll (host : Host σ ι) (setting : Setting) {s : Session ι} (uncancelled : s.cancelled = false)
    (fuel : Nat) (consumer : Consumer) (state : σ × Nat) :
    Heeds state.2 consumer (s.poll host.counting setting fuel consumer state) := by
  obtain ⟨status, program, slot, result, cancelled, waiter⟩ := s
  obtain rfl : cancelled = false := uncancelled
  cases program with
  | ended memory =>
    refine ⟨Nat.le_refl _, by simp [Session.poll], ?_⟩
    intro wakes waiting
    cases waiting
  | active p =>
    have notices := notices_poll host setting true fuel state slot false p
    simp only [Session.poll]
    generalize p.poll host.counting setting true fuel state slot false = visit at notices ⊢
    obtain ⟨state', turn, slot', cancels⟩ := visit
    obtain ⟨least, tells⟩ := notices
    replace tells : cancels = true ↔ state.2 < state'.2 := by simpa using tells
    cases turn with
    | finished v memory =>
      refine ⟨least, tells, ?_⟩
      intro wakes waiting
      cases waiting
    | exhausted q =>
      refine ⟨least, tells, ?_⟩
      intro wakes waiting
      cases waiting
    | pending wakes q =>
      cases slot' with
      | some c =>
        refine ⟨least, tells, ?_⟩
        intro wakes waiting
        cases waiting
      | none =>
        cases cancels with
        | true =>
          have grew : state.2 < state'.2 := tells.mp rfl
          refine ⟨least, by simpa using grew, ?_⟩
          intro wakes waiting
          cases waiting
        | false => exact ⟨least, tells, fun _ _ => ⟨rfl, rfl⟩⟩

/-! ## Sessions in use -/

/-- A session in use is asked to stop just when somebody had that wish: the consumer, as is
    told, or the host, which counts. -/
def Usage.Flagged (wish : Prop) (u : Usage (σ × Nat) ι) : Prop :=
  u.session.cancelled = true ↔ wish ∨ 0 < u.state.2

theorem flagged_poll {wish : Prop} {u : Usage (σ × Nat) ι} (flagged : u.Flagged wish) (fuel : Nat)
    (consumer : Consumer) : (u.poll host.counting setting fuel consumer).1.Flagged wish := by
  unfold Usage.Flagged at flagged
  by_cases asked : u.session.cancelled = true
  · rw [Usage.poll, poll_of_cancelled asked]
    simpa [Usage.Flagged] using flagged
  · obtain ⟨unwished, none⟩ : ¬ wish ∧ ¬ 0 < u.state.2 := not_or.mp (mt flagged.mpr asked)
    have heeds := heeds_poll host setting (Bool.not_eq_true _ ▸ asked) fuel consumer u.state
    have same : u.state.2 = 0 := by omega
    simpa [Usage.Flagged, Usage.poll, unwished, same] using heeds.noticed

theorem flagged_perform (host : Host σ ι) (setting : Setting) {wish : Prop} {u : Usage (σ × Nat) ι}
    (flagged : u.Flagged wish) (fuel : Nat) (op : Operation) :
    (u.perform host.counting setting fuel op).Flagged (wish ∨ op.asks) := by
  have poll (consumer : Consumer) (u : Usage (σ × Nat) ι) (flagged : u.Flagged wish) :
      (u.poll host.counting setting fuel consumer).1.Flagged wish := flagged_poll flagged fuel consumer
  cases op with
  | poll consumer => simpa [Usage.perform, Operation.asks] using poll consumer u flagged
  | next consumer => simpa [Usage.perform, Operation.asks] using next_preserves poll consumer fuel flagged
  | runToEnd consumer => simpa [Usage.perform, Operation.asks] using runToEnd_preserves poll consumer fuel flagged
  | cancel => simp [Usage.Flagged, Usage.perform, Session.cancel, Session.signal, Operation.asks]
  | signal => simp [Usage.Flagged, Usage.perform, Session.signal, Operation.asks]

theorem flagged_use (host : Host σ ι) (setting : Setting) {wish : Prop} {u : Usage (σ × Nat) ι}
    (flagged : u.Flagged wish) (fuel : Nat) (operations : List Operation) :
    (u.use host.counting setting fuel operations).Flagged (wish ∨ ∃ op ∈ operations, op.asks) := by
  induction operations generalizing u wish with
  | nil => simpa [Usage.use] using flagged
  | cons op rest ih =>
    have after := ih (flagged_perform host setting flagged fuel op)
    simpa [Usage.use, or_assoc] using after

/-- What it means for a session in use that no wish to stop it is lost, be it the consumer's
    (`wish`) or the host's, who counts. It is noted, and nothing runs at a poll after it. A
    poll that leaves its consumer waiting has nobody's wish noted, and it is this consumer whom
    the next cancellation wakes; if the host had its wish during the poll, nobody is left waiting. -/
structure Usage.Attentive (host : Host (σ × Nat) ι) (setting : Setting) (wish : Prop) (u : Usage (σ × Nat) ι) :
    Prop where
  noted : u.session.cancelled = true ↔ wish ∨ 0 < u.state.2
  heeded : wish ∨ 0 < u.state.2 → ∀ fuel consumer,
    u.session.poll host setting fuel consumer u.state = (u.state, u.session.stop, .none)
  waits : ∀ fuel consumer wakes, (u.session.poll host setting fuel consumer u.state).2.2 = .pending wakes →
    ¬ wish ∧ (u.session.poll host setting fuel consumer u.state).1.2 = 0 ∧
      (u.session.poll host setting fuel consumer u.state).2.1.cancelled = false ∧
      (u.session.poll host setting fuel consumer u.state).2.1.waiter = some consumer ∧
      (u.session.poll host setting fuel consumer u.state).2.1.signal.2 = some consumer
  spared : ∀ fuel consumer wakes, u.state.2 < (u.session.poll host setting fuel consumer u.state).1.2 →
    (u.session.poll host setting fuel consumer u.state).2.2 ≠ .pending wakes

theorem attentive_of_flagged {wish : Prop} {u : Usage (σ × Nat) ι} (flagged : u.Flagged wish) :
    u.Attentive host.counting setting wish := by
  have waits (fuel : Nat) (consumer : Consumer) (wakes : Bool)
      (waiting : (u.session.poll host.counting setting fuel consumer u.state).2.2 = .pending wakes) :
      ¬ wish ∧ (u.session.poll host.counting setting fuel consumer u.state).1.2 = 0 ∧
        (u.session.poll host.counting setting fuel consumer u.state).2.1.cancelled = false ∧
        (u.session.poll host.counting setting fuel consumer u.state).2.1.waiter = some consumer := by
    by_cases asked : u.session.cancelled = true
    · simp [poll_of_cancelled asked] at waiting
    · obtain ⟨unwished, none⟩ : ¬ wish ∧ ¬ 0 < u.state.2 := not_or.mp (mt flagged.mpr asked)
      have heeds := heeds_poll host setting (Bool.not_eq_true _ ▸ asked) fuel consumer u.state
      obtain ⟨unnoted, waiter⟩ := heeds.waits wakes waiting
      have unasked := mt heeds.noticed.mpr (by simp [unnoted])
      exact ⟨unwished, by omega, unnoted, waiter⟩
  refine ⟨flagged, fun wished fuel consumer => poll_of_cancelled (flagged.mpr wished) fuel consumer _, ?_, ?_⟩
  · intro fuel consumer wakes waiting
    obtain ⟨unwished, none, unnoted, waiter⟩ := waits fuel consumer wakes waiting
    exact ⟨unwished, none, unnoted, waiter, waiter⟩
  · intro fuel consumer wakes more waiting
    obtain ⟨-, none, -, -⟩ := waits fuel consumer wakes waiting
    omega

/-- Whatever is done with a session, by consumers or by the host, no wish to stop it is lost. -/
theorem attentive_use (host : Host σ ι) (setting : Setting) (fuel : Nat) (state : σ) (memory : Memory)
    (script : List Stmt) (scope : FrameId) (operations : List Operation) :
    ((Usage.start (state, 0) memory script scope).use host.counting setting fuel operations).Attentive
      host.counting setting (∃ op ∈ operations, op.asks) := by
  have start : (Usage.start (ι := ι) (state, 0) memory script scope).Flagged False := by
    simp [Usage.Flagged, Usage.start, Session.start]
  have used := flagged_use host setting start fuel operations
  rw [false_or] at used
  exact attentive_of_flagged used

/-- Two consumers are left waiting for an answer, one after the other: the later one is woken. -/
example :
    ((Usage.start (.start (some [.fed]), 0) Memory.start.1 [.evaluate ⟨1, 1, 0⟩ (.call (.name "Input") [])]
      Memory.start.2).use Rehearsal.host.counting ⟨1000, .empty⟩ 100 [.poll 3, .poll 7]).session.signal.2 =
        some 7 := by
  rfl

end Stepwise
