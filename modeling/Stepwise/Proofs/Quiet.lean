import Stepwise.Proofs.Usage

/-!
Hosts that never ask for a cancellation. Every host can be made one (`Host.calm`), and
nothing changes for the run but that its session is not asked to stop (`poll_calm`).
-/
namespace Stepwise

variable {σ ι : Type} {host : Host σ ι} {setting : Setting}

/-- The host never asks for a cancellation. -/
structure Host.Quiet (host : Host σ ι) : Prop where
  print : ∀ state p, (host.print state p).cancels = false
  start : ∀ state r, (host.start state r).cancels = false
  poll : ∀ state job, (host.poll state job).cancels = false

/-- The host that does the same but never asks for a cancellation. -/
def Host.calm (host : Host σ ι) : Host σ ι where
  print state p := { host.print state p with cancels := false }
  start state r := { host.start state r with cancels := false }
  poll state job := { host.poll state job with cancels := false }

theorem quiet_calm (host : Host σ ι) : host.calm.Quiet :=
  ⟨fun _ _ => rfl, fun _ _ => rfl, fun _ _ => rfl⟩

/-! ## Runs -/

theorem stride_calm (state : σ) (p : Progress ι) :
    p.stride host.calm setting state = { p.stride host setting state with cancels := false } := by
  cases p with
  | running m =>
    simp only [Progress.stride]
    cases m.next setting <;> rfl
  | waiting job w =>
    simp only [Progress.stride, Host.calm]
    cases (host.poll state job).result <;> rfl

theorem poll_calm (stepping : Bool) (fuel : Nat) (state : σ) (slot : Option Checkpoint) (cancels : Bool)
    (p : Progress ι) :
    p.poll host.calm setting stepping fuel state slot false =
      { p.poll host setting stepping fuel state slot cancels with cancels := false } := by
  induction fuel generalizing state cancels p with
  | zero => rfl
  | succ fuel ih =>
    simp only [Progress.poll, stride_calm, Bool.or_false]
    cases (p.stride host setting state).result with
    | on q => exact ih _ _ q
    | pass c q =>
      cases stepping with
      | true => rfl
      | false => exact ih _ _ q
    | wait wakes q => rfl
    | finish v memory => rfl

theorem trail_calm (n : Nat) (state : σ) (p : Progress ι) :
    p.trail host.calm setting n state = p.trail host setting n state := by
  induction n generalizing state p with
  | zero => rfl
  | succ n ih =>
    simp only [Progress.trail, stride_calm]
    cases (p.stride host setting state).result with
    | on q => exact ih _ q
    | pass c q => simp only [ih]
    | wait wakes q => simp only [ih]
    | finish v memory => rfl

theorem cancels_stride (quiet : host.Quiet) (state : σ) (p : Progress ι) :
    (p.stride host setting state).cancels = false := by
  cases p with
  | running m =>
    simp only [Progress.stride]
    cases m.next setting with
    | print p m => exact quiet.print state p
    | ask r w => exact quiet.start state r
    | _ => rfl
  | waiting job w =>
    have calm := quiet.poll state job
    simp only [Progress.stride]
    cases (host.poll state job).result <;> exact calm

theorem cancels_poll (quiet : host.Quiet) (setting : Setting) (stepping : Bool) (fuel : Nat) (state : σ) (slot : Option Checkpoint)
    (cancels : Bool) (p : Progress ι) :
    (p.poll host setting stepping fuel state slot cancels).cancels = cancels := by
  induction fuel generalizing state p with
  | zero => rfl
  | succ fuel ih =>
    simp only [Progress.poll, cancels_stride quiet, Bool.or_false]
    cases (p.stride host setting state).result with
    | on q => exact ih _ q
    | pass c q =>
      cases stepping with
      | true => rfl
      | false => exact ih _ q
    | wait wakes q => rfl
    | finish v memory => rfl

/-! ## Sessions -/

theorem uncancelled_poll (quiet : host.Quiet) {s : Session ι} (uncancelled : s.cancelled = false) (fuel : Nat)
    (consumer : Consumer) (state : σ) : (s.poll host setting fuel consumer state).2.1.cancelled = false := by
  obtain ⟨status, program, slot, result, cancelled, waiter⟩ := s
  obtain rfl := uncancelled
  cases program with
  | ended memory => rfl
  | active p =>
    have calm := cancels_poll quiet setting true fuel state slot false p
    simp only [Session.poll]
    generalize p.poll host setting true fuel state slot false = visit at calm ⊢
    obtain ⟨state', turn, slot', cancels⟩ := visit
    obtain rfl := calm
    cases turn with
    | pending wakes q => cases slot' <;> rfl
    | _ => rfl

end Stepwise
