import Stepwise.Machine.Basic

/-!
The host of a run: it prints, answers what a script asks, and may take its time
about it. A question starts a job; the job is polled until it is ready. While it
serves a script, a host may also ask that the run be cancelled.
-/
namespace Stepwise

/-- What the host did: its state afterwards, what came of it, and whether it asked
    for the run to be cancelled. -/
structure Effect (σ α : Type) where
  state : σ
  result : α
  cancels : Bool := false

/-- What came of polling a job. A job that is not ready may wake its consumer,
    who then polls again. -/
inductive Poll (ι : Type) where
  | ready (a : Answer)
  | pending (job : ι) (wakes : Bool)

/-- A host with states `σ` and jobs `ι`. -/
structure Host (σ ι : Type) where
  print : σ → Primitive → Effect σ Unit
  start : σ → Request → Effect σ ι
  poll : σ → ι → Effect σ (Poll ι)

end Stepwise
