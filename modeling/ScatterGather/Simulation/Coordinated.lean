import ScatterGather.Coordinator
import ScatterGather.Simulation.Progress
/-!
A query run by a coordinator in simulated time, from the split to the end.
-/
namespace ScatterGather.Coordinator

variable {V : Type}

/-- Runs to the end; an error is one from before anything was started. -/
def simulate (c : Coordinator V) (fresh : IdSupply) (id : ExecutionId) (q : Query)
    (override : Option ShardingConfig) (jobs : Query → Job V) (startsInside : Bool)
    (cancelAfter : Option Nat) : Except ShardingError (Simulation V) :=
  (c.prepare fresh id q override).map fun e =>
    (Simulation.start e jobs startsInside cancelAfter).run

end ScatterGather.Coordinator
