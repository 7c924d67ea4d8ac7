import ScatterGather.Cli.Settings
import ScatterGather.Samples
import ScatterGather.Simulation.Coordinated
/-!
A query for the last hour, run by a coordinator with the built-in mergers against simulated shards.
-/
namespace ScatterGather.Cli

/-- What a run takes from the world: the time, and identifiers that are new. -/
structure Ambient where
  now : Int64
  executionId : ExecutionId
  queryId : QueryId
  subQueryIds : IdSupply

/-- The metrics asked for, and what is to go wrong. -/
structure Request where
  metrics : List String
  failing : Option String
  cancelAfter : Option UInt64
  deriving DecidableEq

def hour : Int64 := 3600000

def lastHour (a : Ambient) (metrics : List String) : Query :=
  metrics.foldl (fun q m => q.withMetric (.plain m)) (.new a.queryId ⟨a.now - hour, a.now⟩)

/-- The coordinator of the settings. -/
def coordinator (s : Settings) : Except ShardingError (Coordinator Batches) :=
  Coordinator.build ⟨some s.sharding, some .builtIn, true, .byMetric, true⟩

def shards (s : Settings) (r : Request) : SampleShards :=
  ⟨r.metrics, s.latency, s.points.toNat, r.failing⟩

def simulate (s : Settings) (r : Request) (a : Ambient) :
    Except ShardingError (Simulation Batches) := do
  let c ← coordinator s
  c.simulate a.subQueryIds a.executionId (lastHour a r.metrics) none (shards s r).job true
    (r.cancelAfter.map UInt64.toNat)

/-- The outcome of a run, whether or not it got as far as an execution. -/
def outcome (s : Settings) (r : Request) (a : Ambient) : Except ShardingError Batches :=
  match simulate s r a with
  | .error e => .error e
  | .ok sim =>
    sim.execution.outcome.getD (.error (.cancelled 0 (.droppedResult a.executionId)))

end ScatterGather.Cli
