import ScatterGather.Config
import ScatterGather.Query.Split
import ScatterGather.Fleet
/-!
A coordinator is built once from a configuration and its collaborators, and then turns each query
into an execution.
-/
namespace ScatterGather

/-- What a coordinator is built from. The downstream executor and the runtime belong to the world
outside; only whether they are there matters. -/
structure CoordinatorParts (V : Type) where
  config : Option ShardingConfig
  mergers : Option (MergerRegistry V)
  hasDownstream : Bool
  splitter : Splitter
  hasRuntime : Bool

structure Coordinator (V : Type) where
  config : ShardingConfig
  merger : Merger V
  splitter : Splitter

namespace Coordinator

variable {V : Type}

/-- The checks, in this order: configuration, merger, downstream executor, runtime. -/
def build (p : CoordinatorParts V) : Except ShardingError (Coordinator V) :=
  match p.config with
  | none => .error (.configuration .noConfig)
  | some config =>
    match config.validate with
    | .error e => .error e
    | .ok () =>
      match p.mergers with
      | none => .error (.configuration .noMergers)
      | some mergers =>
        match mergers.get? config.strategy with
        | none => .error (.configuration (.unknownStrategy config.strategy mergers.keys))
        | some merger =>
          if p.hasDownstream then
            if p.hasRuntime then .ok ⟨config, merger, p.splitter⟩
            else .error (.configuration .noRuntime)
          else .error (.configuration .noDownstream)

/-- A positive parallelism of the override goes before the configured one. -/
def windowFor (c : Coordinator V) (override : Option ShardingConfig) : UInt64 :=
  match override with
  | some o => if 0 < o.parallelism then o.parallelism else c.config.parallelism
  | none => c.config.parallelism

/-- The execution of a query, not started yet. -/
def prepare (c : Coordinator V) (fresh : IdSupply) (id : ExecutionId) (q : Query)
    (override : Option ShardingConfig) : Except ShardingError (Execution V) :=
  match c.splitter fresh q with
  | .error e => .error (.planning e)
  | .ok [] => .error (.emptySplit q.id)
  | .ok subs => .ok (.new id q subs (c.windowFor override).toNat c.merger)

/-- Registers the execution of a query and calls its start. On an error nothing is changed. -/
def execute (c : Coordinator V) (fresh : IdSupply) (id : ExecutionId) (q : Query)
    (override : Option ShardingConfig) (f : Fleet V) : Except ShardingError (Fleet V) :=
  (c.prepare fresh id q override).map fun e => f.add e.start true

end Coordinator
end ScatterGather
