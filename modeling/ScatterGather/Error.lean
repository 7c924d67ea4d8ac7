import ScatterGather.Json.Error
/-!
What can go wrong. A `QueryError` comes from a collaborator: a splitter, a shard, a merger. A
`ShardingError` is what a caller gets to see, with the query's order where an execution raised it.
-/
namespace ScatterGather

inductive BatchError
  | compute (message : String)
  | schema (message : String)
  deriving DecidableEq

def BatchError.message : BatchError → String
  | .compute m => s!"Compute error: {m}"
  | .schema m => s!"Schema error: {m}"

inductive QueryError
  | planning (message : String)
  | execution (message : String)
  | cancelled (message : String)
  | merge (message : String)
  | batch (cause : BatchError)
  deriving DecidableEq

namespace QueryError

def message : QueryError → String
  | .planning m => s!"Planning error: {m}"
  | .execution m => s!"Execution error: {m}"
  | .cancelled m => s!"Cancelled: {m}"
  | .merge m => s!"Merge error: {m}"
  | .batch e => s!"Arrow error: {e.message}"

/-- The text of the wrapped error. -/
def source : QueryError → Option String
  | .batch e => some e.message
  | _ => none

/-- What a sub query has come to whose completer went away. -/
def unfinished : QueryError := .cancelled "sub query finished without a result"

end QueryError

/-- Why a configuration is refused. -/
inductive Misconfiguration
  | parallelism
  | blankStrategy
  | noConfig
  | noMergers
  | unknownStrategy (strategy : String) (known : List String)
  | noDownstream
  | noRuntime
  | other (message : String)
  deriving DecidableEq

/-- What is said where work would have to be spawned and no runtime has been entered. -/
def noRuntimeMessage : String :=
  "there is no reactor running, must be called from the context of a Tokio 1.x runtime"

def Misconfiguration.message : Misconfiguration → String
  | .parallelism => "Parallel executors must be one or greater."
  | .blankStrategy => "Merge strategy cannot be empty."
  | .noConfig => "Sharding config is missing"
  | .noMergers => "No merger registry given"
  | .unknownStrategy strategy known =>
    let names := ", ".intercalate known
    s!"No merger registered for strategy '{strategy}' (known: {names})"
  | .noDownstream => "No downstream executor available"
  | .noRuntime => s!"No tokio runtime available: {noRuntimeMessage}"
  | .other m => m

/-- Why an execution ended in a cancellation. -/
inductive CancelReason
  | requested (id : ExecutionId)
  | droppedResult (id : ExecutionId)
  | other (message : String)
  deriving DecidableEq

def CancelReason.message : CancelReason → String
  | .requested id => s!"Query was cancelled upstream: {id.display}"
  | .droppedResult id => s!"execution {id.display} dropped its result"
  | .other m => m

inductive FileError
  | notFound
  | notDirectory
  | isDirectory
  | nameTooLong
  | notUtf8
  | other (message : String)
  deriving DecidableEq

def FileError.message : FileError → String
  | .notFound => "No such file or directory (os error 2)"
  | .notDirectory => "Not a directory (os error 20)"
  | .isDirectory => "Is a directory (os error 21)"
  | .nameTooLong => "File name too long (os error 36)"
  | .notUtf8 => "stream did not contain valid UTF-8"
  | .other m => m

inductive ShardingError
  | configuration (cause : Misconfiguration)
  | emptySplit (query : QueryId)
  | planning (source : QueryError)
  | subQuery (index : Nat) (order : UInt32) (source : QueryError)
  | cancelled (order : UInt32) (reason : CancelReason)
  | merge (order : UInt32) (source : QueryError)
  | serialization (source : Json.Error)
  | file (source : FileError)
  deriving DecidableEq

namespace ShardingError

def message : ShardingError → String
  | .configuration c => s!"Configuration error: {c.message}"
  | .emptySplit q => s!"Query {q.display} didn't have any sub queries after planning"
  | .planning e => s!"Planning failed: {e.message}"
  | .subQuery i order e => s!"Sub query {i} of query with order {order} failed: {e.message}"
  | .cancelled order r => s!"Query with order {order} was cancelled: {r.message}"
  | .merge order e =>
    s!"Unexpected exception merging results for query with order {order}: {e.message}"
  | .serialization e => s!"Serialization error: {e.message}"
  | .file e => s!"IO error: {e.message}"

/-- Faults of the caller are 400, faults of the shards and the merger 500. -/
def status : ShardingError → Nat
  | .subQuery .. => 500
  | .merge .. => 500
  | _ => 400

def isCancellation : ShardingError → Bool
  | .cancelled .. => true
  | _ => false

def order : ShardingError → Option UInt32
  | .subQuery _ order _ => some order
  | .cancelled order _ => some order
  | .merge order _ => some order
  | _ => none

/-- The texts of the wrapped errors, outermost first. -/
def causes : ShardingError → List String
  | .planning e => e.message :: e.source.toList
  | .subQuery _ _ e => e.message :: e.source.toList
  | .merge _ e => e.message :: e.source.toList
  | .serialization e => [e.message]
  | .file e => [e.message]
  | _ => []

end ShardingError
end ScatterGather
