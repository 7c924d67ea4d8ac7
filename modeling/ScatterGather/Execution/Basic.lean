import ScatterGather.Execution.State
import ScatterGather.Merger
import ScatterGather.Query.Basic
/-!
One split query in flight, and what its entry points do to it.

Sub queries are dispatched in order through a window. Each success frees a place in the window, the
first failure or a cancellation stops everything, and once every sub query has succeeded the results
are merged. The downstream executor, the cancel hooks and the merger are called one at a time with
the record in a definite state; the calls in progress are kept innermost first, so that anything
called may call back.
-/
namespace ScatterGather

abbrev SubResult (V : Type) := Except QueryError V

abbrev Outcome (V : Type) := Except ShardingError V

/-- A call in progress. In `dispatching`, `merging` and `stopping` the downstream executor, the
merger or a cancel hook is at work; the others go on by themselves. -/
inductive Frame (V : Type)
  | fill
  | launch (index : Nat)
  | dispatching (index : Nat)
  | combine (results : List V)
  | merging (results : List V)
  | stop (index : Nat)
  | stopping (index : Nat)

/-- The task that takes completions out of the inbox. -/
inductive Driver
  | idle
  | running
  | finished
  deriving DecidableEq

/-- A task that waits for the handle of one sub query. -/
structure Watcher (V : Type) where
  index : Nat
  result : Option (SubResult V)

/-- What an execution does to the world around it. -/
inductive Event (V : Type)
  | dispatched (index : Nat)
  | stopped (index : Nat)
  | merged (results : List V)
  | deregistered
  | delivered (outcome : Outcome V)

structure Execution (V : Type) where
  id : ExecutionId
  query : Query
  subQueries : List Query
  windowSize : Nat
  merger : Merger V
  /-- The next sub query to reserve; all of them once cancelled. -/
  nextIndex : Nat
  dispatched : Nat
  succeeded : Nat
  /-- Which sub queries have their cancel hook stored. -/
  slots : List Bool
  results : List (Option V)
  state : ExecutionState
  outcome : Option (Outcome V)
  /-- Whether somebody still holds the receiving end of the outcome. -/
  awaited : Bool
  driver : Driver
  inbox : List (Nat × SubResult V)
  watchers : List (Watcher V)
  calls : List (Frame V)

/-- An execution after a step, and what the step did outside. -/
abbrev Turn (V : Type) := Execution V × List (Event V)

namespace Execution

variable {V : Type}

/-- A window of no places counts as one of one place. -/
def new (id : ExecutionId) (query : Query) (subQueries : List Query) (windowSize : Nat)
    (merger : Merger V) : Execution V where
  id
  query
  subQueries
  windowSize := max windowSize 1
  merger
  nextIndex := 0
  dispatched := 0
  succeeded := 0
  slots := List.replicate subQueries.length false
  results := List.replicate subQueries.length none
  state := .dispatching
  outcome := none
  awaited := true
  driver := .idle
  inbox := []
  watchers := []
  calls := []

def total (e : Execution V) : Nat := e.subQueries.length

def isCompleted (e : Execution V) : Bool := e.outcome.isSome

/-- What the holder of the handle can see. -/
def received (e : Execution V) : Option (Outcome V) := if e.awaited then e.outcome else none

def inFlight (e : Execution V) : Nat :=
  if e.state.isTerminal then 0 else e.dispatched - e.succeeded

def push (fs : List (Frame V)) (e : Execution V) : Execution V := { e with calls := fs ++ e.calls }

def pop (e : Execution V) : Execution V := { e with calls := e.calls.tail }

def stateOf : Outcome V → ExecutionState
  | .ok _ => .succeeded
  | .error e => if e.isCancellation then .cancelled else .failed

/-- Only the first outcome counts. -/
def deliver (o : Outcome V) (e : Execution V) : Turn V :=
  if e.isCompleted then (e, [])
  else ({ e with outcome := some o, state := stateOf o }, [.delivered o])

/-- Sub queries whose cancel hook is stored, in order. -/
def held (e : Execution V) : List Nat :=
  (List.range e.slots.length).filter fun i => e.slots[i]? == some true

/-- Closes the window and takes out every cancel hook. -/
def sweep (e : Execution V) : Turn V :=
  ({ e with
      nextIndex := e.total
      slots := e.slots.map fun _ => false
      calls := e.held.map .stop ++ e.calls }, [.deregistered])

def stopWith (error : ShardingError) (e : Execution V) : Turn V :=
  let (e, delivered) := e.deliver (.error error)
  let (e, swept) := e.sweep
  (e, delivered ++ swept)

/-- Cancels every dispatched sub query, also after another outcome. -/
def cancel (e : Execution V) : Turn V := e.stopWith (.cancelled e.query.order (.requested e.id))

/-- The first failure is the outcome; later ones are not even looked at. -/
def fail (index : Nat) (error : QueryError) (e : Execution V) : Turn V :=
  if e.isCompleted then (e, []) else e.stopWith (.subQuery index e.query.order error)

/-- Claims the sub query at `nextIndex`. -/
def reserve (e : Execution V) : Execution V :=
  { e with
    nextIndex := e.nextIndex + 1
    dispatched := e.dispatched + 1
    state :=
      if e.total ≤ e.nextIndex + 1 ∧ e.state.isTerminal = false then .merging else e.state }

/-- Fills the window; the first call also starts the driver. -/
def start (e : Execution V) : Execution V :=
  { e with
    driver := if e.driver = .idle then .running else e.driver
    calls := .fill :: e.calls }

/-- One round of filling the window, with `fill` as the innermost call. -/
def fillNext (e : Execution V) : Execution V :=
  if e.isCompleted then e.pop
  else if e.nextIndex < min e.windowSize e.total then e.reserve.push [.launch e.nextIndex]
  else
    { e.pop with
      state :=
        if e.nextIndex < e.total ∧ e.state = .dispatching then .windowFull else e.state }

/-- Whether a result for this sub query is still to come. -/
def lacks (e : Execution V) (index : Nat) : Bool :=
  match e.results[index]? with
  | some none => true
  | _ => false

def record (index : Nat) (value : V) (e : Execution V) : Execution V :=
  { e with results := e.results.set index (some value), succeeded := e.succeeded + 1 }

/-- Launches the next sub query, if there is one. -/
def refill (e : Execution V) : Execution V :=
  if e.nextIndex < e.total then e.reserve.push [.launch e.nextIndex] else e

/-- Takes the results out for merging when the last one has come in. -/
def collect (e : Execution V) : Execution V :=
  if e.succeeded = e.total then
    { e with
      results := e.results.map fun _ => none
      calls := .combine (e.results.filterMap fun r => r) :: e.calls }
  else e

/-- A result that is not awaited is ignored. The next sub query is launched before the results are
merged. -/
def succeed (index : Nat) (value : V) (e : Execution V) : Execution V :=
  if e.isCompleted then e
  else if e.lacks index then (e.record index value).collect.refill
  else e

def complete (index : Nat) : SubResult V → Execution V → Turn V
  | .ok v, e => (e.succeed index v, [])
  | .error error, e => e.fail index error

/-- The downstream executor has returned a handle, resolved already or not. A handle that comes too
late is cancelled at once. -/
def attach (index : Nat) (result : Option (SubResult V)) (e : Execution V) : Execution V :=
  let e : Execution V := { e.pop with watchers := e.watchers ++ [⟨index, result⟩] }
  if e.isCompleted then e.push [.stop index] else { e with slots := e.slots.set index true }

end Execution
end ScatterGather
