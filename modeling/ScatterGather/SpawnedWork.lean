import ScatterGather.Handle
import ScatterGather.Query.Basic
/-!
Work that runs as a task of its own and reports through a handle. The task waits for the work to end
and for the handle to be cancelled, and goes away with the first of the two that it sees.
-/
namespace ScatterGather

variable {V : Type}

/-- How work ends. -/
inductive WorkEnd (V : Type)
  | answer (r : Except QueryError V)
  | panic

structure SpawnedWork (V : Type) where
  handle : Handle V
  /-- How the work has ended; `none` while it is pending. -/
  work : Option (WorkEnd V)
  isAlive : Bool

namespace SpawnedWork

inductive Move (V : Type)
  | cancel
  /-- The work ends by itself. It does not go on without its task. -/
  | finish (e : WorkEnd V)
  /-- The task sees that the handle is cancelled, or that the work has ended. When both hold it may
  see either. -/
  | quit
  | report

def spawn : SpawnedWork V := ⟨.channel, none, true⟩

/-- The task ends without using its completer. -/
def abandon (s : SpawnedWork V) : SpawnedWork V :=
  { s with handle := (s.handle.dropCompleter).getD s.handle, isAlive := false }

def complete (r : Except QueryError V) (s : SpawnedWork V) : SpawnedWork V :=
  { s with
    handle := ((s.handle.complete r).map Prod.fst).getD s.handle
    isAlive := false }

def step (s : SpawnedWork V) : Move V → Option (SpawnedWork V)
  | .cancel => some { s with handle := s.handle.cancel }
  | .finish e => if s.isAlive ∧ s.work.isNone then some { s with work := some e } else none
  | .quit => if s.isAlive ∧ s.handle.isCancelled then some s.abandon else none
  | .report =>
    match s.isAlive, s.work with
    | true, some (.answer r) => some (s.complete r)
    | true, some .panic => some s.abandon
    | _, _ => none

def run (s : SpawnedWork V) : List (Move V) → Option (SpawnedWork V)
  | [] => some s
  | m :: ms => (s.step m).bind fun s => s.run ms

/-- Whether the task has something to see. -/
def isRunnable (s : SpawnedWork V) : Bool := s.isAlive && (s.handle.isCancelled || s.work.isSome)

/-- What a sub query comes to for which no task can be spawned. -/
def noRuntime (q : Query) : QueryError :=
  .execution s!"No async runtime to run sub query {q.id.display}: {noRuntimeMessage}"

end SpawnedWork
end ScatterGather
