import ScatterGather.Execution.Basic
import ScatterGather.Run
/-!
Executions as a transition system. The world around an execution moves only when the execution
yields to it: between calls, or inside a collaborator that the execution has called. Tasks run only
between calls.
-/
namespace ScatterGather

inductive Move (V : Type)
  /-- Calls into the execution. -/
  | start
  | cancel
  | success (index : Nat) (value : V)
  | failure (index : Nat) (error : QueryError)
  /-- The innermost call goes on by itself. -/
  | resume
  /-- A collaborator returns: the downstream executor, a cancel hook, the merger. -/
  | handed (result : Option (SubResult V))
  | stopped
  | combined (result : Merged V)
  /-- A handle resolves; the outcome's receiver is dropped. -/
  | resolve (index : Nat) (result : SubResult V)
  | abandon
  /-- A watcher passes its result on, or sees that the execution is done. -/
  | forward (index : Nat)
  | retire (index : Nat)
  /-- The driver takes a completion, or sees that the execution is done. -/
  | receive
  | halt

namespace Execution

variable {V : Type}

/-- Between calls, or inside a collaborator. -/
def yields (e : Execution V) : Bool :=
  match e.calls with
  | [] => true
  | .dispatching _ :: _ => true
  | .merging _ :: _ => true
  | .stopping _ :: _ => true
  | _ => false

def resume (e : Execution V) : Option (Turn V) :=
  match e.calls with
  | .fill :: _ => some (e.fillNext, [])
  | .launch i :: s =>
    if e.isCompleted then some (e.pop, [])
    else some ({ e with calls := .dispatching i :: s }, [.dispatched i])
  | .combine rs :: s => some ({ e with calls := .merging rs :: s }, [.deregistered, .merged rs])
  | .stop i :: s => some ({ e with calls := .stopping i :: s }, [.stopped i])
  | _ => none

/-- The first watcher of a sub query. -/
def watcher? (e : Execution V) (index : Nat) : Option (Watcher V) :=
  e.watchers.find? fun w => w.index = index

def unwatch (index : Nat) (e : Execution V) : Execution V :=
  { e with watchers := e.watchers.eraseP fun w => w.index = index }

/-- Gives its result to a watcher that has none yet. -/
def settle (index : Nat) (result : SubResult V) : List (Watcher V) → List (Watcher V)
  | [] => []
  | w :: ws =>
    if w.index = index then
      (if w.result.isNone then { w with result := some result } else w) :: ws
    else w :: settle index result ws

/-- Whether the handle of a sub query is watched and unresolved. -/
def listens (e : Execution V) (index : Nat) : Bool :=
  match e.watcher? index with
  | some w => w.result.isNone
  | none => false

def step (e : Execution V) : Move V → Option (Turn V)
  | .start => if e.yields then some (e.start, []) else none
  | .cancel => if e.yields then some e.cancel else none
  | .success i v => if e.yields then some (e.succeed i v, []) else none
  | .failure i error => if e.yields then some (e.fail i error) else none
  | .resume => e.resume
  | .handed r =>
    match e.calls with
    | .dispatching i :: _ => some (e.attach i r, [])
    | _ => none
  | .stopped =>
    match e.calls with
    | .stopping _ :: _ => some (e.pop, [])
    | _ => none
  | .combined m =>
    match e.calls with
    | .merging _ :: _ =>
      some (e.pop.deliver ((m.result e.merger.strategy).mapError (.merge e.query.order)))
    | _ => none
  | .resolve i r =>
    if e.yields ∧ e.listens i then some ({ e with watchers := settle i r e.watchers }, []) else none
  | .abandon => if e.yields then some ({ e with awaited := false }, []) else none
  | .forward i =>
    match e.calls, e.watcher? i with
    | [], some ⟨_, some r⟩ =>
      some ({ e.unwatch i with
        inbox := if e.driver = .finished then e.inbox else e.inbox ++ [(i, r)] }, [])
    | _, _ => none
  | .retire i =>
    match e.calls, e.watcher? i with
    | [], some _ => if e.isCompleted then some (e.unwatch i, []) else none
    | _, _ => none
  | .receive =>
    match e.calls, e.driver, e.inbox with
    | [], .running, (i, r) :: rest => some ({ e with inbox := rest }.complete i r)
    | _, _, _ => none
  | .halt =>
    match e.calls, e.driver with
    | [], .running =>
      if e.isCompleted then some ({ e with driver := .finished, inbox := [] }, []) else none
    | _, _ => none

abbrev run (e : Execution V) (ms : List (Move V)) : Option (Turn V) := runFrom step e ms

end Execution
end ScatterGather
