import ScatterGather.Execution.Step
import ScatterGather.Outstanding
/-!
Any number of executions that share one registry. Executions are numbered in the order in which
they were added. A sweep cancels the executions that were registered when it began, one after the
other.

Nothing here says which execution moves next: a schedule on one thread, with calls nested in each
other, is one of many.
-/
namespace ScatterGather

structure Fleet (V : Type) where
  executions : List (Execution V)
  outstanding : Outstanding ExecutionId Nat
  /-- Open sweeps, innermost first, with the executions still to cancel. -/
  sweeps : List (List Nat)

namespace Fleet

variable {V : Type}

inductive Move (V : Type)
  | add (e : Execution V) (registered : Bool)
  | on (x : Nat) (m : ScatterGather.Move V)
  | sweep (order : List Nat)
  | sweepNext
  | sweepEnd

def empty : Fleet V := ⟨[], .empty, []⟩

def add (f : Fleet V) (e : Execution V) (registered : Bool) : Fleet V :=
  { f with
    executions := f.executions ++ [e]
    outstanding :=
      if registered then f.outstanding.register e.id f.executions.length else f.outstanding }

/-- The numbers of the registered executions. -/
def registered (f : Fleet V) : List Nat := f.outstanding.entries.map (·.2)

def isDeregistration : Event V → Bool
  | .deregistered => true
  | _ => false

/-- A step of one execution. Its deregistration takes it out of the registry. -/
def on (f : Fleet V) (x : Nat) (m : ScatterGather.Move V) : Option (Fleet V × List (Event V)) :=
  match f.executions[x]? with
  | none => none
  | some e =>
    (e.step m).map fun (e', events) =>
      ({ f with
          executions := f.executions.set x e'
          outstanding :=
            if events.any isDeregistration then f.outstanding.deregister e.id
            else f.outstanding }, events)

def label (x : Nat) (events : List (Event V)) : List (Nat × Event V) := events.map fun e => (x, e)

def step (f : Fleet V) : Move V → Option (Fleet V × List (Nat × Event V))
  | .add e registered => some (f.add e registered, [])
  | .on x m => (f.on x m).map fun (f', events) => (f', label x events)
  | .sweep order =>
    if order.isPerm f.registered then some ({ f with sweeps := order :: f.sweeps }, []) else none
  | .sweepNext =>
    match f.sweeps with
    | (x :: rest) :: s =>
      (on { f with sweeps := rest :: s } x .cancel).map fun (f', events) => (f', label x events)
    | _ => none
  | .sweepEnd =>
    match f.sweeps with
    | [] :: s => some ({ f with sweeps := s }, [])
    | _ => none

abbrev run (f : Fleet V) (ms : List (Move V)) : Option (Fleet V × List (Nat × Event V)) :=
  runFrom step f ms

end Fleet
end ScatterGather
