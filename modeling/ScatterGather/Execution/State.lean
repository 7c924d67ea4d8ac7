import ScatterGather.Json.Decode
import ScatterGather.Json.Value
/-!
How far an execution has come, and a picture of its window.
-/
namespace ScatterGather

open Json

inductive ExecutionState
  | dispatching
  | windowFull
  | merging
  | succeeded
  | failed
  | cancelled
  deriving DecidableEq

namespace ExecutionState

def isTerminal : ExecutionState → Bool
  | succeeded => true
  | failed => true
  | cancelled => true
  | _ => false

def name : ExecutionState → String
  | dispatching => "Dispatching"
  | windowFull => "WindowFull"
  | merging => "Merging"
  | succeeded => "Succeeded"
  | failed => "Failed"
  | cancelled => "Cancelled"

def all : List ExecutionState := [dispatching, windowFull, merging, succeeded, failed, cancelled]

def toJson (s : ExecutionState) : Json := .string s.name

def decoder : Decoder ExecutionState := Reading.variant (all.map fun s => (s.name, s))

end ExecutionState

structure Snapshot where
  total : UInt64
  windowSize : UInt64
  dispatched : UInt64
  succeeded : UInt64
  state : ExecutionState
  deriving DecidableEq

namespace Snapshot

/-- Nothing is in flight any more once the state is terminal. -/
def inFlight (s : Snapshot) : Nat :=
  if s.state.isTerminal then 0 else s.dispatched.toNat - s.succeeded.toNat

def toJson (s : Snapshot) : Json :=
  .object [("total", .number s.total.toNat), ("window_size", .number s.windowSize.toNat),
    ("dispatched", .number s.dispatched.toNat), ("succeeded", .number s.succeeded.toNat),
    ("state", s.state.toJson)]

structure Draft where
  total : Option UInt64 := none
  windowSize : Option UInt64 := none
  dispatched : Option UInt64 := none
  succeeded : Option UInt64 := none
  state : Option ExecutionState := none

def record : Record Draft Snapshot where
  name := "WindowSnapshot"
  fields := [
    .of "total" false Reading.word fun v d => { d with total := some v },
    .of "window_size" false Reading.word fun v d => { d with windowSize := some v },
    .of "dispatched" false Reading.word fun v d => { d with dispatched := some v },
    .of "succeeded" false Reading.word fun v d => { d with succeeded := some v },
    .of "state" false ExecutionState.decoder fun v d => { d with state := some v }]
  empty := {}
  finish d := do
    return ⟨← required "total" d.total, ← required "window_size" d.windowSize,
      ← required "dispatched" d.dispatched, ← required "succeeded" d.succeeded,
      ← required "state" d.state⟩

end Snapshot
end ScatterGather
