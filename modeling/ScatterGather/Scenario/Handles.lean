import ScatterGather.Handle
/-!
Scripts over named handles. Each name has the handle made last under it and, left in place by a
handle that comes without one, the completer and the token of an earlier channel.
-/
namespace ScatterGather.Scenario.Handles

variable {V : Type}

/-- Where a handle gets its result from, and what cancelling it reaches: the channel of its name,
nothing, or the counter of its name. -/
inductive Source (V : Type)
  | channel
  | ready (r : Except QueryError V)
  | counted (r : Except QueryError V)

structure Seat (V : Type) where
  channel : Option (Handle V)
  handle : Option (Source V)
  /-- What the cancel hook of the last handle reaches, also when the handle is gone. -/
  hook : Option (Source V)
  count : Option Nat

inductive Step (V : Type)
  | channel
  | ready (r : Except QueryError V)
  | counted (r : Except QueryError V)
  | cancel
  | cancelHook
  | isCancelled
  | tokenCancelled
  | cancelCount
  | complete (r : Except QueryError V)
  | dropCompleter
  | dropHandle
  | await

inductive Answer (V : Type)
  | none
  | bool (b : Bool)
  | count (n : Nat)
  | pending
  | result (r : Except QueryError V)

namespace Seat

def empty : Seat V := ⟨none, none, none, none⟩

/-- The handle goes away. -/
def release (s : Seat V) : Seat V :=
  match s.handle with
  | some .channel => { s with handle := none, channel := s.channel.map Handle.drop }
  | _ => { s with handle := none }

def cancel (s : Seat V) : Source V → Seat V
  | .channel => { s with channel := s.channel.map Handle.cancel }
  | .ready _ => s
  | .counted _ => { s with count := s.count.map (· + 1) }

/-- The handle's result, once there is one. -/
def result? (s : Seat V) : Source V → Option (Except QueryError V)
  | .channel => s.channel.bind Handle.result?
  | .ready r => some r
  | .counted r => some r

/-- The channel while its completer is unused. -/
def open? (s : Seat V) : Option (Handle V) :=
  s.channel.bind fun h => match h.completer with
    | .pending => some h
    | _ => none

def step (s : Seat V) : Step V → Answer V × Seat V
  | .channel =>
    (.none, { s.release with
      channel := some .channel
      handle := some .channel
      hook := some .channel })
  | .ready r => (.none, { s.release with handle := some (.ready r), hook := some (.ready r) })
  | .counted r =>
    (.none, { s.release with
      handle := some (.counted r)
      hook := some (.counted r)
      count := some 0 })
  | .cancel =>
    match s.handle with
    | some c => (.bool true, s.cancel c)
    | none => (.bool false, s)
  | .cancelHook =>
    match s.hook with
    | some c => (.bool true, s.cancel c)
    | none => (.bool false, s)
  | .isCancelled =>
    match s.open? with
    | some h => (.bool h.isCancelled, s)
    | none => (.none, s)
  | .tokenCancelled =>
    match s.channel with
    | some h => (.bool h.isCancelled, s)
    | none => (.none, s)
  | .cancelCount =>
    match s.count with
    | some n => (.count n, s)
    | none => (.none, s)
  | .complete r =>
    match s.channel.bind (Handle.complete r) with
    | some (h, listened) => (.bool listened, { s with channel := some h })
    | none => (.none, s)
  | .dropCompleter =>
    match s.channel.bind Handle.dropCompleter with
    | some h => (.bool true, { s with channel := some h })
    | none => (.bool false, s)
  | .dropHandle => (.bool s.handle.isSome, s.release)
  | .await =>
    match s.handle with
    | none => (.none, s)
    | some c =>
      match s.result? c with
      | some r => (.result r, s.release)
      | none => (.pending, s.release)

end Seat

/-- The seats by name; a name that has none yet gets an empty one. -/
abbrev Table (V : Type) := List (String × Seat V)

def Table.step (t : Table V) (name : String) (s : Step V) : Answer V × Table V :=
  let (answer, seat) := ((t.lookup name).getD .empty).step s
  (answer, (name, seat) :: t.filter fun e => e.1 ≠ name)

end ScatterGather.Scenario.Handles
