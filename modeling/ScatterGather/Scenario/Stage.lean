import ScatterGather.Fleet.Work
/-!
Scripted fleets. A script says what the collaborators do when they are called: each reaction fires
once, at the first call that fits, and may call back into the fleet. The stage plays the calls in
order, with an agenda of what is still to be done, innermost first.

Sub queries are named by the position of their metric in the query.
-/
namespace ScatterGather.Scenario

inductive Callback
  | dispatch
  | cancel
  | merge
  deriving DecidableEq

/-- Something to do with execution `x`. -/
inductive Action (V : Type)
  | start (x : Nat)
  | cancel (x : Nat)
  | success (x index : Nat) (value : V)
  | failure (x index : Nat) (error : QueryError)
  | event (x index : Nat) (result : SubResult V)
  | peek (x : Nat)
  | cancelAll
  | resolve (x position : Nat) (result : SubResult V)
  | drop (x position : Nat)
  | isCancelled (x position : Nat)
  | pause (name : String)

structure Reaction (V : Type) where
  on : Callback
  x : Nat
  position : Nat
  actions : List (Action V)

structure Peek where
  state : ExecutionState
  dispatched : Nat
  succeeded : Nat
  completed : Bool
  registered : Bool

inductive Reply
  | none
  | noExecution
  | bool (b : Bool)
  | count (n : Nat)
  | peek (p : Peek)

inductive Entry (V : Type)
  | dispatched (x position : Nat)
  | cancelled (x position : Nat)
  | merged (strategy : String) (parts : List V)
  | reacted (action : Action V) (reply : Reply)

/-- The execution an entry is about, or nothing for what concerns no single one. -/
def Entry.execution? {V : Type} : Entry V → Option Nat
  | .dispatched x _ => some x
  | .cancelled x _ => some x
  | .merged _ _ => none
  | .reacted _ _ => none

def Entry.le {V : Type} (a b : Entry V) : Bool :=
  match a.execution?, b.execution? with
  | none, _ => true
  | some _, none => false
  | some x, some y => x ≤ y

/-- The unused completer of a sub query's handle. -/
structure Line where
  x : Nat
  position : Nat
  index : Nat
  isCancelled : Bool

/-- A handle that the downstream executor has made and not returned yet. -/
structure Making (V : Type) where
  x : Nat
  index : Nat
  result : Option (SubResult V)

/-- A task that is due to run: the watcher of a sub query, the driver, or all that waits in an
execution that is done. -/
inductive Task
  | watcher (index : Nat)
  | driver
  | waiting
  deriving DecidableEq

/-- What is still to be done: let an execution go on until its calls are down to a height, react to
a callback, write down a reply, go on with a sweep that began at some length of the log, let the
tasks run, let a driver take its completions, or end the waiting tasks of an execution. -/
inductive Item (V : Type)
  | run (x height : Nat)
  | react (actions : List (Action V))
  | note (action : Action V) (reply : Reply)
  | sweep (start : Nat)
  | settle
  | drive (x : Nat)
  | retire (x : Nat)

structure Stage (V : Type) where
  fleet : Fleet V
  reactions : List (Reaction V)
  /-- Handles that are resolved when they are made. -/
  ready : List (Nat × Nat × SubResult V)
  lines : List Line
  making : List (Making V)
  /-- The tasks that are due, in the order in which they run. -/
  queue : List (Nat × Task)
  /-- Executions that have been handed to the caller, by which actions can name them. -/
  known : Nat
  agenda : List (Item V)
  log : List (Entry V)

namespace Stage

variable {V : Type}

def execution? (s : Stage V) (x : Nat) : Option (Execution V) := s.fleet.executions[x]?

/-- The execution that an action names. -/
def named? (x : Nat) (s : Stage V) : Option (Execution V) :=
  if x < s.known then s.execution? x else none

/-- A task that is due already is not put into the queue again. -/
def enqueue (x : Nat) (t : Task) (s : Stage V) : Stage V :=
  if (x, t) ∈ s.queue then s else { s with queue := s.queue ++ [(x, t)] }

def write (e : Entry V) (s : Stage V) : Stage V := { s with log := s.log ++ [e] }

def also (items : List (Item V)) (s : Stage V) : Stage V := { s with agenda := items ++ s.agenda }

/-- The position of a sub query's metric in the query. -/
def position (e : Execution V) (index : Nat) : Nat :=
  match (e.subQueries[index]?).bind fun q => q.metrics.head? with
  | some m => e.query.metrics.findIdx fun n => n.id = m.id
  | none => index

/-- Removes the first element that fits. -/
def takeFirst {α : Type} (p : α → Bool) : List α → Option (α × List α)
  | [] => none
  | a :: r => if p a then some (a, r) else (takeFirst p r).map fun (b, r) => (b, a :: r)

def fire (p : Reaction V → Bool) (s : Stage V) : Stage V :=
  match takeFirst p s.reactions with
  | some (r, rest) => { s with reactions := rest, agenda := .react r.actions :: s.agenda }
  | none => s

def resolveWatched (x index : Nat) (r : SubResult V) (s : Stage V) : Stage V × Bool :=
  match s.fleet.on x (.resolve index r) with
  | some (f, _) => ({ s with fleet := f }.enqueue x (.watcher index), true)
  | none => (s, false)

/-- Resolves the handle of a sub query; the answer says whether anybody listens. -/
def settleHandle (x index : Nat) (r : SubResult V) (s : Stage V) : Stage V × Bool :=
  if s.making.any fun m => m.x = x && m.index = index then
    ({ s with
      making := s.making.map fun m =>
        if m.x = x ∧ m.index = index ∧ m.result.isNone then { m with result := some r } else m },
      true)
  else s.resolveWatched x index r

def line? (x position : Nat) (s : Stage V) : Option (Line × List Line) :=
  takeFirst (fun l => l.x = x && l.position = position) s.lines

/-- A completer goes away unused. -/
def dropLine (x position : Nat) (s : Stage V) : Stage V × Bool :=
  match s.line? x position with
  | none => (s, false)
  | some (l, rest) =>
    (({ s with lines := rest }.settleHandle x l.index (.error .unfinished)).1, true)

/-- The downstream executor is called. -/
def openLine (x index : Nat) (e : Execution V) (s : Stage V) : Stage V :=
  let p := position e index
  match s.ready.find? fun r => r.1 = x && r.2.1 = p with
  | some r => { s with making := ⟨x, index, some r.2.2⟩ :: s.making }
  | none =>
    let s := (s.dropLine x p).1
    { s with making := ⟨x, index, none⟩ :: s.making, lines := ⟨x, p, index, false⟩ :: s.lines }

def markCancelled (x position : Nat) (s : Stage V) : Stage V :=
  { s with
    lines := s.lines.map fun l =>
      if l.x = x ∧ l.position = position then { l with isCancelled := true } else l }

/-- Writes down a call of a collaborator and lets the script react to it. An outcome wakes all that
waits in its execution. -/
def observe (x : Nat) (event : Event V) (s : Stage V) : Stage V :=
  match s.execution? x, event with
  | some e, .dispatched i =>
    let p := position e i
    ((s.write (.dispatched x p)).openLine x i e).fire fun r =>
      r.on = .dispatch && r.x = x && r.position = p
  | some e, .stopped i =>
    let p := position e i
    ((s.write (.cancelled x p)).markCancelled x p).fire fun r =>
      r.on = .cancel && r.x = x && r.position = p
  | some e, .merged parts =>
    (s.write (.merged e.merger.strategy parts)).fire fun r => r.on = .merge
  | some _, .delivered _ => s.enqueue x .waiting
  | _, _ => s

def observeAll (x : Nat) (events : List (Event V)) (s : Stage V) : Stage V :=
  events.foldl (fun s e => s.observe x e) s

/-- A call into an execution, which then goes on until the call is over. -/
def call (x : Nat) (m : Move V) (s : Stage V) : Stage V × Reply :=
  match s.named? x with
  | none => (s, .noExecution)
  | some e =>
    match s.fleet.on x m with
    | none => (s, .none)
    | some (f, events) =>
      (({ s with fleet := f }.also [.run x e.calls.length]).observeAll x events, .none)

/-- The first start spawns the driver. -/
def callStart (x : Nat) (s : Stage V) : Stage V × Reply :=
  match (s.named? x).map Execution.driver with
  | some .idle => (s.enqueue x .driver).call x .start
  | _ => s.call x .start

def peek (x : Nat) (s : Stage V) : Reply :=
  match s.named? x with
  | none => .noExecution
  | some e =>
    .peek ⟨e.state, e.dispatched, e.succeeded, e.isCompleted, s.fleet.outstanding.contains e.id⟩

/-- The registered executions are swept in ascending order. -/
def cancelAll (s : Stage V) : Stage V × Reply :=
  let order := s.fleet.registered.mergeSort
  match s.fleet.step (.sweep order) with
  | some (f, _) => ({ s with fleet := f }.also [.sweep s.log.length], .count order.length)
  | none => (s, .none)

def perform (s : Stage V) : Action V → Stage V × Reply
  | .start x => s.callStart x
  | .cancel x => s.call x .cancel
  | .success x i v => s.call x (.success i v)
  | .failure x i e => s.call x (.failure i e)
  | .event x i (.ok v) => s.call x (.success i v)
  | .event x i (.error e) => s.call x (.failure i e)
  | .peek x => (s, s.peek x)
  | .cancelAll => s.cancelAll
  | .resolve x p r =>
    match s.line? x p with
    | none => (s, .none)
    | some (l, rest) =>
      let (s, listened) := { s with lines := rest }.settleHandle x l.index r
      (s, .bool listened)
  | .drop x p =>
    let (s, found) := s.dropLine x p
    (s, .bool found)
  | .isCancelled x p =>
    match s.line? x p with
    | none => (s, .none)
    | some (l, _) => (s, .bool l.isCancelled)
  | .pause _ => (s, .none)

/-- How the collaborator returns in which the execution is suspended. -/
def returning (x : Nat) (e : Execution V) (s : Stage V) : Option (Move V × Stage V) :=
  match e.calls with
  | .dispatching i :: _ =>
    match takeFirst (fun m => m.x = x && m.index = i) s.making with
    | some (m, rest) =>
      some (.handed m.result, { s with making := rest }.enqueue x (.watcher i))
    | none => some (.handed none, s.enqueue x (.watcher i))
  | .merging rs :: _ => some (.combined (e.merger.merge rs), s)
  | .stopping _ :: _ => some (.stopped, s)
  | _ => none

def runOn (x : Nat) (height : Nat) (s : Stage V) : Stage V :=
  match s.execution? x with
  | none => s
  | some e =>
    if e.calls.length ≤ height then s
    else
      match s.fleet.on x .resume with
      | some (f, events) => { s with fleet := f }.also [.run x height] |>.observeAll x events
      | none =>
        match s.returning x e with
        | none => s
        | some (m, s') =>
          match s'.fleet.on x m with
          | some (f, events) => { s' with fleet := f }.also [.run x height] |>.observeAll x events
          | none => s

def wakeDriver (x : Nat) (s : Stage V) : Stage V :=
  match (s.execution? x).map Execution.driver with
  | some .running => s.enqueue x .driver
  | _ => s

/-- A watcher ends when its execution is done, and otherwise passes its result on or waits. -/
def watch (x index : Nat) (s : Stage V) : Stage V :=
  match s.fleet.on x (.retire index) with
  | some (f, _) => { s with fleet := f }
  | none =>
    match s.fleet.on x (.forward index) with
    | some (f, _) => { s with fleet := f }.wakeDriver x
    | none => s

/-- A driver ends when its execution is done, and otherwise takes a completion or waits. -/
def drive (x : Nat) (s : Stage V) : Stage V :=
  match s.fleet.on x .halt with
  | some (f, _) => { s with fleet := f }
  | none =>
    match s.fleet.on x .receive with
    | some (f, events) => { s with fleet := f }.also [.run x 0, .drive x] |>.observeAll x events
    | none => s

/-- A watcher that waits: one that is not due. -/
def waiting? (x : Nat) (s : Stage V) : Option (Watcher V) :=
  (s.execution? x).bind fun e => e.watchers.find? fun w => (x, .watcher w.index) ∉ s.queue

/-- Ends the waiting tasks of an execution that is done. -/
def retire (x : Nat) (s : Stage V) : Stage V :=
  match s.waiting? x with
  | some w =>
    match s.fleet.on x (.retire w.index) with
    | some (f, _) => { s with fleet := f }.also [.retire x]
    | none => s
  | none =>
    match s.fleet.on x .halt with
    | some (f, _) => { s with fleet := f }
    | none => s

/-- Lets the next task run. -/
def settleOn (s : Stage V) : Stage V :=
  match s.queue with
  | [] => s
  | (x, .watcher i) :: rest => ({ s with queue := rest }.watch x i).also [.settle]
  | (x, .driver) :: rest => { s with queue := rest }.also [.drive x, .settle]
  | (x, .waiting) :: rest => { s with queue := rest }.also [.retire x, .settle]

/-- A sweep has no order of its own: what it wrote is put in the order of the executions. -/
def arrange (start : Nat) (s : Stage V) : Stage V :=
  { s with log := s.log.take start ++ (s.log.drop start).mergeSort Entry.le }

/-- Does one thing on the agenda. -/
def tick (s : Stage V) : Stage V :=
  match s.agenda with
  | [] => s
  | .run x height :: rest => { s with agenda := rest }.runOn x height
  | .react [] :: rest => { s with agenda := rest }
  | .react (a :: as) :: rest =>
    let (s', reply) := { s with agenda := [] }.perform a
    { s' with agenda := s'.agenda ++ .note a reply :: .react as :: rest }
  | .note a reply :: rest => { s with agenda := rest }.write (.reacted a reply)
  | .sweep start :: rest =>
    let s := { s with agenda := rest }
    match s.fleet.sweeps with
    | (x :: _) :: _ =>
      match s.execution? x, s.fleet.step .sweepNext with
      | some e, some (f, events) =>
        { s with fleet := f }.also [.run x e.calls.length, .sweep start]
          |>.observeAll x (events.map Prod.snd)
      | _, _ => s
    | _ =>
      match s.fleet.step .sweepEnd with
      | some (f, _) => { s with fleet := f }.arrange start
      | none => s
  | .settle :: rest => { s with agenda := rest }.settleOn
  | .drive x :: rest => { s with agenda := rest }.drive x
  | .retire x :: rest => { s with agenda := rest }.retire x

end Stage
end ScatterGather.Scenario
