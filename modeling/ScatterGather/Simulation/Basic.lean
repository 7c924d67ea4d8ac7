import ScatterGather.Execution.Step
import ScatterGather.SpawnedWork
/-!
One execution over spawned work, in simulated time. Time passes only when no task is due; tasks run
in the order in which they became due, and work takes as long as its job says.
-/
namespace ScatterGather

variable {V : Type}

/-- Thirty years in milliseconds; nothing sleeps longer. -/
def longestSleep : Nat := 946080000000

/-- What becomes of a sub query: how long its work means to take and how it ends. -/
structure Job (V : Type) where
  pause : Nat
  ending : WorkEnd V

/-- How long the work takes. -/
def Job.delay (j : Job V) : Nat := min j.pause longestSleep

namespace Simulation

inductive Task
  | work (index : Nat)
  | watcher (index : Nat)
  | driver
  | canceller
  deriving DecidableEq

/-- How far a task has come that sleeps once. -/
inductive Phase
  | fresh
  | asleep (wakeAt : Nat)
  | finished
  deriving DecidableEq

/-- Whether a task that sleeps for `delay` can go on at `now`. -/
def Phase.isDue (now delay : Nat) : Phase → Bool
  | fresh => delay = 0
  | asleep wakeAt => wakeAt ≤ now
  | finished => false

/-- The work of one sub query. -/
structure Worker (V : Type) where
  index : Nat
  job : Job V
  spawned : SpawnedWork V
  phase : Phase

inductive Entry
  | called (index : Nat)
  | finished (index : Nat)
  deriving DecidableEq

end Simulation

open Simulation in
structure Simulation (V : Type) where
  execution : Execution V
  isRegistered : Bool
  jobs : Query → Job V
  /-- Whether the call of `start` is in progress, and whether it is made inside a runtime, where
  tasks can be spawned. -/
  isStarting : Bool
  startsInside : Bool
  workers : List (Worker V)
  /-- After which delay the execution is cancelled, and how far that has come. -/
  cancelAfter : Option Nat
  canceller : Phase
  now : Nat
  /-- When the outcome was delivered. -/
  deliveredAt : Option Nat
  /-- The tasks that are due, in the order in which they run. -/
  queue : List Task
  /-- Tasks to come, by time. -/
  timers : List (Nat × Task)
  log : List Entry

namespace Simulation

def enqueue (t : Task) (s : Simulation V) : Simulation V :=
  if t ∈ s.queue then s else { s with queue := s.queue ++ [t] }

/-- Behind the timers that are not later. -/
def addTimer (time : Nat) (t : Task) : List (Nat × Task) → List (Nat × Task)
  | [] => [(time, t)]
  | u :: r => if u.1 ≤ time then u :: addTimer time t r else (time, t) :: u :: r

def sleep (delay : Nat) (t : Task) (s : Simulation V) : Simulation V :=
  { s with timers := addTimer (s.now + delay) t s.timers }

def worker? (i : Nat) (s : Simulation V) : Option (Worker V) :=
  s.workers.find? fun w => w.index = i

def setWorker (w : Worker V) : List (Worker V) → List (Worker V)
  | [] => []
  | u :: r => if u.index = w.index then w :: r else u :: setWorker w r

def subQuery? (i : Nat) (s : Simulation V) : Option Query := s.execution.subQueries[i]?

def inRuntime (s : Simulation V) : Bool := s.startsInside || !s.isStarting

/-- The job of a sub query is called, and its task is spawned. -/
def call (i : Nat) (s : Simulation V) : Simulation V :=
  match s.subQuery? i with
  | some q =>
    if s.inRuntime then
      let w : Worker V := ⟨i, s.jobs q, .spawn, .fresh⟩
      { s with workers := s.workers ++ [w], log := s.log ++ [Entry.called i] }.enqueue (.work i)
    else s
  | none => s

/-- A cancelled handle makes the task of its work due. -/
def stop (i : Nat) (s : Simulation V) : Simulation V :=
  match s.worker? i with
  | some w =>
    match w.spawned.step .cancel with
    | some spawned =>
      { s with workers := setWorker { w with spawned } s.workers }.enqueue (.work i)
    | none => s
  | none => s

def observe (s : Simulation V) : Event V → Simulation V
  | .dispatched i => s.call i
  | .stopped i => s.stop i
  | .deregistered => { s with isRegistered := false }
  | .merged _ => s
  | .delivered _ => { s with deliveredAt := some s.now }

/-- The handle returned for a sub query: pending, or resolved where no task can be spawned. -/
def handed (i : Nat) (s : Simulation V) : Option (SubResult V) :=
  if s.inRuntime then none
  else (s.subQuery? i).map fun q => .error (SpawnedWork.noRuntime q)

/-- How the collaborator returns that the execution waits for, and the task that this spawns. -/
def returning (s : Simulation V) : Option (Move V × Option Task) :=
  match s.execution.calls with
  | .dispatching i :: _ => some (.handed (s.handed i), some (.watcher i))
  | .merging rs :: _ => some (.combined (s.execution.merger.merge rs), none)
  | .stopping _ :: _ => some (.stopped, none)
  | _ => none

def spawnTask (t : Option Task) (s : Simulation V) : Simulation V :=
  match t with
  | some t => s.enqueue t
  | none => s

/-- One step of the calls in progress. -/
def advance (s : Simulation V) : Simulation V :=
  match s.execution.step .resume with
  | some (e, events) => events.foldl observe { s with execution := e }
  | none =>
    match s.returning with
    | none => s
    | some (m, t) =>
      match s.execution.step m with
      | some (e, events) => (events.foldl observe { s with execution := e }).spawnTask t
      | none => s

/-- Passes on what the work's handle has come to. -/
def resolve (w : Worker V) (s : Simulation V) : Simulation V :=
  match w.spawned.handle.result? with
  | none => s
  | some r =>
    match s.execution.step (.resolve w.index r) with
    | some (e, _) => { s with execution := e }.enqueue (.watcher w.index)
    | none => s

/-- The task of a worker ends. -/
def finish (w : Worker V) (spawned : SpawnedWork V) (s : Simulation V) : Simulation V :=
  let w := { w with spawned, phase := .finished }
  { s with workers := setWorker w s.workers }.resolve w

/-- A worker whose handle is cancelled quits, also when its work would end now. -/
def work (w : Worker V) (s : Simulation V) : Simulation V :=
  if w.phase = .finished then s
  else
    match w.spawned.step .quit with
    | some spawned => s.finish w spawned
    | none =>
      if w.phase.isDue s.now w.job.delay then
        match (w.spawned.step (.finish w.job.ending)).bind (·.step .report) with
        | some spawned => { s with log := s.log ++ [Entry.finished w.index] }.finish w spawned
        | none => s
      else if w.phase = .fresh then
        let w := { w with phase := .asleep (s.now + w.job.delay) }
        { s with workers := setWorker w s.workers }.sleep w.job.delay (.work w.index)
      else s

def watch (i : Nat) (s : Simulation V) : Simulation V :=
  match s.execution.step (.retire i) with
  | some (e, _) => { s with execution := e }
  | none =>
    match s.execution.step (.forward i) with
    | some (e, _) =>
      let s := { s with execution := e }
      if e.driver = .running then s.enqueue .driver else s
    | none => s

/-- A driver that has taken a completion goes on before any other task. -/
def drive (s : Simulation V) : Simulation V :=
  match s.execution.step .halt with
  | some (e, _) => { s with execution := e }
  | none =>
    match s.execution.step .receive with
    | some (e, events) =>
      events.foldl observe { s with execution := e, queue := .driver :: s.queue }
    | none => s

def cancel (s : Simulation V) : Simulation V :=
  let delay := min (s.cancelAfter.getD 0) longestSleep
  if s.canceller.isDue s.now delay then
    match s.execution.step .cancel with
    | some (e, events) => events.foldl observe { s with execution := e, canceller := .finished }
    | none => s
  else if s.canceller = .fresh then
    { s with canceller := .asleep (s.now + delay) }.sleep delay .canceller
  else s

def runTask (s : Simulation V) : Task → Simulation V
  | .work i =>
    match s.worker? i with
    | some w => s.work w
    | none => s
  | .watcher i => s.watch i
  | .driver => s.drive
  | .canceller => s.cancel

/-- The call of `start` returns; whoever is to cancel the execution starts to wait. -/
def started (s : Simulation V) : Simulation V :=
  let s := { s with isStarting := false }
  if s.cancelAfter.isSome then s.enqueue .canceller else s

/-- Time passes up to the next timer. All tasks of that time become due. -/
def wake (time : Nat) (s : Simulation V) : Simulation V :=
  (s.timers.takeWhile fun t => t.1 ≤ time).foldl (fun s t => s.enqueue t.2)
    { s with now := max s.now time, timers := s.timers.dropWhile fun t => t.1 ≤ time }

/-- The calls in progress go first, then the tasks that are due, then time passes. -/
def tick (s : Simulation V) : Simulation V :=
  match s.execution.calls, s.queue, s.timers with
  | _ :: _, _, _ => s.advance
  | [], t :: rest, _ =>
    if s.isStarting then s.started else { s with queue := rest }.runTask t
  | [], [], (time, _) :: _ => s.wake time
  | [], [], [] => s

/-- Whether nothing is left to happen. -/
def isOver (s : Simulation V) : Bool :=
  s.execution.calls.isEmpty && s.queue.isEmpty && s.timers.isEmpty

/-- An execution whose start is called at time zero, inside a runtime or not. The driver is spawned
before anything is dispatched. -/
def start (e : Execution V) (jobs : Query → Job V) (startsInside : Bool)
    (cancelAfter : Option Nat) : Simulation V where
  execution := e.start
  isRegistered := true
  jobs
  isStarting := true
  startsInside
  workers := []
  cancelAfter
  canceller := .fresh
  now := 0
  deliveredAt := none
  queue := [.driver]
  timers := []
  log := []

end Simulation
end ScatterGather
