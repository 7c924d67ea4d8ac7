import ScatterGather.Scenario.Progress
import ScatterGather.Coordinator
/-!
Scripts of steps over coordinators and executions, with a report after each step.
-/
namespace ScatterGather.Scenario

variable {V : Type}

/-- The caller's handle of an execution. An orphan listens to a channel that nobody will use. -/
inductive Hold
  | held
  | orphan
  | gone
  deriving DecidableEq

inductive Step (V : Type)
  | act (a : Action V)
  | handle (x : Nat)
  | handleCancel (x : Nat)
  | dropHandle (x : Nat)
  | execute (coordinator : Nat) (query : Query) (override : Option ShardingConfig)
  | coordinatorCancelAll (coordinator : Nat)

inductive Answer (V : Type)
  | reply (r : Reply)
  | handle (e : Execution V)
  | started (x window : Nat)
  | refused (e : ShardingError)
  | noCoordinator
  | window (size : Nat)

structure Status (V : Type) where
  execution : Execution V
  isRegistered : Bool
  outcome : Option (Outcome V)

structure Report (V : Type) where
  answer : Answer V
  log : List (Entry V)
  executions : List (Status V)
  outstanding : Nat

structure Play (V : Type) where
  stage : Stage V
  holds : List Hold
  coordinators : List (Option (Coordinator V))
  /-- Identifiers of executions and of the sub queries of each. -/
  executionIds : Nat → ExecutionId
  queryIds : Nat → IdSupply

namespace Play

def start (reactions : List (Reaction V)) (ready : List (Nat × Nat × SubResult V))
    (coordinators : List (Option (Coordinator V))) (executionIds : Nat → ExecutionId)
    (queryIds : Nat → IdSupply) : Play V :=
  ⟨⟨.empty, reactions, ready, [], [], [], 0, [], []⟩, [], coordinators, executionIds, queryIds⟩

def hold (p : Play V) (x : Nat) : Hold := (p.holds[x]?).getD .gone

/-- The outcome that the holder of a handle would see now. -/
def outcome? (p : Play V) (x : Nat) (e : Execution V) : Option (Outcome V) :=
  match p.hold x with
  | .held => e.received
  | .orphan => some (.error (.cancelled e.query.order (.droppedResult e.id)))
  | .gone => none

def release (x : Nat) (p : Play V) : Play V :=
  let stage := match p.stage.fleet.on x .abandon with
    | some (f, _) => { p.stage with fleet := f }
    | none => p.stage
  { p with stage, holds := p.holds.set x .gone }

/-- Reports what has happened since the last report. A handle whose outcome is reported is gone. -/
def report (answer : Answer V) (p : Play V) : Report V × Play V :=
  let statuses := p.stage.fleet.executions.mapIdx fun x e =>
    ⟨e, p.stage.fleet.outstanding.contains e.id, p.outcome? x e⟩
  let seen := (List.range statuses.length).filter fun x =>
    ((statuses[x]?).bind (·.outcome)).isSome
  let p' := seen.foldl (fun p x => p.release x) p
  (⟨answer, p.stage.log, statuses, p.stage.fleet.outstanding.size⟩,
    { p' with stage := { p'.stage with log := [] } })

def drain (p : Play V) : Play V := { p with stage := p.stage.drain }

/-- Lets the tasks run until nothing moves. -/
def settle (p : Play V) : Play V := { p with stage := p.stage.also [.settle] }.drain

def act (a : Action V) (p : Play V) : Answer V × Play V :=
  let (stage, reply) := p.stage.perform a
  (.reply reply, { p with stage }.drain)

/-- Adds an execution that has been started, and fills its window. -/
def execute (c : Coordinator V) (q : Query) (override : Option ShardingConfig) (p : Play V) :
    Answer V × Play V :=
  let x := p.stage.fleet.executions.length
  match c.execute (p.queryIds x) (p.executionIds x) q override p.stage.fleet with
  | .error e => (.refused e, p)
  | .ok fleet =>
    let stage := ({ p.stage with fleet }.enqueue x .driver).also [.run x 0]
    let p := { p with stage, holds := p.holds ++ [Hold.held] }.drain
    (.started x (((fleet.executions[x]?).map (·.windowSize)).getD 0),
      { p with stage := { p.stage with known := x + 1 } })

def held? (x : Nat) (p : Play V) : Option (Execution V) :=
  if p.hold x = .gone then none else p.stage.execution? x

def step (p : Play V) : Step V → Answer V × Play V
  | .act a => p.act a
  | .handle x =>
    match p.held? x with
    | some e => (.handle e, p)
    | none => (.reply .none, p)
  | .handleCancel x =>
    match p.held? x with
    | some _ => (.reply (.bool true), (p.act (.cancel x)).2)
    | none => (.reply (.bool false), p)
  | .dropHandle x =>
    match p.held? x with
    | some _ => (.reply (.bool true), p.release x)
    | none => (.reply (.bool false), p)
  | .execute c q override =>
    match (p.coordinators[c]?).join with
    | some c => p.execute c q override
    | none => (.noCoordinator, p)
  | .coordinatorCancelAll c =>
    match (p.coordinators[c]?).join with
    | some _ => p.act .cancelAll
    | none => (.reply .noExecution, p)

/-- Plays the steps, each with whether the tasks run after it. -/
def run (p : Play V) : List (Step V × Bool) → List (Report V)
  | [] => []
  | (s, settles) :: rest =>
    let (answer, p) := p.step s
    let p := if settles then p.settle else p
    let (report, p) := p.report answer
    report :: p.run rest

/-- One execution by itself, registered or not, and its first report. -/
def single (e : Execution V) (registered : Bool) (hold : Hold) (p : Play V) : Report V × Play V :=
  let stage :=
    { p.stage with
      fleet := p.stage.fleet.add e registered
      known := p.stage.known + 1 }
  { p with stage, holds := p.holds ++ [hold] }.report (.window e.windowSize)

end Play
end ScatterGather.Scenario
