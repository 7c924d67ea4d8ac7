import ScatterGather.Cli.Failure
import ScatterGather.Cli.Invocation
import ScatterGather.Decimal.Shortest
import ScatterGather.Text.Quoted
import ScatterGather.Text.Table
/-!
What a command does, step by step: what it prints and waits for, which files it reads and writes,
and how it ends.
-/
namespace ScatterGather.Cli

inductive Session
  | finish (result : Except Failure Unit)
  | print (line : String) (next : Session)
  | pause (milliseconds : Nat) (next : Session)
  | load (path : String) (next : FileContent → Session)
  | save (path content : String) (next : Except FileError Unit → Session)

namespace Session

def printAll (lines : List String) (next : Session) : Session := lines.foldr print next

def fail (f : Failure) : Session := .finish (.error f)

end Session

open Session

def cellText : Cell → String
  | .null => ""
  | .int n => toString n
  | .double bits => Decimal.ofBits bits.toNat
  | .text s => s
  | .bool b => toString b

/-- The rows of a batch. -/
def rowsOf (b : Batch) : List (List String) :=
  b.columns.foldr (fun column rows => List.zipWith (fun c row => cellText c :: row) column rows)
    (List.replicate b.rows [])

/-- All batches in one table, under the names of the first one's fields. -/
def tableLines : Batches → List String
  | [] => [""]
  | b :: bs =>
    Text.Table.lines ⟨b.schema.fields.map (·.name), (b :: bs).flatMap rowsOf⟩

def banner : List String := [
  "Query Engine sharded runner v0.1.0",
  "Sub queries run with bounded parallelism and merge in metric order",
  ""]

def headline (s : Settings) (r : Request) : String :=
  let count := r.metrics.length
  let strategy := s.sharding.strategy
  s!"→ Sharding {count} metrics, {s.sharding.parallelism} at a time, merge '{strategy}'"

def resultLines (bs : Batches) (milliseconds : Nat) : List String :=
  tableLines bs ++ [
    s!"✓ {Batch.totalRows bs} rows in {bs.length} batches",
    s!"Execution time: {milliseconds}.00ms"]

def failureLine (e : ShardingError) : String :=
  let label := if e.isCancellation then "Cancelled" else "Failed"
  s!"✗ {label} (status {e.status}): {e.message}"

/-- How long a run takes until its outcome is there. -/
def elapsed (s : Settings) (r : Request) (a : Ambient) : Nat :=
  match simulate s r a with
  | .ok sim => sim.deliveredAt.getD sim.now
  | .error _ => 0

def query (s : Settings) (r : Request) (a : Ambient) : Session :=
  match s.validate with
  | .error f => fail (.settings f)
  | .ok () =>
    if r.metrics.isEmpty then fail .noMetrics
    else
      let milliseconds := elapsed s r a
      .print (headline s r) <| .pause milliseconds <|
        match outcome s r a with
        | .ok bs => printAll (resultLines bs milliseconds) (.finish (.ok ()))
        | .error e => .print (failureLine e) (fail (.sharding e))

def saveLine (path : String) : String :=
  let shown := Text.quote path
  s!"✓ Saved to {shown}"

def saveTo (s : Settings) (path : String) : Session :=
  .save path s.text fun
    | .ok () => .print (saveLine path) (.finish (.ok ()))
    | .error e => fail (.save e)

/-- The effective settings, if a run would accept them. -/
def showSettings (s : Settings) (path : Option String) : Session :=
  match s.validate with
  | .error f => fail (.settings f)
  | .ok () =>
    let known := MergerRegistry.builtIn.strategies
    if s.sharding.strategy ∈ known then
      let names := ", ".intercalate known
      printAll ["Sharding configuration:", s.text, s!"Merge strategies: {names}"] <|
        match path with
        | some path => saveTo s path
        | none => .finish (.ok ())
    else fail (.unknownStrategy s.sharding.strategy known)

def command (s : Settings) (c : Command) (a : Ambient) : Session :=
  match c with
  | .run r o => printAll banner (query (s.override o) r a)
  | .config o path => showSettings (s.override o) path

/-- The settings are loaded before anything else is done. -/
def session (i : Invocation) (a : Ambient) : Session :=
  match i.config with
  | none => command .default i.command a
  | some path =>
    .load path fun content =>
      match Settings.ofFile content with
      | .ok s => command s i.command a
      | .error e => fail (.load e)

def versionLine : String := "qe-shard 0.1.0"

end ScatterGather.Cli
