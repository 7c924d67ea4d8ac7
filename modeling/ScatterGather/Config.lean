import ScatterGather.Error
import ScatterGather.Text.Blank
import ScatterGather.Json.Decode
import ScatterGather.Json.Value
/-!
The sharding configuration: its checks, its order and its JSON form.
-/
namespace ScatterGather

open Json

structure ShardingConfig where
  executorId : Option String
  executorType : String
  parallelism : UInt64
  strategy : String
  deriving DecidableEq

namespace ShardingConfig

def defaultStrategy : String := "largest"

def defaultType : String := "MetricShardingExecutor"

def new (parallelism : UInt64) : ShardingConfig := ⟨none, defaultType, parallelism, defaultStrategy⟩

def withStrategy (c : ShardingConfig) (strategy : String) : ShardingConfig := { c with strategy }

def withId (c : ShardingConfig) (id : String) : ShardingConfig := { c with executorId := some id }

def withParallelism (c : ShardingConfig) (parallelism : UInt64) : ShardingConfig :=
  { c with parallelism }

def fault? (c : ShardingConfig) : Option Misconfiguration :=
  if c.parallelism = 0 then some .parallelism
  else if Text.isBlank c.strategy then some .blankStrategy
  else none

def validate (c : ShardingConfig) : Except ShardingError Unit :=
  match c.fault? with
  | none => .ok ()
  | some m => .error (.configuration m)

/-- An absent identifier comes before every present one. -/
def compareId : Option String → Option String → Ordering
  | none, none => .eq
  | none, some _ => .lt
  | some _, none => .gt
  | some a, some b => compare a b

/-- By identifier, type, parallelism and strategy, in this order. -/
def order (a b : ShardingConfig) : Ordering :=
  (compareId a.executorId b.executorId).then <|
    (compare a.executorType b.executorType).then <|
      (compare a.parallelism b.parallelism).then (compare a.strategy b.strategy)

def le (a b : ShardingConfig) : Bool := (order a b).isLE

/-- The positions of the configurations in ascending order; equal ones keep theirs. -/
def ranking (cs : List ShardingConfig) : List Nat :=
  (cs.zipIdx.mergeSort fun a b => a.1.le b.1).map Prod.snd

def distinct (cs : List ShardingConfig) : List ShardingConfig := cs.eraseDups

def toJson (c : ShardingConfig) : Json :=
  .object <|
    (c.executorId.map fun s => ("executorId", Json.string s)).toList ++
    [("executorType", .string c.executorType),
      ("parallelExecutors", .number c.parallelism.toNat),
      ("mergeStrategy", .string c.strategy)]

structure Draft where
  executorId : Option (Option String) := none
  executorType : Option String := none
  parallelism : Option UInt64 := none
  strategy : Option String := none

def record : Record Draft ShardingConfig where
  name := "ShardingConfig"
  fields := [
    .of "executorId" true (Reading.optional Reading.text) fun v d =>
      { d with executorId := some v },
    .of "executorType" true Reading.text fun v d => { d with executorType := some v },
    .of "parallelExecutors" false Reading.word fun v d => { d with parallelism := some v },
    .of "mergeStrategy" true Reading.text fun v d => { d with strategy := some v }]
  empty := {}
  finish d := do
    return ⟨d.executorId.getD none, d.executorType.getD defaultType,
      ← required "parallelExecutors" d.parallelism, d.strategy.getD defaultStrategy⟩

def ofText (s : String) : Except ShardingError ShardingConfig :=
  (Json.decode record.decode s).mapError .serialization

def text (c : ShardingConfig) : String := c.toJson.pretty

end ShardingConfig

/-- The bytes of a file, or why there are none. -/
abbrev FileContent := Except FileError ByteArray

def FileContent.text : FileContent → Except FileError String
  | .error e => .error e
  | .ok b =>
    match String.fromUTF8? b with
    | some s => .ok s
    | none => .error .notUtf8

def ShardingConfig.ofFile (f : FileContent) : Except ShardingError ShardingConfig :=
  match f.text with
  | .ok s => ofText s
  | .error e => .error (.file e)

end ScatterGather
