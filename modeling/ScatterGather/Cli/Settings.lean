import ScatterGather.Config
/-!
The settings of the command line: a sharding configuration, and how the simulated shards behave.
Every setting has a default, and a setting given on the command line goes before the one in the
file.
-/
namespace ScatterGather.Cli

open Json

structure Settings where
  sharding : ShardingConfig
  /-- Milliseconds that the last shard takes. -/
  latency : UInt64
  /-- Samples of each metric. -/
  points : UInt64
  deriving DecidableEq

/-- What the command line may set. -/
structure Overrides where
  parallelism : Option UInt64 := none
  strategy : Option String := none
  latency : Option UInt64 := none
  points : Option UInt64 := none
  deriving DecidableEq

inductive SettingsFault
  | sharding (e : ShardingError)
  | noPoints
  deriving DecidableEq

def noPointsMessage : String := "points must be at least 1"

/-- Why a settings file is not read. -/
inductive LoadError
  | file (e : FileError)
  | json (e : Json.Error)
  deriving DecidableEq

def LoadError.message : LoadError → String
  | .file e => e.message
  | .json e => e.message

namespace Settings

def default : Settings := ⟨.new 4, 20, 5⟩

def override (s : Settings) (o : Overrides) : Settings where
  sharding := { s.sharding with
    parallelism := o.parallelism.getD s.sharding.parallelism
    strategy := o.strategy.getD s.sharding.strategy }
  latency := o.latency.getD s.latency
  points := o.points.getD s.points

/-- The sharding configuration is looked at first. -/
def validate (s : Settings) : Except SettingsFault Unit :=
  match s.sharding.validate with
  | .error e => .error (.sharding e)
  | .ok () => if s.points = 0 then .error .noPoints else .ok ()

def toJson (s : Settings) : Json :=
  .object [("sharding", s.sharding.toJson), ("latencyMs", .number s.latency.toNat),
    ("points", .number s.points.toNat)]

def text (s : Settings) : String := s.toJson.pretty

structure Draft where
  sharding : Option ShardingConfig := none
  latency : Option UInt64 := none
  points : Option UInt64 := none

def record : Record Draft Settings where
  name := "Config"
  fields := [
    .of "sharding" true ShardingConfig.record.decode fun v d => { d with sharding := some v },
    .of "latencyMs" true Reading.milliseconds fun v d => { d with latency := some v },
    .of "points" true Reading.word fun v d => { d with points := some v }]
  empty := {}
  finish d :=
    .ok ⟨d.sharding.getD default.sharding, d.latency.getD default.latency,
      d.points.getD default.points⟩

def ofFile (f : FileContent) : Except LoadError Settings :=
  match f.text with
  | .error e => .error (.file e)
  | .ok s => (Json.decode record.decode s).mapError .json

end Settings
end ScatterGather.Cli
