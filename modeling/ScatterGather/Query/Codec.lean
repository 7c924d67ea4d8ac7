import ScatterGather.Query.Basic
import ScatterGather.Json.Decode
import ScatterGather.Json.Value
/-!
Queries as JSON. Members that hold their default are left out: no parent, no aggregator, no tags.
-/
namespace ScatterGather

open Json

def Uuid.toJson (u : Uuid) : Json := .string u.hyphenated

namespace TimeRange

def toJson (t : TimeRange) : Json :=
  .object [("startMs", .number t.start.toInt), ("endMs", .number t.stop.toInt)]

structure Draft where
  start : Option Int64 := none
  stop : Option Int64 := none

def record : Record Draft TimeRange where
  name := "TimeRange"
  fields := [
    .of "startMs" false Reading.instant fun v d => { d with start := some v },
    .of "endMs" false Reading.instant fun v d => { d with stop := some v }]
  empty := {}
  finish d := do return ⟨← required "startMs" d.start, ← required "endMs" d.stop⟩

end TimeRange

namespace Tags

def toJson (t : Tags) : Json := .object (t.entries.map fun e => (e.1, .string e.2))

def decoder : Decoder Tags := fun r => (Reading.entries Reading.text r).map StringMap.ofList

end Tags

namespace Metric

def toJson (m : Metric) : Json :=
  .object <|
    [("id", .string m.id), ("metric", .string m.metric)] ++
    (m.aggregator.map fun a => ("aggregator", Json.string a)).toList ++
    (if m.tags.entries.isEmpty then [] else [("tags", m.tags.toJson)])

structure Draft where
  id : Option String := none
  metric : Option String := none
  aggregator : Option (Option String) := none
  tags : Option Tags := none

def record : Record Draft Metric where
  name := "Metric"
  fields := [
    .of "id" false Reading.text fun v d => { d with id := some v },
    .of "metric" false Reading.text fun v d => { d with metric := some v },
    .of "aggregator" true (Reading.optional Reading.text) fun v d =>
      { d with aggregator := some v },
    .of "tags" true Tags.decoder fun v d => { d with tags := some v }]
  empty := {}
  finish d := do
    return ⟨← required "id" d.id, ← required "metric" d.metric, d.aggregator.getD none,
      d.tags.getD .empty⟩

end Metric

namespace QueryId

def decoder : Decoder QueryId := fun r => (Reading.uuid r).map QueryId.mk

def toJson (id : QueryId) : Json := id.uuid.toJson

end QueryId

namespace ExecutionId

def decoder : Decoder ExecutionId := fun r => (Reading.uuid r).map ExecutionId.mk

def toJson (id : ExecutionId) : Json := id.uuid.toJson

end ExecutionId

namespace Query

def toJson (q : Query) : Json :=
  .object <|
    [("id", q.id.toJson)] ++
    (q.parent.map fun p => ("parent", p.toJson)).toList ++
    [("order", .number q.order.toNat), ("time", q.time.toJson),
      ("metrics", .array (q.metrics.map Metric.toJson))]

structure Draft where
  id : Option QueryId := none
  parent : Option (Option QueryId) := none
  order : Option UInt32 := none
  time : Option TimeRange := none
  metrics : Option (List Metric) := none

/-- A query without an identifier gets the one at hand. -/
def record (fresh : QueryId) : Record Draft Query where
  name := "TimeSeriesQuery"
  fields := [
    .of "id" true QueryId.decoder fun v d => { d with id := some v },
    .of "parent" true (Reading.optional QueryId.decoder) fun v d => { d with parent := some v },
    .of "order" true Reading.ordinal fun v d => { d with order := some v },
    .of "time" false TimeRange.record.decode fun v d => { d with time := some v },
    .of "metrics" true (Reading.list Metric.record.decode) fun v d => { d with metrics := some v }]
  empty := {}
  finish d := do
    return ⟨d.id.getD fresh, d.parent.getD none, d.order.getD 0, ← required "time" d.time,
      d.metrics.getD []⟩

def ofText (fresh : QueryId) (s : String) : Except Json.Error Query :=
  Json.decode (record fresh).decode s

end Query
end ScatterGather
