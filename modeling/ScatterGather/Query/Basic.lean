import ScatterGather.Error
import ScatterGather.StringMap
/-!
Time-series queries: a span of time and the metrics wanted from it.
-/
namespace ScatterGather

/-- Milliseconds from `start` up to, but not including, `stop`. -/
structure TimeRange where
  start : Int64
  stop : Int64
  deriving DecidableEq

namespace TimeRange

def isValid (t : TimeRange) : Bool := t.start < t.stop

/-- Saturates at the ends of the 64-bit range. -/
def duration (t : TimeRange) : Int64 :=
  Int64.ofInt <|
    max Int64.minValue.toInt (min Int64.maxValue.toInt (t.stop.toInt - t.start.toInt))

end TimeRange

abbrev Tags := StringMap String

structure Metric where
  id : String
  metric : String
  aggregator : Option String
  tags : Tags
  deriving DecidableEq

/-- A metric under its own name. -/
def Metric.plain (name : String) : Metric := ⟨name, name, none, .empty⟩

def Metric.withAggregator (m : Metric) (aggregator : String) : Metric :=
  { m with aggregator := some aggregator }

def Metric.withTag (m : Metric) (key value : String) : Metric :=
  { m with tags := m.tags.insert key value }

/-- `parent` is the query that a sub query was split from. -/
structure Query where
  id : QueryId
  parent : Option QueryId
  order : UInt32
  time : TimeRange
  metrics : List Metric
  deriving DecidableEq

namespace Query

def new (id : QueryId) (time : TimeRange) : Query := ⟨id, none, 0, time, []⟩

def withOrder (q : Query) (order : UInt32) : Query := { q with order }

def withMetric (q : Query) (m : Metric) : Query := { q with metrics := q.metrics ++ [m] }

/-- Why a query cannot be planned. -/
inductive Fault
  | range (query : QueryId) (time : TimeRange)
  | duplicate (query : QueryId) (metric : String)
  deriving DecidableEq

def Fault.message : Fault → String
  | .range q t => s!"Invalid time range for {q.display}: start {t.start} is not before end {t.stop}"
  | .duplicate q m => s!"Duplicate metric id '{m}' in {q.display}"

def Fault.error (f : Fault) : QueryError := .planning f.message

/-- The first element that is among those before it or in `seen`. -/
def firstRepeat (seen : List String) : List String → Option String
  | [] => none
  | x :: xs => if x ∈ seen then some x else firstRepeat (x :: seen) xs

/-- The range is looked at before the metrics. -/
def fault? (q : Query) : Option Fault :=
  if q.time.isValid then
    (firstRepeat [] (q.metrics.map (·.id))).map (.duplicate q.id)
  else some (.range q.id q.time)

def validate (q : Query) : Except QueryError Unit :=
  match q.fault? with
  | none => .ok ()
  | some f => .error f.error

end Query
end ScatterGather
