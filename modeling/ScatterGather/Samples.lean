import ScatterGather.Merger.Batches
import ScatterGather.Simulation.Basic
/-!
Shards that make their samples up: one batch of evenly spaced samples for each metric. Shards of
later metrics answer sooner, so results come back out of order.
-/
namespace ScatterGather

/-- The samples of one metric. -/
structure Samples where
  metric : String
  /-- The position of the metric among the shards. -/
  position : Nat
  time : TimeRange
  points : Nat

namespace Samples

/-- The distance of two samples in time; it is toward zero. -/
def spacing (s : Samples) : Int64 := s.time.duration / Int64.ofNat (max s.points 1)

def timestamp (s : Samples) (i : Nat) : Int64 := s.time.start + s.spacing * Int64.ofNat i

def value (s : Samples) (i : Nat) : Float :=
  Float.ofNat (s.position * 100) + Float.ofNat i * 1.5

def schema : Schema :=
  ⟨[⟨"timestamp", .int64, false, .empty⟩, ⟨"metric", .utf8, false, .empty⟩,
    ⟨"value", .float64, false, .empty⟩], .empty⟩

/-- One row for each point. The metric may be of any length: a column with more bytes of text than
offsets of 32 bits can count is left out. -/
def batch (s : Samples) : Batch where
  schema
  rows := s.points
  columns := [
    (List.range s.points).map fun i => .int (s.timestamp i).toInt,
    List.replicate s.points (.text s.metric),
    (List.range s.points).map fun i => .double (s.value i).toBits]
  width := rfl
  height c hc := by
    simp only [List.mem_cons, List.not_mem_nil, or_false] at hc
    rcases hc with rfl | rfl | rfl <;> simp

end Samples

structure SampleShards where
  metrics : List String
  /-- Milliseconds that the last shard takes. -/
  latency : UInt64
  points : Nat
  /-- The metric whose shard fails. -/
  failing : Option String

namespace SampleShards

/-- The first position of a metric; a metric without a shard is answered by the first one. -/
def position (s : SampleShards) (metric : String) : Nat := (s.metrics.findIdx? (· = metric)).getD 0

/-- Each shard takes the latency once more than the next one, up to the greatest word. -/
def delay (s : SampleShards) (position : Nat) : Nat :=
  min (s.latency.toNat * (s.metrics.length - position)) (UInt64.size - 1)

def answer (s : SampleShards) (metric : String) (time : TimeRange) : Except QueryError Batches :=
  if s.failing = some metric then .error (.execution s!"shard for '{metric}' is unavailable")
  else .ok [(Samples.mk metric (s.position metric) time s.points).batch]

/-- Only the first metric of a sub query counts. -/
def job (s : SampleShards) (q : Query) : Job Batches :=
  match q.metrics with
  | [] => ⟨0, .answer (.error (.execution "sub query has no metric"))⟩
  | m :: _ => ⟨s.delay (s.position m.metric), .answer (s.answer m.metric q.time)⟩

end SampleShards
end ScatterGather
