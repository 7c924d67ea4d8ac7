import ScatterGather.Batch
import ScatterGather.Merger
/-!
The built-in mergers. Each shard gives a list of batches, and the shards are always visited in their
order.
-/
namespace ScatterGather

/-- What one shard gives. -/
abbrev Batches (T : Type := DataType) (C : Type := Cell) := List (Batch T C)

namespace Merger

variable {T C : Type}

/-- The better of a shard and the best one before it: the one with more rows, or the earlier. -/
def larger (best : Option (Batches T C)) (shard : Batches T C) : Option (Batches T C) :=
  match best with
  | none => some shard
  | some b => if Batch.totalRows b < Batch.totalRows shard then some shard else some b

def largest : Merger (Batches T C) :=
  ⟨"largest", fun shards => .value ((shards.foldl larger none).getD [])⟩

def concat : Merger (Batches T C) := ⟨"concat", fun shards => .value shards.flatten⟩

variable [DecidableEq T]

/-- Puts all batches into one, if they share a schema. -/
def coalesced : Batches T C → Except QueryError (Batches T C)
  | [] => .ok []
  | b :: bs =>
    match h : Batch.stranger? b.schema (b :: bs) with
    | some i => .error (.merge s!"Batch {i} has a different schema than batch 0")
    | none => .ok [Batch.concat b.schema (b :: bs) (Batch.schema_of_stranger? h)]

def coalesce : Merger (Batches T C) :=
  ⟨"coalesce", fun shards =>
    match coalesced shards.flatten with
    | .ok bs => .value bs
    | .error e => .failure e⟩

end Merger

def MergerRegistry.builtIn : MergerRegistry Batches :=
  .ofMergers [.largest, .concat, .coalesce]

end ScatterGather
