import ScatterGather.Query.Basic
/-!
Splitting a query into sub queries. New identifiers are drawn from a supply, one per position.
-/
namespace ScatterGather

abbrev IdSupply := Nat → QueryId

/-- A way to cut a query into sub queries. -/
abbrev Splitter := IdSupply → Query → Except QueryError (List Query)

/-- The sub query of one metric. -/
def Query.subQuery (q : Query) (id : QueryId) (m : Metric) : Query :=
  ⟨id, some q.id, q.order, q.time, [m]⟩

def Query.subQueries (fresh : IdSupply) (q : Query) : List Query :=
  q.metrics.mapIdx fun i m => q.subQuery (fresh i) m

namespace Splitter

/-- One sub query per metric, in the order of the metrics, for a valid query. -/
def byMetric : Splitter := fun fresh q =>
  match q.validate with
  | .ok () => .ok (q.subQueries fresh)
  | .error e => .error e

def reversed (s : Splitter) : Splitter := fun fresh q => (s fresh q).map List.reverse

def first (n : Nat) (s : Splitter) : Splitter := fun fresh q => (s fresh q).map (List.take n)

def empty : Splitter := fun _ _ => .ok []

def failing (e : QueryError) : Splitter := fun _ _ => .error e

end Splitter
end ScatterGather
