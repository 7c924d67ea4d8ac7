import ScatterGather.Error
import ScatterGather.StringMap
/-!
Mergers combine the results of all sub queries, in the order of the sub queries. A registry finds
them by strategy.
-/
namespace ScatterGather

/-- How a call of a merger returns. -/
inductive Merged (V : Type)
  | value (v : V)
  | failure (e : QueryError)
  | panic

structure Merger (V : Type) where
  strategy : String
  merge : List V → Merged V

/-- A panic counts as a merge error that names the strategy. -/
def Merged.result {V : Type} (strategy : String) : Merged V → Except QueryError V
  | .value v => .ok v
  | .failure e => .error e
  | .panic => .error (.merge s!"merger '{strategy}' panicked")

abbrev MergerRegistry (V : Type) := StringMap (Merger V)

namespace MergerRegistry

variable {V : Type}

/-- The registry with the merger under its strategy, and the merger that it displaced. -/
def register (r : MergerRegistry V) (m : Merger V) : MergerRegistry V × Option (Merger V) :=
  (r.insert m.strategy m, r.get? m.strategy)

def ofMergers (ms : List (Merger V)) : MergerRegistry V :=
  ms.foldl (fun r m => (register r m).1) StringMap.empty

def strategies (r : MergerRegistry V) : List String := r.keys

end MergerRegistry
end ScatterGather
