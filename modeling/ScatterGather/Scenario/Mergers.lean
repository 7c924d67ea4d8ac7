import ScatterGather.Merger
/-!
Scripts over a registry of mergers.
-/
namespace ScatterGather.Scenario.Mergers

variable {V : Type}

inductive Step (V : Type)
  | register (m : Merger V)
  | merge (strategy : String) (parts : List V)
  | get (strategy : String)

inductive Answer (V : Type)
  | none
  | bool (b : Bool)
  | merged (strategy : String) (result : Merged V)

/-- The answer, what the mergers were called with, and the registry. -/
def step (r : MergerRegistry V) : Step V → Answer V × List (List V) × MergerRegistry V
  | .register m =>
    let (r', displaced) := r.register m
    (.bool displaced.isSome, [], r')
  | .merge strategy parts =>
    match r.get? strategy with
    | some m => (.merged m.strategy (m.merge parts), [parts], r)
    | none => (.none, [], r)
  | .get strategy => (.bool (r.get? strategy).isSome, [], r)

end ScatterGather.Scenario.Mergers
