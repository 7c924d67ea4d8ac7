/-!
Runs of a system that makes one move at a time, with what each of them causes outside.
-/
namespace ScatterGather

variable {S M E : Type}

/-- A run: the state after the moves, and everything that happened outside, in order. -/
def runFrom (step : S → M → Option (S × List E)) (s : S) : List M → Option (S × List E)
  | [] => some (s, [])
  | m :: ms =>
    match step s m with
    | none => none
    | some (s', events) => (runFrom step s' ms).map fun (s'', later) => (s'', events ++ later)

end ScatterGather
