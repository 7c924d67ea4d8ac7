/-!
Sums of numbers.
-/
namespace ScatterGather

/-- A sum starts from the literal zero, whatever algebra is known of numbers. -/
scoped instance literalZero : Zero Nat := Zero.ofOfNat0

theorem sum_map_set {α : Type} {l : List α} {a : α} {i : Nat} (f : α → Nat) (b : α)
    (h : l[i]? = some a) : ((l.set i b).map f).sum + f a = (l.map f).sum + f b := by
  induction l generalizing i with
  | nil => simp at h
  | cons c l ih =>
    cases i with
    | zero =>
      obtain rfl : c = a := by simpa using h
      simp only [List.set_cons_zero, List.map_cons, List.sum_cons]
      omega
    | succ i =>
      have := ih (by simpa using h)
      simp only [List.set_cons_succ, List.map_cons, List.sum_cons]
      omega

end ScatterGather
