/-!
Finite maps from strings, kept by ascending key. Strings are compared by their characters, which is
the order of their bytes in UTF-8.
-/
namespace ScatterGather

structure StringMap (α : Type) where
  entries : List (String × α)
  sorted : entries.Pairwise fun a b => a.1 < b.1
  deriving DecidableEq

namespace StringMap

variable {α : Type} {k : String} {v : α} {r : List (String × α)} {e : String × α}

def empty : StringMap α := ⟨[], .nil⟩

/-- Puts an entry where its key belongs, in place of one with the same key. -/
def place (k : String) (v : α) : List (String × α) → List (String × α)
  | [] => [(k, v)]
  | (k', v') :: r =>
    if k < k' then (k, v) :: (k', v') :: r
    else if k' < k then (k', v') :: place k v r
    else (k, v) :: r

theorem mem_place (h : e ∈ place k v r) : e = (k, v) ∨ e ∈ r := by
  fun_induction place k v r with
  | case1 => simpa using h
  | case2 => simpa using h
  | case3 k' v' r _ _ ih =>
    rcases List.mem_cons.1 h with rfl | h
    · exact .inr List.mem_cons_self
    · exact (ih h).imp_right (List.mem_cons_of_mem _)
  | case4 => grind

theorem sorted_place (h : r.Pairwise fun a b => a.1 < b.1) :
    (place k v r).Pairwise fun a b => a.1 < b.1 := by
  fun_induction place k v r with
  | case1 => simp
  | case2 k' v' r hlt =>
    refine List.pairwise_cons.2 ⟨fun e he => ?_, h⟩
    rcases List.mem_cons.1 he with rfl | he
    · exact hlt
    · exact String.lt_trans hlt ((List.pairwise_cons.1 h).1 e he)
  | case3 k' v' r _ hlt ih =>
    obtain ⟨hr, hp⟩ := List.pairwise_cons.1 h
    refine List.pairwise_cons.2 ⟨fun e he => ?_, ih hp⟩
    rcases mem_place he with rfl | he
    · exact hlt
    · exact hr e he
  | case4 k' v' r h₁ h₂ =>
    obtain ⟨hr, hp⟩ := List.pairwise_cons.1 h
    have : k = k' := String.le_antisymm (String.not_lt.1 h₂) (String.not_lt.1 h₁)
    subst this
    exact List.pairwise_cons.2 ⟨hr, hp⟩

def insert (m : StringMap α) (k : String) (v : α) : StringMap α :=
  ⟨place k v m.entries, sorted_place m.sorted⟩

/-- A later entry replaces an earlier one with its key. -/
def ofList (es : List (String × α)) : StringMap α :=
  es.foldl (fun m e => m.insert e.1 e.2) empty

def get? (m : StringMap α) (k : String) : Option α := m.entries.lookup k

def keys (m : StringMap α) : List String := m.entries.map (·.1)

def isEmpty (m : StringMap α) : Bool := m.entries.isEmpty

def size (m : StringMap α) : Nat := m.entries.length

end StringMap
end ScatterGather
