import ScatterGather.Batch

/-! The rows of a batch. With its schema they are all there is to it, and batches that are put
together have their rows one after the other. -/
namespace ScatterGather.Batch

variable {T C ι : Type} {n : Nat} {cs : List (List C)} {a b : Batch T C}

/-- Columns of one height read across: one row after the other, each with a cell of every column.
Where there are no columns the rows are empty. -/
def across (height : Nat) (columns : List (List C)) : List (List C) :=
  columns.foldr (List.zipWith (· :: ·)) (List.replicate height [])

/-- The rows of a batch from top to bottom. -/
def table (b : Batch T C) : List (List C) := across b.rows b.columns

theorem across_nil : across n ([] : List (List C)) = List.replicate n [] := rfl

theorem across_cons {c : List C} :
    across n (c :: cs) = List.zipWith (· :: ·) c (across n cs) := rfl

theorem length_across (h : ∀ c ∈ cs, c.length = n) : (across n cs).length = n := by
  induction cs with
  | nil => exact List.length_replicate
  | cons c cs ih =>
    obtain ⟨hc, hcs⟩ := List.forall_mem_cons.1 h
    rw [across_cons, List.length_zipWith, hc, ih hcs, Nat.min_self]

theorem length_table (b : Batch T C) : b.table.length = b.rows := length_across b.height

/-- A cell of a row is the cell of the column. -/
theorem getElem?_across (h : ∀ c ∈ cs, c.length = n) (i j : Nat) :
    (across n cs)[i]?.bind (·[j]?) = cs[j]?.bind (·[i]?) := by
  induction cs generalizing j with
  | nil =>
    rw [across_nil, List.getElem?_replicate]
    split <;> rfl
  | cons c cs ih =>
    obtain ⟨hc, hcs⟩ := List.forall_mem_cons.1 h
    have hlen := length_across hcs
    rw [across_cons, List.getElem?_zipWith]
    by_cases hi : i < n
    · rw [List.getElem?_eq_getElem (hc ▸ hi)]
      cases j with
      | zero => simp [List.getElem?_eq_getElem (hlen.symm ▸ hi), hc, hi]
      | succ j =>
        rw [List.getElem?_cons_succ, ← ih hcs]
        simp [List.getElem?_eq_getElem (hlen.symm ▸ hi)]
    · have hno : ∀ c' ∈ c :: cs, c'[i]? = none := fun c' hc' =>
        List.getElem?_eq_none (by rw [h c' hc']; exact Nat.le_of_not_lt hi)
      rw [hno c List.mem_cons_self]
      cases hj : (c :: cs)[j]? with
      | none => rfl
      | some c' => exact (hno c' (List.mem_of_getElem? hj)).symm

/-- A batch is made up of its schema and its rows. -/
theorem eq_of_table (hs : a.schema = b.schema) (ht : a.table = b.table) : a = b := by
  have hrows : a.rows = b.rows := by rw [← length_table, ht, length_table]
  have hcells (i j : Nat) : a.columns[j]?.bind (·[i]?) = b.columns[j]?.bind (·[i]?) := by
    rw [← getElem?_across a.height, ← getElem?_across b.height]
    exact congrArg (fun t => t[i]?.bind (·[j]?)) ht
  have hwidth : a.columns.length = b.columns.length := by rw [a.width, b.width, hs]
  have hcolumns : a.columns = b.columns := by
    apply List.ext_getElem hwidth
    intro j ha hb
    apply List.ext_getElem?
    intro i
    simpa [List.getElem?_eq_getElem ha, List.getElem?_eq_getElem hb] using hcells i j
  cases a
  cases b
  cases hs
  cases hrows
  cases hcolumns
  rfl

/-- Rows stand below each other where the columns do. -/
theorem across_append {f g : ι → List C} {m : Nat} {js : List ι}
    (hf : ∀ j ∈ js, (f j).length = m) :
    across (m + n) (js.map fun j => f j ++ g j) =
      across m (js.map f) ++ across n (js.map g) := by
  induction js with
  | nil => exact List.replicate_append_replicate.symm
  | cons j js ih =>
    obtain ⟨hj, hjs⟩ := List.forall_mem_cons.1 hf
    have hlen : (across m (js.map f)).length = m :=
      length_across fun c hc => by
        obtain ⟨k, hk, rfl⟩ := List.mem_map.1 hc
        exact hjs k hk
    rw [List.map_cons, List.map_cons, List.map_cons, across_cons, across_cons, across_cons, ih hjs,
      List.zipWith_append (hj.trans hlen.symm)]

theorem columns_eq (b : Batch T C) :
    b.columns = (List.range b.schema.fields.length).map b.column := by
  apply List.ext_getElem
  · rw [b.width, List.length_map, List.length_range]
  · intro j hj _
    rw [List.getElem_map, List.getElem_range, column, List.getElem?_eq_getElem hj,
      Option.getD_some]

/-- The rows of batches put together are the rows of all batches in order. -/
theorem table_concat {schema : Schema T} {bs : List (Batch T C)}
    (h : ∀ b ∈ bs, b.schema = schema) : (concat schema bs h).table = bs.flatMap table := by
  change across (totalRows bs) ((List.range schema.fields.length).map (stacked bs)) = _
  induction bs with
  | nil =>
    apply List.eq_nil_of_length_eq_zero
    exact length_across fun c hc => by
      obtain ⟨j, -, rfl⟩ := List.mem_map.1 hc
      rfl
  | cons b bs ih =>
    obtain ⟨hb, hbs⟩ := List.forall_mem_cons.1 h
    have hcolumns : ∀ j ∈ List.range schema.fields.length, (b.column j).length = b.rows :=
      fun j hj => b.length_column j (by rw [hb]; exact List.mem_range.1 hj)
    calc across (b.rows + totalRows bs)
          ((List.range schema.fields.length).map fun j => b.column j ++ stacked bs j)
        = across b.rows ((List.range schema.fields.length).map b.column) ++
            across (totalRows bs) ((List.range schema.fields.length).map (stacked bs)) :=
          across_append hcolumns
      _ = b.table ++ bs.flatMap table := by
        rw [ih hbs, ← hb, ← columns_eq]
        rfl
      _ = (b :: bs).flatMap table := (List.flatMap_cons ..).symm

end ScatterGather.Batch
