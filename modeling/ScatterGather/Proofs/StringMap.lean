import ScatterGather.StringMap

/-! What a map finds under its keys, and which lists of entries make it. -/
namespace ScatterGather.StringMap

variable {α : Type} {m : StringMap α} {k : String}

theorem lookup_cons_ite (k : String) (v : α) (r : List (String × α)) (k' : String) :
    ((k, v) :: r).lookup k' = if k' = k then some v else r.lookup k' := by
  rw [List.lookup_cons]
  by_cases hk : k' = k
  · rw [if_pos hk, hk, beq_self_eq_true]
  · rw [if_neg hk, beq_false_of_ne hk]

theorem lookup_place (k : String) (v : α) (r : List (String × α)) (k' : String) :
    (place k v r).lookup k' = if k' = k then some v else r.lookup k' := by
  fun_induction place k v r with
  | case1 => exact lookup_cons_ite k v [] k'
  | case2 => exact lookup_cons_ite k v _ k'
  | case3 k₁ v₁ r _ hlt ih =>
    rw [lookup_cons_ite, lookup_cons_ite, ih]
    by_cases hk : k' = k
    · have hne : k' ≠ k₁ := fun hx => String.lt_irrefl k₁ (by rwa [← hk, hx] at hlt)
      rw [if_neg hne, if_pos hk, if_pos hk]
    · simp only [if_neg hk]
  | case4 k₁ v₁ r h₁ h₂ =>
    obtain rfl : k = k₁ := String.le_antisymm (String.not_lt.1 h₂) (String.not_lt.1 h₁)
    rw [lookup_cons_ite, lookup_cons_ite]
    by_cases hk : k' = k
    · rw [if_pos hk, if_pos hk]
    · simp only [if_neg hk]

@[simp] theorem get?_empty (k : String) : (empty : StringMap α).get? k = none := rfl

@[simp] theorem get?_insert (m : StringMap α) (k : String) (v : α) (k' : String) :
    (m.insert k v).get? k' = if k' = k then some v else m.get? k' :=
  lookup_place k v m.entries k'

theorem mem_keys : k ∈ m.keys ↔ ∃ v, m.get? k = some v := by
  rw [← Option.isSome_iff_exists, get?, List.lookup_isSome_iff, keys, List.mem_map]
  simp only [beq_iff_eq, eq_comm (a := k)]

theorem pairwise_keys (m : StringMap α) : m.keys.Pairwise (· < ·) := List.pairwise_map.2 m.sorted

theorem length_keys (m : StringMap α) : m.keys.length = m.size := List.length_map _

theorem eq_of_entries {m m' : StringMap α} (h : m.entries = m'.entries) : m = m' := by
  cases m
  cases m'
  cases h
  rfl

theorem eq_empty {m : StringMap α} (h : m.entries = []) : m = empty := eq_of_entries h

theorem place_perm {k : String} {v : α} {r : List (String × α)} (h : ∀ e ∈ r, e.1 ≠ k) :
    (place k v r).Perm ((k, v) :: r) := by
  induction r with
  | nil => exact .refl _
  | cons e r ih =>
    obtain ⟨he, hr⟩ := List.forall_mem_cons.1 h
    rw [place]
    by_cases hlt : k < e.1
    · rw [if_pos hlt]
    · have hgt : e.1 < k :=
        String.not_le.1 fun hle => he (String.le_antisymm (String.not_lt.1 hlt) hle)
      rw [if_neg hlt, if_pos hgt]
      exact ((ih hr).cons e).trans (.swap _ _ r)

/-- Under keys that are all different, nothing is replaced. -/
theorem foldl_insert_perm {es : List (String × α)} (hes : (es.map (·.1)).Nodup) :
    ∀ m : StringMap α, (∀ e ∈ es, ∀ e' ∈ m.entries, e'.1 ≠ e.1) →
      (es.foldl (fun m e => m.insert e.1 e.2) m).entries.Perm (es ++ m.entries) := by
  induction es with
  | nil => exact fun m _ => .refl _
  | cons e es ih =>
    intro m hm
    obtain ⟨he, hes⟩ := List.nodup_cons.1 hes
    obtain ⟨hfirst, hrest⟩ := List.forall_mem_cons.1 hm
    have hplace : (m.insert e.1 e.2).entries.Perm (e :: m.entries) := place_perm hfirst
    have hfree : ∀ e' ∈ es, ∀ e'' ∈ (m.insert e.1 e.2).entries, e''.1 ≠ e'.1 := by
      intro e' he' e'' he'' hx
      rcases List.mem_cons.1 (hplace.mem_iff.1 he'') with rfl | hmem
      · exact he (List.mem_map.2 ⟨e', he', hx.symm⟩)
      · exact hrest e' he' e'' hmem hx
    exact (ih hes _ hfree).trans ((hplace.append_left es).trans List.perm_middle)

/-- A map is made again from its entries, in whatever order they come. -/
theorem ofList_perm {m : StringMap α} {es : List (String × α)} (h : es.Perm m.entries) :
    ofList es = m := by
  have hkeys : (es.map (·.1)).Nodup := by
    refine (h.map _).nodup_iff.2 (List.pairwise_map.2 (m.sorted.imp fun hlt hx => ?_))
    exact String.lt_irrefl _ (hx ▸ hlt)
  have hperm : (ofList es).entries.Perm m.entries := by
    have hall := foldl_insert_perm hkeys empty fun _ _ _ hn => (List.not_mem_nil hn).elim
    exact (hall.trans (.of_eq (List.append_nil es))).trans h
  exact eq_of_entries <| hperm.eq_of_pairwise
    (fun _ _ _ _ hab hba => (String.lt_asymm hab hba).elim) (ofList es).sorted m.sorted

end ScatterGather.StringMap
