import ScatterGather.Config
import ScatterGather.Proofs.Text.Bytes

/-! Configurations are in lexicographic order, and sorting by it leaves equal ones as they were. -/
namespace ScatterGather.ShardingConfig

open Std Text

variable {a b c : ShardingConfig} {cs : List ShardingConfig}

/-- An absent identifier goes before every present one. -/
def IdPrecedes : Option String → Option String → Prop
  | none, some _ => True
  | some s, some t => bytes s < bytes t
  | _, none => False

/-- The first setting that is not the same decides, and texts go by their bytes. -/
def Precedes (a b : ShardingConfig) : Prop :=
  IdPrecedes a.executorId b.executorId ∨ a.executorId = b.executorId ∧
    (bytes a.executorType < bytes b.executorType ∨ a.executorType = b.executorType ∧
      (a.parallelism.toNat < b.parallelism.toNat ∨ a.parallelism = b.parallelism ∧
        bytes a.strategy < bytes b.strategy))

theorem compareId_eq (s t : Option String) : compareId s t = compare s t := by
  cases s <;> cases t <;> rfl

theorem compare_bytes {s t : String} : compare s t = .lt ↔ bytes s < bytes t := by
  rw [bytes_lt_iff]
  exact compareOfLessAndEq_eq_lt

theorem compareId_lt {s t : Option String} : compareId s t = .lt ↔ IdPrecedes s t := by
  cases s with
  | none => cases t <;> simp [compareId, IdPrecedes]
  | some s =>
    cases t with
    | none => simp [compareId, IdPrecedes]
    | some t => exact compare_bytes

theorem order_lt : order a b = .lt ↔ Precedes a b := by
  have hp : compare a.parallelism b.parallelism = .lt ↔
    a.parallelism.toNat < b.parallelism.toNat := compareOfLessAndEq_eq_lt
  have hid : compareId a.executorId b.executorId = .eq ↔ a.executorId = b.executorId := by
    rw [compareId_eq, LawfulEqOrd.compare_eq_iff_eq]
  simp only [order, Ordering.then_eq_lt, LawfulEqOrd.compare_eq_iff_eq, compareId_lt,
    compare_bytes, hp, hid, Precedes]

instance : TransCmp order := by
  have h : order = compareLex (compareOn executorId) (compareLex (compareOn executorType)
      (compareLex (compareOn parallelism) (compareOn strategy))) := by
    funext a b
    rw [order, compareId_eq]
    rfl
  rw [h]
  infer_instance

instance : LawfulEqCmp order where
  eq_of_compare {a b} h := by
    simp only [order, Ordering.then_eq_eq, compareId_eq, LawfulEqOrd.compare_eq_iff_eq] at h
    obtain ⟨hid, htype, hparallelism, hstrategy⟩ := h
    cases a
    cases b
    simp_all

theorem order_gt : order a b = .gt ↔ Precedes b a := by
  rw [OrientedCmp.gt_iff_lt, order_lt]

theorem order_eq : order a b = .eq ↔ a = b := LawfulEqCmp.compare_eq_iff_eq

theorem not_precedes_of_precedes (h : Precedes a b) : a ≠ b ∧ ¬ Precedes b a := by
  have hab := order_lt.2 h
  constructor
  · rintro rfl
    cases (order_eq.2 rfl).symm.trans hab
  · rw [← order_gt, hab]
    nofun

theorem le_iff : a.le b = true ↔ ¬ Precedes b a := by
  rw [le, ← order_gt, Ordering.isLE_iff_ne_gt]

theorem le_trans (a b c : ShardingConfig) : a.le b = true → b.le c = true → a.le c = true :=
  TransCmp.isLE_trans

theorem le_total (a b : ShardingConfig) : (a.le b || b.le a) = true := by
  rw [Bool.or_eq_true, le_iff, le_iff]
  by_cases h : Precedes a b
  · exact .inl (not_precedes_of_precedes h).2
  · exact .inr h

/-- The configurations with their positions, in order. -/
def ranked (cs : List ShardingConfig) : List (ShardingConfig × Nat) :=
  cs.zipIdx.mergeSort fun p q => p.1.le q.1

theorem ranking_eq (cs : List ShardingConfig) : ranking cs = (ranked cs).map Prod.snd := rfl

theorem getElem?_of_ranked {p : ShardingConfig × Nat} (h : p ∈ ranked cs) : cs[p.2]? = some p.1 :=
  List.mem_zipIdx_iff_getElem?.1 (List.mem_mergeSort.1 h)

theorem ranking_perm (cs : List ShardingConfig) : (ranking cs).Perm (List.range cs.length) := by
  have h := (List.mergeSort_perm cs.zipIdx fun p q => p.1.le q.1).map Prod.snd
  rwa [List.zipIdx_map_snd, ← List.range_eq_range'] at h

theorem map_ranked (cs : List ShardingConfig) : (ranked cs).map Prod.fst = cs.mergeSort le := by
  have h := List.map_mergeSort (r := fun p q => p.1.le q.1) (s := le) (f := Prod.fst)
    (l := cs.zipIdx) fun _ _ _ _ => rfl
  rwa [List.zipIdx_map_fst] at h

theorem snd_of_zipIdx_zipIdx {p : (ShardingConfig × Nat) × Nat} (h : p ∈ cs.zipIdx.zipIdx) :
    p.2 = p.1.2 := by
  have h := List.mem_zipIdx_iff_getElem?.1 h
  rw [List.getElem?_zipIdx, Option.map_eq_some_iff] at h
  obtain ⟨c, -, h⟩ := h
  simpa using congrArg Prod.snd h

/-- Where the order does not decide, the earlier position goes first. -/
theorem ranked_stable (cs : List ShardingConfig) :
    (ranked cs).Pairwise fun p q => p.1.le q.1 ∧ (q.1.le p.1 → p.2 ≤ q.2) := by
  rw [ranked, ← List.mergeSort_zipIdx, List.pairwise_map]
  have hsorted := List.pairwise_mergeSort
    (List.zipIdxLE_trans fun p q r => le_trans p.1 q.1 r.1)
    (List.zipIdxLE_total fun p q => le_total p.1 q.1) cs.zipIdx.zipIdx
  refine hsorted.imp_of_mem fun {p q} hp hq h => ?_
  rw [List.mem_mergeSort] at hp hq
  rw [← snd_of_zipIdx_zipIdx hp, ← snd_of_zipIdx_zipIdx hq]
  simp only [List.zipIdxLE] at h
  split at h
  case isFalse => cases h
  case isTrue hle =>
    refine ⟨hle, fun hge => ?_⟩
    rw [if_pos hge] at h
    exact of_decide_eq_true h

/-- The positions `ps` put `cs` in order, and those of equal configurations go up. -/
structure Ranks (cs : List ShardingConfig) (ps : List Nat) : Prop where
  perm : ps.Perm (List.range cs.length)
  sorted : ps.Pairwise fun i j => ∀ a b, cs[i]? = some a → cs[j]? = some b →
    Precedes a b ∨ a = b ∧ i < j

theorem ranks_ranking (cs : List ShardingConfig) : Ranks cs (ranking cs) where
  perm := ranking_perm cs
  sorted := by
    have hdistinct : (ranking cs).Pairwise (· ≠ ·) :=
      (ranking_perm cs).nodup_iff.2 List.nodup_range
    rw [ranking_eq, List.pairwise_map] at hdistinct ⊢
    refine (hdistinct.and (ranked_stable cs)).imp_of_mem fun {p q} hp hq h a b ha hb => ?_
    obtain ⟨hne, hle, hstable⟩ := h
    obtain rfl : p.1 = a := Option.some.inj ((getElem?_of_ranked hp).symm.trans ha)
    obtain rfl : q.1 = b := Option.some.inj ((getElem?_of_ranked hq).symm.trans hb)
    by_cases hlt : Precedes p.1 q.1
    · exact .inl hlt
    · have heq : p.1 = q.1 := by
        cases horder : order p.1 q.1 with
        | lt => exact absurd (order_lt.1 horder) hlt
        | eq => exact order_eq.1 horder
        | gt => exact absurd (order_gt.1 horder) (le_iff.1 hle)
      exact .inr ⟨heq, Nat.lt_of_le_of_ne (hstable (le_iff.2 hlt)) hne⟩

theorem map_ranking (cs : List ShardingConfig) :
    (ranking cs).map (cs[·]?) = (cs.mergeSort le).map some := by
  rw [ranking_eq, ← map_ranked, List.map_map, List.map_map]
  exact List.map_congr_left fun _ hp => getElem?_of_ranked hp

theorem pairwise_mergeSort_le (cs : List ShardingConfig) :
    (cs.mergeSort le).Pairwise fun a b => ¬ Precedes b a :=
  (List.pairwise_mergeSort le_trans le_total cs).imp le_iff.1

/-- Configurations are compared setting by setting, with the texts by their bytes: a total order
in which only a configuration that is the same compares as equal. Sorting puts every list in this
order, and those that are equal stay as they were. -/
theorem order_lexicographic :
    (∀ a b, (order a b = .lt ↔ Precedes a b) ∧ (order a b = .gt ↔ Precedes b a) ∧
      (order a b = .eq ↔ a.executorId = b.executorId ∧ a.executorType = b.executorType ∧
        a.parallelism = b.parallelism ∧ a.strategy = b.strategy) ∧
      (order a b = .eq ↔ a = b)) ∧
    (∀ a b, Precedes a b ∧ a ≠ b ∧ ¬ Precedes b a ∨ ¬ Precedes a b ∧ a = b ∧ ¬ Precedes b a ∨
      ¬ Precedes a b ∧ a ≠ b ∧ Precedes b a) ∧
    (∀ a b c, (Precedes a b → Precedes b c → Precedes a c) ∧
      (a.le b = true → b.le c = true → a.le c = true)) ∧
    ∀ cs, Ranks cs (ranking cs) ∧ (ranking cs).map (cs[·]?) = (cs.mergeSort le).map some ∧
      (cs.mergeSort le).Perm cs ∧ (cs.mergeSort le).Pairwise fun a b => ¬ Precedes b a := by
  refine ⟨fun a b => ⟨order_lt, order_gt, ?_, order_eq⟩, fun a b => ?_,
    fun a b c => ⟨fun hab hbc => ?_, le_trans a b c⟩, fun cs => ⟨ranks_ranking cs, map_ranking cs,
      List.mergeSort_perm cs le, pairwise_mergeSort_le cs⟩⟩
  · rw [order_eq]
    cases a
    cases b
    exact mk.injEq .. ▸ .rfl
  · cases h : order a b with
    | lt =>
      have hab := order_lt.1 h
      exact .inl ⟨hab, not_precedes_of_precedes hab⟩
    | eq =>
      obtain rfl := order_eq.1 h
      have hirrefl : ¬ Precedes a a := fun haa => (not_precedes_of_precedes haa).1 rfl
      exact .inr (.inl ⟨hirrefl, rfl, hirrefl⟩)
    | gt =>
      have hba := order_gt.1 h
      obtain ⟨hne, hab⟩ := not_precedes_of_precedes hba
      exact .inr (.inr ⟨hab, hne.symm, hba⟩)
  · exact order_lt.1 (TransCmp.lt_trans (order_lt.2 hab) (order_lt.2 hbc))

/-- A configuration without an identifier goes first, and then the number of places decides only
where the identifiers are the same. A character beyond the first plane goes after all others, as
its bytes do. -/
theorem order_places_after_identifiers :
    Precedes (new 9) ((new 2).withId "b") ∧
      Precedes ((new 4).withId "\uffff") ((new 2).withId "😀") := by
  obtain ⟨horder, -, htrans, -⟩ := order_lexicographic
  have hab : Precedes ((new 2).withId "a") ((new 4).withId "a") := (horder _ _).1.1 (by decide)
  have hb : Precedes ((new 4).withId "a") ((new 2).withId "b") := (horder _ _).1.1 (by decide)
  have hnone : Precedes (new 9) ((new 2).withId "a") := (horder _ _).1.1 (by decide)
  exact ⟨(htrans _ _ _).1 hnone ((htrans _ _ _).1 hab hb), (horder _ _).1.1 (by decide)⟩

end ScatterGather.ShardingConfig
