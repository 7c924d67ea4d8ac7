import Mathlib.Data.List.Induction
import ScatterGather.Merger.Batches
import ScatterGather.Proofs.Batch

/-! What the built-in mergers make of the batches of all shards. Coalescing packs the rows that
concatenating gives into one batch, or names the first batch that does not fit; the largest shard is
the first one with the most rows. -/
namespace ScatterGather

namespace Merger

variable {T C : Type} {all all' v v' w : Batches T C} {shards : List (Batches T C)}

def OfOneSchema (bs : Batches T C) : Prop := ∃ schema, ∀ b ∈ bs, b.schema = schema

/-- The second batches have the rows of the first ones, in their order and under their schemas. -/
structure Repacks (all v : Batches T C) : Prop where
  nil_iff : all = [] ↔ v = []
  schema_iff : ∀ schema, (∀ b ∈ all, b.schema = schema) ↔ ∀ b ∈ v, b.schema = schema
  table_eq : all.flatMap Batch.table = v.flatMap Batch.table

theorem Repacks.symm (h : Repacks all v) : Repacks v all :=
  ⟨h.nil_iff.symm, fun schema => (h.schema_iff schema).symm, h.table_eq.symm⟩

theorem Repacks.trans (h : Repacks all v) (h' : Repacks v w) : Repacks all w :=
  ⟨h.nil_iff.trans h'.nil_iff, fun schema => (h.schema_iff schema).trans (h'.schema_iff schema),
    h.table_eq.trans h'.table_eq⟩

theorem Repacks.append (h : Repacks all v) (h' : Repacks all' v') :
    Repacks (all ++ all') (v ++ v') where
  nil_iff := by rw [List.append_eq_nil_iff, List.append_eq_nil_iff, h.nil_iff, h'.nil_iff]
  schema_iff schema := by
    rw [List.forall_mem_append, List.forall_mem_append, h.schema_iff, h'.schema_iff]
  table_eq := by rw [List.flatMap_append, List.flatMap_append, h.table_eq, h'.table_eq]

theorem Repacks.ofOneSchema_iff (h : Repacks all v) : OfOneSchema all ↔ OfOneSchema v :=
  exists_congr h.schema_iff

theorem repacks_concat {schema : Schema T} (h : ∀ b ∈ all, b.schema = schema) (hne : all ≠ []) :
    Repacks all [Batch.concat schema all h] where
  nil_iff := by simp [hne]
  schema_iff other := by
    rw [List.forall_mem_singleton]
    constructor
    · intro ho
      obtain ⟨b, hb⟩ := List.exists_mem_of_ne_nil all hne
      exact (h b hb).symm.trans (ho b hb)
    · rintro rfl
      exact h
  table_eq := by rw [List.flatMap_singleton, Batch.table_concat]

theorem ofOneSchema_of_length_le (h : v.length ≤ 1) : OfOneSchema v := by
  match v, h with
  | [], _ => exact ⟨⟨[], .empty⟩, nofun⟩
  | [b], _ => exact ⟨b.schema, by simp⟩

/-- There is one way to pack rows into at most one batch. -/
theorem Repacks.eq_of_length_le (h : Repacks v w) (hv : v.length ≤ 1) (hw : w.length ≤ 1) :
    v = w := by
  match v, w, hv, hw with
  | [], w, _, _ => exact (h.nil_iff.1 rfl).symm
  | [b], [], _, _ => exact h.nil_iff.2 rfl
  | [b], [c], _, _ =>
    have hs : c.schema = b.schema := (h.schema_iff b.schema).1 (by simp) c (by simp)
    have ht : b.table = c.table := by simpa using h.table_eq
    rw [Batch.eq_of_table hs.symm ht]

/-- The first position at which a batch has another schema than the batch in front. -/
def FirstStranger (all : Batches T C) (i : Nat) : Prop :=
  ∃ h : i < all.length, all[i].schema ≠ all[0].schema ∧
    ∀ j (hj : j < i), all[j].schema = all[0].schema

section Coalesce

variable [DecidableEq T]

theorem coalesced_of_schema {b : Batch T C} (h : ∀ c ∈ b :: all, c.schema = b.schema) :
    coalesced (b :: all) = .ok [Batch.concat b.schema (b :: all) h] := by
  have hn : Batch.stranger? b.schema (b :: all) = none := by
    simpa [Batch.stranger?, List.findIdx?_eq_none_iff] using h
  rw [coalesced]
  split
  · simp_all
  · rfl

theorem coalesced_of_stranger {b : Batch T C} {i : Nat}
    (h : Batch.stranger? b.schema (b :: all) = some i) : coalesced (b :: all) =
      .error (.merge s!"Batch {i} has a different schema than batch 0") := by
  rw [coalesced]
  split <;> simp_all

theorem firstStranger_of_stranger? {b : Batch T C} {i : Nat}
    (h : Batch.stranger? b.schema (b :: all) = some i) : FirstStranger (b :: all) i := by
  obtain ⟨hlt, hi, hj⟩ := List.findIdx?_eq_some_iff_getElem.1 h
  exact ⟨hlt, of_decide_eq_true hi, fun j hji => by simpa using hj j hji⟩

theorem repacks_of_coalesced (h : coalesced all = .ok v) : Repacks all v ∧ v.length ≤ 1 := by
  cases all with
  | nil =>
    cases h
    exact ⟨⟨.rfl, fun _ => .rfl, rfl⟩, Nat.zero_le 1⟩
  | cons b bs =>
    cases hs : Batch.stranger? b.schema (b :: bs) with
    | some i =>
      rw [coalesced_of_stranger hs] at h
      cases h
    | none =>
      rw [coalesced_of_schema (Batch.schema_of_stranger? hs)] at h
      cases h
      exact ⟨repacks_concat _ (List.cons_ne_nil b bs), Nat.le_refl 1⟩

theorem exists_coalesced (h : OfOneSchema all) : ∃ v, coalesced all = .ok v := by
  obtain ⟨schema, h⟩ := h
  cases all with
  | nil => exact ⟨[], rfl⟩
  | cons b bs =>
    have hb : b.schema = schema := h b List.mem_cons_self
    exact ⟨_, coalesced_of_schema fun c hc => (h c hc).trans hb.symm⟩

theorem exists_firstStranger (h : ¬ OfOneSchema all) : ∃ i, FirstStranger all i ∧
    coalesced all = .error (.merge s!"Batch {i} has a different schema than batch 0") := by
  cases all with
  | nil => exact (h (ofOneSchema_of_length_le (Nat.zero_le 1))).elim
  | cons b bs =>
    cases hs : Batch.stranger? b.schema (b :: bs) with
    | some i => exact ⟨i, firstStranger_of_stranger? hs, coalesced_of_stranger hs⟩
    | none => exact (h ⟨b.schema, Batch.schema_of_stranger? hs⟩).elim

theorem coalesced_eq_ok_iff : coalesced all = .ok v ↔ Repacks all v ∧ v.length ≤ 1 := by
  constructor
  · exact repacks_of_coalesced
  · rintro ⟨h, hv⟩
    obtain ⟨w, hw⟩ := exists_coalesced (h.ofOneSchema_iff.2 (ofOneSchema_of_length_le hv))
    obtain ⟨hall, hlen⟩ := repacks_of_coalesced hw
    rw [hw, (h.symm.trans hall).eq_of_length_le hv hlen]

theorem coalesce_eq_value_iff :
    coalesce.merge shards = .value v ↔ coalesced shards.flatten = .ok v := by
  simp only [coalesce]
  split <;> simp_all

theorem coalesce_of_error {e : QueryError} (h : coalesced shards.flatten = .error e) :
    coalesce.merge shards = .failure e := by
  simp only [coalesce, h]

/-- Coalescing gives the rows that concatenating gives, in one batch under their schema, or nothing
where there is nothing. It fails exactly on batches of several schemas, and then names the first one
that differs from the one in front. -/
theorem coalesce_refines_concat (shards : List (Batches T C)) :
    ∃ all, concat.merge shards = .value all ∧ all = shards.flatten ∧
      (all = [] → coalesce.merge shards = .value []) ∧
      (∀ schema, all ≠ [] → (∀ b ∈ all, b.schema = schema) → ∃ b,
        coalesce.merge shards = .value [b] ∧ b.schema = schema ∧
        b.table = all.flatMap Batch.table) ∧
      (¬ OfOneSchema all → ∃ i, FirstStranger all i ∧ coalesce.merge shards =
        .failure (.merge s!"Batch {i} has a different schema than batch 0")) ∧
      ((∃ v, coalesce.merge shards = .value v) ↔ OfOneSchema all) := by
  refine ⟨shards.flatten, rfl, rfl, ?_, ?_, ?_, ?_⟩
  · intro hnil
    exact coalesce_eq_value_iff.2 (by rw [hnil]; rfl)
  · intro schema hne hs
    obtain ⟨v, hv⟩ := exists_coalesced ⟨schema, hs⟩
    obtain ⟨hpack, hlen⟩ := repacks_of_coalesced hv
    match v, hlen with
    | [], _ => exact (hne (hpack.nil_iff.2 rfl)).elim
    | [b], _ =>
      refine ⟨b, coalesce_eq_value_iff.2 hv, ?_, ?_⟩
      · exact (hpack.schema_iff schema).1 hs b List.mem_cons_self
      · rw [hpack.table_eq, List.flatMap_singleton]
  · intro hno
    obtain ⟨i, hi, he⟩ := exists_firstStranger hno
    exact ⟨i, hi, coalesce_of_error he⟩
  · constructor
    · rintro ⟨v, hv⟩
      obtain ⟨hpack, hlen⟩ := repacks_of_coalesced (coalesce_eq_value_iff.1 hv)
      exact hpack.ofOneSchema_iff.2 (ofOneSchema_of_length_le hlen)
    · intro hone
      obtain ⟨v, hv⟩ := exists_coalesced hone
      exact ⟨v, coalesce_eq_value_iff.2 hv⟩

/-- Times, each with a text that may be missing. -/
def notes : Schema := ⟨[⟨"time", .int64, false, .empty⟩, ⟨"note", .utf8, true, .empty⟩], .empty⟩

def morning : Batch := ⟨notes, 2, [[.int 1, .int 2], [.text "up", .null]], rfl, by decide⟩

def evening : Batch := ⟨notes, 1, [[.int 3], [.text "down"]], rfl, by decide⟩

/-- Two rows without columns. -/
def bare : Batch := ⟨⟨[], .empty⟩, 2, [], rfl, by decide⟩

/-- Columns without rows. -/
def blank : Batch := ⟨notes, 0, [[], []], rfl, by decide⟩

theorem coalesce_refines_concat_notes :
    (∃ b : Batch, coalesce.merge [[morning], [], [evening]] = .value [b] ∧ b.schema = notes ∧
      b.table = [[.int 1, .text "up"], [.int 2, .null], [.int 3, .text "down"]]) ∧
    (∃ b : Batch, coalesce.merge [[bare, bare]] = .value [b] ∧ b.table = [[], [], [], []]) ∧
    coalesce.merge [[morning, evening], [bare]] =
      .failure (.merge "Batch 2 has a different schema than batch 0") := by
  obtain ⟨-, -, rfl, -, hone, -⟩ := coalesce_refines_concat [[morning], [], [evening]]
  obtain ⟨-, -, rfl, -, hrows, -⟩ := coalesce_refines_concat [[bare, bare]]
  obtain ⟨-, -, rfl, -, -, hfail, -⟩ := coalesce_refines_concat [[morning, evening], [bare]]
  refine ⟨?_, ?_, ?_⟩
  · exact hone notes (by simp) (by simp [morning, evening])
  · obtain ⟨b, hb, -, ht⟩ := hrows ⟨[], .empty⟩ (by simp) (by simp [bare])
    exact ⟨b, hb, ht⟩
  · have hno : ¬ OfOneSchema [[morning, evening], [bare]].flatten := by
      rintro ⟨schema, hs⟩
      have hm : notes = schema := hs morning (by simp)
      have hb : ⟨[], .empty⟩ = schema := hs bare (by simp)
      rw [← hb] at hm
      cases congrArg (·.fields) hm
    obtain ⟨i, ⟨hi, hdiffers, -⟩, he⟩ := hfail hno
    obtain rfl | rfl | rfl : i = 0 ∨ i = 1 ∨ i = 2 := by
      have hi : i < 3 := hi
      omega
    · exact absurd rfl hdiffers
    · exact absurd rfl hdiffers
    · exact he

end Coalesce

/-- The one of two shards that stays: the later one only if it has more rows. -/
def better (s t : Batches T C) : Batches T C :=
  if Batch.totalRows s < Batch.totalRows t then t else s

theorem larger_some (s t : Batches T C) : larger (some s) t = some (better s t) :=
  (apply_ite some _ _ _).symm

theorem foldl_larger (s : Batches T C) :
    shards.foldl larger (some s) = some (shards.foldl better s) := by
  induction shards generalizing s with
  | nil => rfl
  | cons t shards ih => rw [List.foldl_cons, larger_some, ih, List.foldl_cons]

theorem largest_cons (s : Batches T C) :
    largest.merge (s :: shards) = .value (shards.foldl better s) := by
  change Merged.value ((shards.foldl larger (some s)).getD []) = _
  rw [foldl_larger, Option.getD_some]

theorem totalRows_le_of_split {r : Batches T C} {before after : List (Batches T C)}
    (hbefore : ∀ t ∈ before, Batch.totalRows t < Batch.totalRows r)
    (hafter : ∀ t ∈ after, Batch.totalRows t ≤ Batch.totalRows r) :
    ∀ t ∈ before ++ r :: after, Batch.totalRows t ≤ Batch.totalRows r := by
  rw [List.forall_mem_append, List.forall_mem_cons]
  exact ⟨fun t ht => Nat.le_of_lt (hbefore t ht), Nat.le_refl _, hafter⟩

/-- What stays has more rows than every shard before it, and no fewer than every one behind. -/
theorem split_at_better (s : Batches T C) (shards : List (Batches T C)) : ∃ before after,
    s :: shards = before ++ shards.foldl better s :: after ∧
      (∀ t ∈ before, Batch.totalRows t < Batch.totalRows (shards.foldl better s)) ∧
      ∀ t ∈ after, Batch.totalRows t ≤ Batch.totalRows (shards.foldl better s) := by
  induction shards using List.reverseRecOn with
  | nil => exact ⟨[], [], rfl, nofun, nofun⟩
  | append_singleton shards u ih =>
    obtain ⟨before, after, heq, hbefore, hafter⟩ := ih
    rw [List.foldl_append, List.foldl_cons, List.foldl_nil]
    generalize shards.foldl better s = r at *
    have hle := totalRows_le_of_split hbefore hafter
    rw [← heq] at hle
    rw [better]
    split
    · rename_i hlt
      exact ⟨s :: shards, [], rfl, fun t ht => Nat.lt_of_le_of_lt (hle t ht) hlt, nofun⟩
    · rename_i hnot
      refine ⟨before, after ++ [u], by rw [← List.cons_append, heq]; simp, hbefore, ?_⟩
      rw [List.forall_mem_append, List.forall_mem_singleton]
      exact ⟨hafter, Nat.le_of_not_lt hnot⟩

/-- The first shard with the most rows is kept as it is. When no shard has any rows, that is the
shard in front. -/
theorem largest_picks_first_maximum (shards : List (Batches T C)) :
    (shards = [] → largest.merge shards = .value []) ∧
    (shards ≠ [] → ∃ i, ∃ h : i < shards.length, largest.merge shards = .value shards[i] ∧
      (∀ t ∈ shards, Batch.totalRows t ≤ Batch.totalRows shards[i]) ∧
      ∀ j (hj : j < i), Batch.totalRows shards[j] < Batch.totalRows shards[i]) ∧
    (∀ s rest, shards = s :: rest → (∀ t ∈ shards, Batch.totalRows t = 0) →
      largest.merge shards = .value s) := by
  cases shards with
  | nil => exact ⟨fun _ => rfl, fun h => (h rfl).elim, nofun⟩
  | cons s shards =>
    obtain ⟨before, after, heq, hbefore, hafter⟩ := split_at_better s shards
    rw [largest_cons]
    generalize shards.foldl better s = r at *
    refine ⟨nofun, fun _ => ⟨before.length, ?_⟩, ?_⟩
    · have hlt : before.length < (s :: shards).length := by
        rw [heq]
        simp
      have hget : (s :: shards)[before.length] = r := by simp [heq]
      refine ⟨hlt, by rw [hget], ?_, ?_⟩
      · rw [hget, heq]
        exact totalRows_le_of_split hbefore hafter
      · intro j hj
        have hjget : (s :: shards)[j] = before[j] := by simp only [heq, List.getElem_append_left hj]
        rw [hget, hjget]
        exact hbefore _ (List.getElem_mem hj)
    · intro s' rest hs hzero
      obtain ⟨rfl, rfl⟩ := List.cons.inj hs
      cases before with
      | nil => rw [(List.cons.inj heq).1]
      | cons t before =>
        have hr := hbefore t List.mem_cons_self
        have hzero' : Batch.totalRows r = 0 := hzero r (by rw [heq]; simp)
        omega

theorem largest_picks_first_maximum_tie :
    largest.merge [[evening], [morning], [evening, evening]] = .value [morning] ∧
      largest.merge [[blank], []] = .value [blank] := by
  obtain ⟨-, hmax, -⟩ := largest_picks_first_maximum [[evening], [morning], [evening, evening]]
  obtain ⟨-, -, hzero⟩ := largest_picks_first_maximum [[blank], []]
  obtain ⟨i, hi, hv, hle, hlt⟩ := hmax (by simp)
  refine ⟨?_, hzero [blank] [[]] rfl (by simp [Batch.totalRows, blank])⟩
  obtain rfl | rfl | rfl : i = 0 ∨ i = 1 ∨ i = 2 := by
    have hi : i < 3 := hi
    omega
  · exact absurd (hle [morning] (by simp)) (show ¬ 2 ≤ 1 by decide)
  · exact hv
  · exact absurd (hlt 1 (by decide)) (show ¬ 2 < 2 by decide)

end Merger

theorem entries_builtIn : MergerRegistry.builtIn.entries =
    [("coalesce", .coalesce), ("concat", .concat), ("largest", .largest)] := rfl

theorem mem_of_builtIn {strategy : String} {merger : Merger Batches}
    (h : MergerRegistry.builtIn.get? strategy = some merger) :
    merger ∈ [Merger.coalesce, Merger.concat, Merger.largest] := by
  obtain ⟨before, after, hx, -⟩ := List.lookup_eq_some_iff.1 h
  have hm : (strategy, merger) ∈ MergerRegistry.builtIn.entries := by
    rw [hx]
    exact List.mem_append_right _ (List.mem_cons_self ..)
  rw [entries_builtIn] at hm
  exact List.mem_map_of_mem (f := Prod.snd) hm

/-- The built-in mergers merge whatever has one schema. -/
theorem exists_merge_of_schema {strategy : String} {merger : Merger Batches}
    (h : MergerRegistry.builtIn.get? strategy = some merger) {schema : Schema}
    {shards : List Batches} (hs : ∀ b ∈ shards.flatten, b.schema = schema) :
    ∃ v, merger.merge shards = .value v := by
  have hm := mem_of_builtIn h
  simp only [List.mem_cons, List.not_mem_nil, or_false] at hm
  rcases hm with rfl | rfl | rfl
  · obtain ⟨v, hv⟩ := Merger.exists_coalesced ⟨schema, hs⟩
    exact ⟨v, Merger.coalesce_eq_value_iff.2 hv⟩
  · exact ⟨_, rfl⟩
  · exact ⟨_, rfl⟩

end ScatterGather
