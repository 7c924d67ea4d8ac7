import Mathlib.Data.List.Nodup
import ScatterGather.Query.Split

/-! A query is split into sub queries of one metric each, and nothing of it is lost. It is refused
exactly when its range is empty or a metric repeats the identifier of an earlier one. -/
namespace ScatterGather

namespace Query

variable {q : Query} {ms : List Metric} {x : String} {seen xs : List String}

/-- The first name that was there before, with the names before it. -/
theorem exists_of_firstRepeat (h : firstRepeat seen xs = some x) :
    ∃ before after, xs = before ++ x :: after ∧ before.Nodup ∧ (∀ y ∈ before, y ∉ seen) ∧
      (x ∈ seen ∨ x ∈ before) := by
  induction xs generalizing seen with
  | nil => cases h
  | cons y ys ih =>
    unfold firstRepeat at h
    split at h
    · rename_i hy
      cases h
      exact ⟨[], ys, rfl, .nil, nofun, .inl hy⟩
    · rename_i hy
      obtain ⟨before, after, rfl, hn, hs, hx⟩ := ih h
      refine ⟨y :: before, after, rfl, ?_, ?_, ?_⟩
      · refine List.nodup_cons.2 ⟨fun hm => hs y hm (List.mem_cons_self ..), hn⟩
      · intro z hz
        rcases List.mem_cons.1 hz with rfl | hz
        · exact hy
        · exact fun hm => hs z hz (List.mem_cons_of_mem _ hm)
      · rcases hx with hx | hx
        · rcases List.mem_cons.1 hx with rfl | hx
          · exact .inr (List.mem_cons_self ..)
          · exact .inl hx
        · exact .inr (List.mem_cons_of_mem _ hx)

theorem nodup_of_firstRepeat (h : firstRepeat seen xs = none) :
    xs.Nodup ∧ ∀ x ∈ xs, x ∉ seen := by
  induction xs generalizing seen with
  | nil => exact ⟨.nil, nofun⟩
  | cons x xs ih =>
    unfold firstRepeat at h
    split at h
    · cases h
    · rename_i hx
      obtain ⟨hn, hs⟩ := ih h
      refine ⟨List.nodup_cons.2 ⟨fun hm => hs x hm (List.mem_cons_self ..), hn⟩, ?_⟩
      intro y hy
      rcases List.mem_cons.1 hy with rfl | hy
      · exact hx
      · exact fun hm => hs y hy (List.mem_cons_of_mem _ hm)

theorem firstRepeat_eq_none : firstRepeat [] xs = none ↔ xs.Nodup := by
  constructor
  · exact fun h => (nodup_of_firstRepeat h).1
  · intro hn
    by_contra hx
    obtain ⟨x, hx⟩ := Option.ne_none_iff_exists'.1 hx
    obtain ⟨before, after, rfl, -, -, hm⟩ := exists_of_firstRepeat hx
    have hm := hm.resolve_left (List.not_mem_nil)
    exact (List.nodup_append.1 hn).2.2 x hm x (List.mem_cons_self ..) rfl

/-- The metric at a position has the identifier of an earlier one. -/
def Repeats (ms : List Metric) (j : Nat) : Prop :=
  ∃ (h : j < ms.length) (i : Nat) (hi : i < j), ms[i].id = ms[j].id

theorem nodup_iff_not_repeats : (ms.map (·.id)).Nodup ↔ ∀ j, ¬ Repeats ms j := by
  rw [List.nodup_iff_pairwise_ne, List.pairwise_iff_getElem]
  simp only [List.length_map, List.getElem_map]
  constructor
  · rintro h j ⟨hj, i, hi, heq⟩
    exact h i j (Nat.lt_trans hi hj) hj hi heq
  · intro h i j _ hj hij heq
    exact h j ⟨hj, i, hij, heq⟩

/-- The name that is reported is the identifier of the first metric that repeats one. -/
theorem exists_first_repeats (h : firstRepeat [] (ms.map (·.id)) = some x) :
    ∃ j, ∃ hj : j < ms.length, Repeats ms j ∧ (∀ k < j, ¬ Repeats ms k) ∧ ms[j].id = x := by
  obtain ⟨names, after, heq, hn, -, hx⟩ := exists_of_firstRepeat h
  obtain ⟨before, rest, rfl, rfl, hrest⟩ := List.map_eq_append_iff.1 heq
  obtain ⟨m, rest, rfl, rfl, -⟩ := List.map_eq_cons_iff.1 hrest
  obtain ⟨m', hm', hid⟩ := List.mem_map.1 (hx.resolve_left List.not_mem_nil)
  obtain ⟨i, hi, rfl⟩ := List.getElem_of_mem hm'
  refine ⟨before.length, by simp, ⟨by simp, i, hi, ?_⟩, ?_, by simp⟩
  · rw [List.getElem_append_left hi, hid]
    simp
  · rintro k hk ⟨_, i, hik, hrepeat⟩
    rw [List.getElem_append_left hk, List.getElem_append_left (Nat.lt_trans hik hk)] at hrepeat
    exact nodup_iff_not_repeats.1 hn k ⟨hk, i, hik, hrepeat⟩

theorem fault?_of_range (h : ¬ q.time.start < q.time.stop) :
    q.fault? = some (.range q.id q.time) := by
  simp [fault?, TimeRange.isValid, h]

theorem fault?_of_lt (h : q.time.start < q.time.stop) :
    q.fault? = (firstRepeat [] (q.metrics.map (·.id))).map (.duplicate q.id) := by
  simp [fault?, TimeRange.isValid, h]

theorem validate_of_fault? (h : q.fault? = none) : q.validate = .ok () := by
  rw [validate, h]

theorem flatMap_subQueries (fresh : IdSupply) (q : Query) :
    (q.subQueries fresh).flatMap (·.metrics) = q.metrics := by
  obtain ⟨id, parent, order, time, metrics⟩ := q
  simp only [subQueries]
  induction metrics generalizing fresh with
  | nil => rfl
  | cons m ms ih =>
    rw [List.mapIdx_cons, List.flatMap_cons]
    exact congrArg (m :: ·) (ih fun i => fresh (i + 1))

/-- A sub query can be planned where its query can. -/
theorem fault?_subQuery (h : q.time.start < q.time.stop) (id : QueryId) (m : Metric) :
    (q.subQuery id m).fault? = none := by
  rw [fault?_of_lt (q := q.subQuery id m) h]
  rfl

end Query

theorem length_subQueries (fresh : IdSupply) (q : Query) :
    (q.subQueries fresh).length = q.metrics.length := List.length_mapIdx

namespace Splitter

open Query

variable {q : Query}

theorem byMetric_of_fault {f : Fault} (h : q.fault? = some f) (fresh : IdSupply) :
    byMetric fresh q = .error (.planning f.message) := by
  simp only [byMetric, validate, h, Fault.error]

theorem byMetric_of_fault?_eq_none (h : q.fault? = none) (fresh : IdSupply) :
    byMetric fresh q = .ok (q.subQueries fresh) := by
  rw [byMetric, validate_of_fault? h]

/-- Of several repeated identifiers the first repetition is named. -/
theorem byMetric_of_repeats (ht : q.time.start < q.time.stop) (h : ∃ j, Repeats q.metrics j)
    (fresh : IdSupply) : ∃ j, ∃ hj : j < q.metrics.length, Repeats q.metrics j ∧
      (∀ k < j, ¬ Repeats q.metrics k) ∧ byMetric fresh q =
        .error (.planning (Fault.duplicate q.id q.metrics[j].id).message) := by
  have hd : ¬ (q.metrics.map (·.id)).Nodup := by
    rw [nodup_iff_not_repeats]
    exact fun hno => h.elim hno
  obtain ⟨x, hx⟩ := Option.ne_none_iff_exists'.1 (mt firstRepeat_eq_none.1 hd)
  obtain ⟨j, hj, hrepeats, hfirst, rfl⟩ := exists_first_repeats hx
  refine ⟨j, hj, hrepeats, hfirst, byMetric_of_fault ?_ fresh⟩
  rw [fault?_of_lt ht, hx, Option.map_some]

theorem byMetric_of_not_repeats (ht : q.time.start < q.time.stop)
    (h : ∀ j, ¬ Repeats q.metrics j) (fresh : IdSupply) :
    byMetric fresh q = .ok (q.subQueries fresh) := by
  apply byMetric_of_fault?_eq_none
  rw [fault?_of_lt ht, firstRepeat_eq_none.2 (nodup_iff_not_repeats.2 h), Option.map_none]

/-- Splitting fails on an empty range and on repeated identifiers, and on nothing else. The range is
named before any metric, and of the metrics the first one that repeats an identifier. Otherwise
there is one sub query for each metric, in their order; it keeps what the query says of all metrics,
it can be planned, and splitting it gives its metric again. -/
theorem byMetric_loses_nothing (fresh : IdSupply) (q : Query) :
    ((∃ e, byMetric fresh q = .error e) ↔
      ¬ q.time.start < q.time.stop ∨ ∃ j, Repeats q.metrics j) ∧
    (¬ q.time.start < q.time.stop →
      byMetric fresh q = .error (.planning (Fault.range q.id q.time).message)) ∧
    (q.time.start < q.time.stop → (∃ j, Repeats q.metrics j) →
      ∃ j, ∃ hj : j < q.metrics.length, Repeats q.metrics j ∧ (∀ k < j, ¬ Repeats q.metrics k) ∧
        byMetric fresh q = .error (.planning (Fault.duplicate q.id q.metrics[j].id).message)) ∧
    (q.time.start < q.time.stop → (∀ j, ¬ Repeats q.metrics j) → ∃ subs,
      byMetric fresh q = .ok subs ∧ subs.length = q.metrics.length ∧
      subs.flatMap (·.metrics) = q.metrics ∧
      ∀ s ∈ subs, s.metrics.length = 1 ∧ s.parent = some q.id ∧ s.order = q.order ∧
        s.time = q.time ∧ s.validate = .ok () ∧
        ∀ fresh', ∃ r, byMetric fresh' s = .ok [r] ∧ r.metrics = s.metrics) := by
  refine ⟨⟨?_, ?_⟩, ?_, ?_, ?_⟩
  · rintro ⟨e, he⟩
    by_contra hx
    obtain ⟨ht, hno⟩ := not_or.1 hx
    rw [byMetric_of_not_repeats (not_not.1 ht) (not_exists.1 hno)] at he
    cases he
  · intro h
    by_cases ht : q.time.start < q.time.stop
    · obtain ⟨j, hj, -, -, he⟩ := byMetric_of_repeats ht (h.resolve_left (not_not_intro ht)) fresh
      exact ⟨_, he⟩
    · exact ⟨_, byMetric_of_fault (fault?_of_range ht) fresh⟩
  · exact fun ht => byMetric_of_fault (fault?_of_range ht) fresh
  · exact fun ht h => byMetric_of_repeats ht h fresh
  · intro ht hno
    refine ⟨_, byMetric_of_not_repeats ht hno fresh, length_subQueries fresh q,
      flatMap_subQueries fresh q, ?_⟩
    intro s hs
    obtain ⟨i, hi, rfl⟩ := List.mem_mapIdx.1 hs
    have hfault := fault?_subQuery ht (fresh i) q.metrics[i]
    refine ⟨rfl, rfl, rfl, rfl, validate_of_fault? hfault, fun fresh' => ?_⟩
    exact ⟨_, byMetric_of_fault?_eq_none hfault fresh', rfl⟩

def twoMetrics : Query :=
  ⟨⟨.ofNat 1⟩, none, 7, ⟨0, 10⟩, [(Metric.plain "cpu").withAggregator "avg", .plain "mem"]⟩

/-- Both metrics once more, the second one first. -/
def fourMetrics : Query :=
  { twoMetrics with metrics := twoMetrics.metrics ++ twoMetrics.metrics.reverse }

theorem byMetric_loses_nothing_four :
    twoMetrics.time.start < twoMetrics.time.stop ∧ (∀ j, ¬ Repeats twoMetrics.metrics j) ∧
      (∃ subs, byMetric (fun i => ⟨.ofNat (2 + i)⟩) twoMetrics = .ok subs ∧ subs.length = 2 ∧
        subs.flatMap (·.metrics) = twoMetrics.metrics) ∧
      byMetric (fun i => ⟨.ofNat (2 + i)⟩) fourMetrics =
        .error (.planning "Duplicate metric id 'mem' in query-00000000") := by
  have ht : twoMetrics.time.start < twoMetrics.time.stop := by decide
  have hno : ∀ j, ¬ Repeats twoMetrics.metrics j := nodup_iff_not_repeats.1 (by decide)
  obtain ⟨-, -, -, hok⟩ := byMetric_loses_nothing (fun i => ⟨.ofNat (2 + i)⟩) twoMetrics
  obtain ⟨-, -, hfail, -⟩ := byMetric_loses_nothing (fun i => ⟨.ofNat (2 + i)⟩) fourMetrics
  obtain ⟨subs, hsubs, hlength, hmetrics, -⟩ := hok ht hno
  have htwo : Repeats fourMetrics.metrics 2 := ⟨by decide, 1, by decide, rfl⟩
  obtain ⟨j, hj, hrepeats, hfirst, he⟩ := hfail ht ⟨2, htwo⟩
  have hge : ¬ j < 2 := by
    intro hlt
    obtain ⟨hj, i, hi, hid⟩ := hrepeats
    obtain ⟨rfl, rfl⟩ : j = 1 ∧ i = 0 := by omega
    exact absurd hid (show ¬ "cpu" = "mem" by decide)
  obtain rfl : j = 2 := by
    by_contra hne
    exact hfirst 2 (by omega) htwo
  refine ⟨ht, hno, ⟨subs, hsubs, hlength, hmetrics⟩, ?_⟩
  rw [he]
  rfl

end Splitter
end ScatterGather
