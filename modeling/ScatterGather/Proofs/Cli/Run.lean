import ScatterGather.Cli.Run
import ScatterGather.Proofs.Coordinator
import ScatterGather.Proofs.Merger.Batches
import ScatterGather.Proofs.Simulation.Outcome

/-! What a run against simulated shards comes to: it depends on the metrics, the strategy and the
metric that fails, and not on the window or on how long the shards take. -/
namespace ScatterGather

namespace Cli

variable {s : Settings} {r : Request} {a : Ambient} {merger : Merger Batches}

theorem lastHour_eq (a : Ambient) (metrics : List String) : lastHour a metrics =
    ⟨a.queryId, none, 0, ⟨a.now - hour, a.now⟩, metrics.map .plain⟩ := by
  have hfold (q : Query) : metrics.foldl (fun q m => q.withMetric (.plain m)) q =
      { q with metrics := q.metrics ++ metrics.map .plain } := by
    induction metrics generalizing q with
    | nil => simp
    | cons m ms ih =>
      rw [List.foldl_cons, ih]
      simp [Query.withMetric]
  exact hfold _

theorem fault?_lastHour (hc : a.now - hour < a.now) (metrics : List String) :
    (lastHour a metrics).fault? =
      (Query.firstRepeat [] metrics).map (.duplicate a.queryId) := by
  have hids : (metrics.map Metric.plain).map (·.id) = metrics := by
    simp [Metric.plain, Function.comp_def]
  rw [lastHour_eq, Query.fault?, hids]
  exact if_pos (decide_eq_true hc)

theorem coordinator_eq (hs : s.sharding.validate = .ok ())
    (hm : MergerRegistry.builtIn.get? s.sharding.strategy = some merger) :
    coordinator s = .ok ⟨s.sharding, merger, .byMetric⟩ := by
  simp [coordinator, Coordinator.build, hs, hm]

/-- What the shard of the metric at a position says. -/
def shardAnswer (s : Settings) (r : Request) (a : Ambient) (i : Nat) : SubResult Batches :=
  (shards s r).answer (r.metrics[i]?.getD "") ⟨a.now - hour, a.now⟩

theorem ending_of_subQuery {i : Nat} {q : Query}
    (h : ((lastHour a r.metrics).subQueries a.subQueryIds)[i]? = some q) :
    ((shards s r).job q).ending = .answer (shardAnswer s r a i) := by
  rw [Query.subQueries, lastHour_eq, List.getElem?_mapIdx, List.getElem?_map] at h
  cases hm : r.metrics[i]? with
  | none => simp [hm] at h
  | some m =>
    rw [hm] at h
    obtain rfl := Option.some.inj h
    simp [SampleShards.job, Query.subQuery, Metric.plain, shardAnswer, hm]

theorem shardAnswer_eq {i : Nat} {m : String} (h : r.metrics[i]? = some m) :
    shardAnswer s r a i = (shards s r).answer m ⟨a.now - hour, a.now⟩ := by
  rw [shardAnswer, h, Option.getD_some]

theorem shardAnswer_failing {i : Nat} {m : String} (h : r.metrics[i]? = some m)
    (hf : r.failing = some m) :
    shardAnswer s r a i = .error (.execution s!"shard for '{m}' is unavailable") := by
  rw [shardAnswer_eq h]
  exact if_pos hf

/-- Only the shard of the failing metric answers with an error. -/
theorem failing_of_shardAnswer {i : Nat} {error : QueryError} (hi : i < r.metrics.length)
    (h : shardAnswer s r a i = .error error) : r.failing = some r.metrics[i] := by
  by_contra hf
  have hok : shardAnswer s r a i = .ok _ :=
    (shardAnswer_eq (List.getElem?_eq_getElem hi)).trans (if_neg hf)
  rw [hok] at h
  cases h

/-- A name that comes once has the shard at its own position. -/
theorem position_of_nodup {k : Nat} {m : String} (hn : r.metrics.Nodup)
    (hk : r.metrics[k]? = some m) : (shards s r).position m = k := by
  obtain ⟨hlt, rfl⟩ := List.getElem?_eq_some_iff.1 hk
  have hf : r.metrics.findIdx? (· = r.metrics[k]) = some k := by
    rw [List.findIdx?_eq_some_iff_getElem]
    refine ⟨hlt, by simp, ?_⟩
    intro j hj hx
    have := (List.Nodup.getElem_inj_iff hn).1 (of_decide_eq_true hx)
    omega
  rw [SampleShards.position, shards, hf]
  rfl

/-- The samples that the shards give, in the order of the metrics. -/
def samples (s : Settings) (r : Request) (a : Ambient) : List Batches :=
  r.metrics.mapIdx fun i m =>
    [(Samples.mk m i ⟨a.now - hour, a.now⟩ s.points.toNat).batch]

theorem schema_of_samples : ∀ b ∈ (samples s r a).flatten, b.schema = Samples.schema := by
  intro b hb
  obtain ⟨bs, hbs, hb⟩ := List.mem_flatten.1 hb
  obtain ⟨i, hi, rfl⟩ := List.mem_mapIdx.1 hbs
  rw [List.mem_singleton.1 hb]
  rfl

/-- When no shard fails, the answers are the samples. -/
theorem map_shardAnswer (hn : r.metrics.Nodup) (hf : ∀ m ∈ r.metrics, r.failing ≠ some m) :
    (List.range r.metrics.length).map (shardAnswer s r a) = (samples s r a).map .ok := by
  apply List.ext_getElem?
  intro i
  rw [List.getElem?_map, List.getElem?_map, samples, List.getElem?_mapIdx]
  cases hi : r.metrics[i]? with
  | none =>
    have hle : r.metrics.length ≤ i := List.getElem?_eq_none_iff.1 hi
    rw [List.getElem?_eq_none (by simpa using hle)]
    rfl
  | some m =>
    obtain ⟨hlt, hm⟩ := List.getElem?_eq_some_iff.1 hi
    have hok : shardAnswer s r a i = .ok _ :=
      (shardAnswer_eq hi).trans (if_neg (hf m (hm ▸ List.getElem_mem hlt)))
    rw [List.getElem?_range hlt, Option.map_some, hok, position_of_nodup hn hi]
    rfl

theorem simulate_eq (hs : s.sharding.validate = .ok ())
    (hm : MergerRegistry.builtIn.get? s.sharding.strategy = some merger) :
    simulate s r a = Coordinator.simulate ⟨s.sharding, merger, .byMetric⟩ a.subQueryIds
      a.executionId (lastHour a r.metrics) none (shards s r).job true
      (r.cancelAfter.map UInt64.toNat) := by
  rw [simulate, coordinator_eq hs hm]
  rfl

/-- The execution of a valid query, before it is started. -/
def prepared (s : Settings) (r : Request) (a : Ambient) (merger : Merger Batches) :
    Execution Batches :=
  .new a.executionId (lastHour a r.metrics) ((lastHour a r.metrics).subQueries a.subQueryIds)
    s.sharding.parallelism.toNat merger

theorem total_prepared : (prepared s r a merger).total = r.metrics.length := by
  rw [prepared]
  change ((lastHour a r.metrics).subQueries a.subQueryIds).length = _
  rw [length_subQueries, lastHour_eq]
  exact List.length_map _

theorem order_prepared : (prepared s r a merger).query.order = 0 := by
  rw [prepared, lastHour_eq]
  rfl

/-- An outcome is delivered, and it comes from the answers. -/
theorem outcome_comes_of_validate (hs : s.sharding.validate = .ok ())
    (hm : MergerRegistry.builtIn.get? s.sharding.strategy = some merger)
    (hv : (lastHour a r.metrics).validate = .ok ()) (hne : r.metrics ≠ []) :
    Execution.Comes (shardAnswer s r a) (r.cancelAfter.isSome = true) (prepared s r a merger)
      (outcome s r a) := by
  have hmetrics : (lastHour a r.metrics).metrics ≠ [] := by
    rw [lastHour_eq]
    simpa using hne
  obtain ⟨o, ho, hx⟩ : ∃ o, (Simulation.start (prepared s r a merger) (shards s r).job true
      (r.cancelAfter.map UInt64.toNat)).run.execution.outcome = some o ∧
      Execution.Comes (shardAnswer s r a) ((r.cancelAfter.map UInt64.toNat).isSome = true)
        (prepared s r a merger) o :=
    Simulation.run_comes (subQueries_ne_nil hmetrics a.subQueryIds)
      (fun i q hq => ending_of_subQuery hq) _
  have hsim := simulate_eq (r := r) (a := a) hs hm
  rw [Coordinator.simulate, prepare_byMetric rfl hv hmetrics] at hsim
  rw [Option.isSome_map] at hx
  have hout : outcome s r a = o := by
    rw [outcome, hsim]
    exact congrArg (Option.getD · _) ho
  rw [hout]
  exact hx

theorem outcome_comes (hs : s.sharding.validate = .ok ())
    (hm : MergerRegistry.builtIn.get? s.sharding.strategy = some merger)
    (hc : a.now - hour < a.now) (hn : r.metrics.Nodup) (hne : r.metrics ≠ []) :
    Execution.Comes (shardAnswer s r a) (r.cancelAfter.isSome = true) (prepared s r a merger)
      (outcome s r a) := by
  refine outcome_comes_of_validate hs hm ?_ hne
  rw [Query.validate, fault?_lastHour hc, Query.firstRepeat_eq_none.2 hn]
  rfl

/-- The failing shard fails the run, unless it is cancelled before. -/
theorem outcome_failing (hs : s.sharding.validate = .ok ())
    (hm : MergerRegistry.builtIn.get? s.sharding.strategy = some merger)
    (hc : a.now - hour < a.now) (hn : r.metrics.Nodup) {k : Nat} {m : String}
    (hf : r.failing = some m) (hk : r.metrics[k]? = some m) :
    outcome s r a = .error (.subQuery k 0 (.execution s!"shard for '{m}' is unavailable")) ∨
      r.cancelAfter.isSome = true ∧
        outcome s r a = .error (.cancelled 0 (.requested a.executionId)) := by
  obtain ⟨hlt, rfl⟩ := List.getElem?_eq_some_iff.1 hk
  have hne : r.metrics ≠ [] := List.ne_nil_of_length_pos (Nat.lt_of_le_of_lt (Nat.zero_le k) hlt)
  have hbad := shardAnswer_failing (s := s) (a := a) hk hf
  have hx := outcome_comes hs hm hc hn hne
  generalize outcome s r a = o at hx ⊢
  cases hx with
  | @merged rs h =>
    have hat : (rs.map Except.ok)[k]? = some (shardAnswer s r a k) := by
      rw [h, total_prepared, List.getElem?_map, List.getElem?_range hlt]
      rfl
    rw [List.getElem?_map, hbad] at hat
    cases hr : rs[k]? <;> simp [hr] at hat
  | @failed i error hi h =>
    rw [total_prepared] at hi
    have heq := (failing_of_shardAnswer hi h).symm.trans hf
    obtain rfl : i = k := (List.Nodup.getElem_inj_iff hn).1 (Option.some.inj heq)
    rw [hbad] at h
    obtain rfl := Except.error.inj h
    exact .inl (by rw [order_prepared])
  | cancelled h => exact .inr ⟨h, by rw [order_prepared]; rfl⟩

/-- Without a failing shard the samples are merged, unless the run is cancelled before. -/
theorem outcome_samples (hs : s.sharding.validate = .ok ())
    (hm : MergerRegistry.builtIn.get? s.sharding.strategy = some merger)
    (hc : a.now - hour < a.now) (hn : r.metrics.Nodup) (hne : r.metrics ≠ [])
    (hf : ∀ m ∈ r.metrics, r.failing ≠ some m) {v : Batches}
    (hv : merger.merge (samples s r a) = .value v) :
    outcome s r a = .ok v ∨ r.cancelAfter.isSome = true ∧
      outcome s r a = .error (.cancelled 0 (.requested a.executionId)) := by
  have hx := outcome_comes hs hm hc hn hne
  generalize outcome s r a = o at hx ⊢
  cases hx with
  | @merged rs h =>
    rw [total_prepared, map_shardAnswer hn hf] at h
    have hrs : rs = samples s r a := List.map_injective_iff.2 (fun _ _ => Except.ok.inj) h
    left
    change sequential merger _ rs = _
    rw [hrs, sequential, hv]
  | @failed i error hi h =>
    rw [total_prepared] at hi
    exact (hf _ (List.getElem_mem hi) (failing_of_shardAnswer hi h)).elim
  | cancelled h => exact .inr ⟨h, by rw [order_prepared]; rfl⟩

/-- What comes of a query for no metrics, or one in which a metric is repeated. -/
theorem simulate_of_split {e : ShardingError} (hs : s.sharding.validate = .ok ())
    (hm : MergerRegistry.builtIn.get? s.sharding.strategy = some merger)
    (h : Coordinator.prepare ⟨s.sharding, merger, .byMetric⟩ a.subQueryIds a.executionId
      (lastHour a r.metrics) none = .error e) : simulate s r a = .error e := by
  rw [simulate_eq hs hm, Coordinator.simulate, h]
  rfl

/-- Once there is a coordinator, a run does not end with something wrong in its configuration. -/
theorem outcome_ne_configuration (hs : s.sharding.validate = .ok ())
    (hm : MergerRegistry.builtIn.get? s.sharding.strategy = some merger) (hne : r.metrics ≠ [])
    (m : Misconfiguration) : outcome s r a ≠ .error (.configuration m) := by
  intro hout
  cases hv : (lastHour a r.metrics).validate with
  | ok u =>
    have hx := outcome_comes_of_validate hs hm hv hne
    rw [hout] at hx
    generalize ho : (.error (.configuration m) : Outcome Batches) = o at hx
    cases hx with
    | @merged rs h =>
      unfold sequential at ho
      split at ho <;> cases ho
    | failed => cases ho
    | cancelled => cases ho
  | error error =>
    have hsplit : simulate s r a = .error (.planning error) := by
      apply simulate_of_split hs hm
      simp [Coordinator.prepare, Splitter.byMetric, hv]
    rw [outcome, hsplit] at hout
    cases hout

theorem simulate_of_repeat (hs : s.sharding.validate = .ok ())
    (hm : MergerRegistry.builtIn.get? s.sharding.strategy = some merger)
    (hc : a.now - hour < a.now) {m : String} (h : Query.firstRepeat [] r.metrics = some m) :
    simulate s r a = .error (.planning (Query.Fault.duplicate a.queryId m).error) := by
  apply simulate_of_split hs hm
  simp [Coordinator.prepare, Splitter.byMetric, Query.validate, fault?_lastHour hc, h]

theorem simulate_of_nil (hs : s.sharding.validate = .ok ())
    (hm : MergerRegistry.builtIn.get? s.sharding.strategy = some merger)
    (hc : a.now - hour < a.now) (h : r.metrics = []) :
    simulate s r a = .error (.emptySplit a.queryId) := by
  apply simulate_of_split hs hm
  have hsubs : (lastHour a []).subQueries a.subQueryIds = [] := rfl
  have hid : (lastHour a []).id = a.queryId := rfl
  simp [Coordinator.prepare, Splitter.byMetric, Query.validate, fault?_lastHour hc, h,
    Query.firstRepeat, hsubs, hid]

/-- A run over different metrics has one outcome, whatever the window, the latency and the points:
the failure of the metric that fails, or what the strategy makes of all samples in the order of the
metrics. A timer that cancels the run lets it end as cancelled, or changes nothing. When a metric
is repeated, or when there is none, the run ends before any shard is asked. (The clock is not
within an hour of the first moment that there is.) -/
theorem outcome_independent (hs : s.sharding.validate = .ok ())
    (hm : MergerRegistry.builtIn.get? s.sharding.strategy = some merger)
    (hc : a.now - hour < a.now) :
    (r.metrics.Nodup → r.metrics ≠ [] → ∃ o,
      (∀ k m, r.failing = some m → r.metrics[k]? = some m →
        o = .error (.subQuery k 0 (.execution s!"shard for '{m}' is unavailable"))) ∧
      ((∀ m ∈ r.metrics, r.failing ≠ some m) →
        ∃ v, merger.merge (samples s r a) = .value v ∧ o = .ok v) ∧
      (r.cancelAfter = none → outcome s r a = o) ∧
      (outcome s r a = o ∨ outcome s r a = .error (.cancelled 0 (.requested a.executionId)))) ∧
    (¬ r.metrics.Nodup → ∃ before m after, r.metrics = before ++ m :: after ∧ before.Nodup ∧
      m ∈ before ∧
      simulate s r a = .error (.planning (Query.Fault.duplicate a.queryId m).error)) ∧
    (r.metrics = [] → simulate s r a = .error (.emptySplit a.queryId)) := by
  refine ⟨?_, ?_, simulate_of_nil hs hm hc⟩
  · intro hn hne
    by_cases hf : ∃ m ∈ r.metrics, r.failing = some m
    · obtain ⟨m, hmem, hf⟩ := hf
      obtain ⟨k, hlt, rfl⟩ := List.getElem_of_mem hmem
      have hk : r.metrics[k]? = some r.metrics[k] := List.getElem?_eq_getElem hlt
      have hout := outcome_failing hs hm hc hn hf hk
      refine ⟨_, ?_, fun hno => (hno _ hmem hf).elim, ?_, hout.imp_right And.right⟩
      · intro k' m' hf' hk'
        obtain rfl := Option.some.inj (hf.symm.trans hf')
        obtain ⟨hlt', heq⟩ := List.getElem?_eq_some_iff.1 hk'
        obtain rfl : k' = k := (List.Nodup.getElem_inj_iff hn).1 heq
        rfl
      · intro hnone
        exact hout.resolve_right fun hx => by simp [hnone] at hx
    · have hno : ∀ m ∈ r.metrics, r.failing ≠ some m := fun m hmem hx => hf ⟨m, hmem, hx⟩
      obtain ⟨v, hv⟩ := exists_merge_of_schema hm (schema_of_samples (s := s) (r := r) (a := a))
      have hout := outcome_samples hs hm hc hn hne hno hv
      refine ⟨.ok v, ?_, fun _ => ⟨v, hv, rfl⟩, ?_, hout.imp_right And.right⟩
      · intro k m hf' hk
        exact (hno m (List.mem_of_getElem? hk) hf').elim
      · intro hnone
        exact hout.resolve_right fun hx => by simp [hnone] at hx
  · intro hd
    obtain ⟨m, hfirst⟩ := Option.ne_none_iff_exists'.1 (mt Query.firstRepeat_eq_none.1 hd)
    obtain ⟨before, after, heq, hn, -, hmem⟩ := Query.exists_of_firstRepeat hfirst
    exact ⟨before, m, after, heq, hn, hmem.resolve_left List.not_mem_nil,
      simulate_of_repeat hs hm hc hfirst⟩

/-- Two metrics, the second one of which fails. -/
def halfDown : Request := ⟨["cpu", "mem"], some "mem", none⟩

def joined : Settings :=
  { Settings.default with sharding := (ShardingConfig.new 2).withStrategy "concat" }

def afternoon : Ambient := ⟨54000000, ⟨.ofNat 1⟩, ⟨.ofNat 2⟩, fun i => ⟨.ofNat (3 + i)⟩⟩

theorem outcome_independent_halfDown :
    joined.sharding.validate = .ok () ∧
      MergerRegistry.builtIn.get? joined.sharding.strategy = some .concat ∧
      afternoon.now - hour < afternoon.now ∧ halfDown.metrics.Nodup ∧
      outcome joined halfDown afternoon =
        .error (.subQuery 1 0 (.execution "shard for 'mem' is unavailable")) := by
  have hs : joined.sharding.validate = .ok () := by decide
  have hm : MergerRegistry.builtIn.get? joined.sharding.strategy = some .concat := rfl
  have hc : afternoon.now - hour < afternoon.now := by decide
  have hn : halfDown.metrics.Nodup := by decide
  obtain ⟨hone, -, -⟩ := outcome_independent (r := halfDown) hs hm hc
  obtain ⟨o, hfails, -, hnone, -⟩ := hone hn (List.cons_ne_nil _ _)
  refine ⟨hs, hm, hc, hn, ?_⟩
  rw [hnone rfl]
  exact hfails 1 "mem" rfl rfl

end Cli
end ScatterGather
