import ScatterGather.Proofs.Fleet.Opening
import ScatterGather.Scenario.Play

/-! A query is refused with nothing done, or its execution is in the registry before the first sub
query is passed on. -/
namespace ScatterGather

variable {V : Type}

theorem ShardingConfig.parallelism_ne_zero {config : ShardingConfig}
    (h : config.validate = .ok ()) : config.parallelism ≠ 0 := by
  intro hp
  simp [validate, fault?, hp] at h

namespace Coordinator

variable {parts : CoordinatorParts V} {c : Coordinator V} {q : Query} {id : ExecutionId}
  {fresh : IdSupply} {override : Option ShardingConfig}

/-- What a coordinator has of the parts that it was built from. -/
structure Built (parts : CoordinatorParts V) (c : Coordinator V) : Prop where
  config : parts.config = some c.config
  parallelism : c.config.parallelism ≠ 0
  splitter : c.splitter = parts.splitter
  merger : ∃ mergers, parts.mergers = some mergers ∧
    mergers.get? c.config.strategy = some c.merger

theorem built_of_build (h : build parts = .ok c) : Built parts c := by
  unfold build at h
  split at h
  · cases h
  split at h
  · cases h
  split at h
  · cases h
  split at h
  · cases h
  split at h
  · split at h
    · cases h
      exact ⟨‹_›, ShardingConfig.parallelism_ne_zero ‹_›, rfl, _, ‹_›, ‹_›⟩
    · cases h
  · cases h

/-- The execution that a query is turned into. -/
structure Makes (parts : CoordinatorParts V) (id : ExecutionId) (q : Query) (fresh : IdSupply)
    (override : Option ShardingConfig) (e : Execution V) : Prop where
  id : e.id = id
  query : e.query = q
  subQueries : e.subQueries = q.subQueries fresh
  unresolved : e.outcome = none
  window_override : ∀ o, override = some o → 0 < o.parallelism →
    e.windowSize = o.parallelism.toNat
  window_configured : ∀ config, parts.config = some config →
    (∀ o, override = some o → o.parallelism = 0) → e.windowSize = config.parallelism.toNat
  merger : ∀ config mergers, parts.config = some config → parts.mergers = some mergers →
    mergers.get? config.strategy = some e.merger

theorem makes_new (hb : Built parts c) (id : ExecutionId) (q : Query) (fresh : IdSupply)
    (override : Option ShardingConfig) :
    Makes parts id q fresh override
      (Execution.new id q (q.subQueries fresh) (c.windowFor override).toNat c.merger).start where
  id := rfl
  query := rfl
  subQueries := rfl
  unresolved := rfl
  window_override := by
    rintro o rfl ho
    have hpos : 0 < o.parallelism.toNat := ho
    simp only [Execution.start, Execution.new, windowFor, if_pos ho]
    exact Nat.max_eq_left hpos
  window_configured := by
    intro config hc hn
    obtain rfl : c.config = config := Option.some.inj (hb.config.symm.trans hc)
    have hw : c.windowFor override = c.config.parallelism := by
      cases override with
      | none => rfl
      | some o => simp [windowFor, hn o rfl]
    have hpos : 0 < c.config.parallelism.toNat :=
      Nat.pos_of_ne_zero fun h => hb.parallelism (UInt64.toNat_inj.1 h)
    simp only [Execution.start, Execution.new, hw]
    exact Nat.max_eq_left hpos
  merger := by
    intro config mergers hc hm
    obtain ⟨mergers', hm', hg⟩ := hb.merger
    obtain rfl : c.config = config := Option.some.inj (hb.config.symm.trans hc)
    obtain rfl : mergers' = mergers := Option.some.inj (hm'.symm.trans hm)
    exact hg

/-- Neither the registry nor an override has a say in whether a query is refused. -/
theorem execute_cases (hs : c.splitter = .byMetric) (q : Query) :
    (∃ error, q.validate = .error error ∧
        ∀ fresh id override g, c.execute fresh id q override g = .error (.planning error)) ∨
      q.validate = .ok () ∧ q.metrics = [] ∧
        (∀ fresh id override g, c.execute fresh id q override g = .error (.emptySplit q.id)) ∨
      q.validate = .ok () ∧ q.metrics ≠ [] ∧
        ∀ fresh id override g, c.execute fresh id q override g = .ok (g.add (Execution.new id q
          (q.subQueries fresh) (c.windowFor override).toNat c.merger).start true) := by
  cases hv : q.validate with
  | error error =>
    refine .inl ⟨error, rfl, ?_⟩
    intro fresh id override g
    simp [execute, prepare, hs, Splitter.byMetric, hv, Except.map]
  | ok u =>
    by_cases hn : q.metrics = []
    · refine .inr (.inl ⟨rfl, hn, ?_⟩)
      intro fresh id override g
      simp [execute, prepare, hs, Splitter.byMetric, hv, Query.subQueries, hn, Except.map]
    · exact .inr (.inr ⟨rfl, hn, fun fresh id override g => execute_byMetric hs hv hn ..⟩)

end Coordinator

namespace Scenario.Play

variable {c : Coordinator V} {q : Query} {override : Option ShardingConfig}

theorem execute_of_error {p : Play V} {error : ShardingError}
    (h : ∀ fresh id g, c.execute fresh id q override g = .error error) :
    p.execute c q override = (.refused error, p) := by
  simp only [execute, h]

/-- The caller has a handle, whatever the downstream executor does when it is called. -/
theorem execute_of_ok {p : Play V} {w : Nat} (h : ∀ fresh id g, ∃ e : Execution V,
      c.execute fresh id q override g = .ok (g.add e true) ∧ e.windowSize = w) :
    ∃ p', p.execute c q override = (.started p.stage.fleet.executions.length w, p') ∧
      p'.holds = p.holds ++ [.held] := by
  obtain ⟨e, he, hw⟩ := h (p.queryIds p.stage.fleet.executions.length)
    (p.executionIds p.stage.fleet.executions.length) p.stage.fleet
  simp only [execute, he, Fleet.add, List.getElem?_concat_length, Option.map_some, Option.getD_some,
    hw]
  exact ⟨_, rfl, rfl⟩

end Scenario.Play

namespace Coordinator

open Fleet

variable {parts : CoordinatorParts V} {c : Coordinator V}

/-- A query is refused if it is not valid or asks for nothing, whatever there is in the registry,
and then nothing has been done. Otherwise there is a new execution with its handle. By its first
call downstream it is in the registry, so that a sweep from inside that call cuts it short. -/
theorem execute_all_or_nothing (hb : build parts = .ok c) (hs : parts.splitter = .byMetric)
    (fresh : IdSupply) (id : ExecutionId) (q : Query) (override : Option ShardingConfig)
    (g : Fleet V) :
    (∀ error, c.execute fresh id q override g = .error (.planning error) ↔
        q.validate = .error error) ∧
      (∀ query, c.execute fresh id q override g = .error (.emptySplit query) ↔
        q.validate = .ok () ∧ q.metrics = [] ∧ query = q.id) ∧
      (∀ error, c.execute fresh id q override g = .error error →
        ∀ p : Scenario.Play V, p.execute c q override = (.refused error, p)) ∧
      (q.validate = .ok () → q.metrics ≠ [] →
        ∃ e₀, c.execute fresh id q override g = .ok (g.add e₀ true) ∧
          Makes parts id q fresh override e₀ ∧
          (∀ p : Scenario.Play V, ∃ p', p.execute c q override =
              (.started p.stage.fleet.executions.length e₀.windowSize, p') ∧
            p'.holds = p.holds ++ [.held]) ∧
          (∃ g₁, (g.add e₀ true).run [.on g.executions.length .resume,
            .on g.executions.length .resume] = some (g₁, [(g.executions.length, .dispatched 0)])) ∧
          ((∀ e ∈ g.executions, e.id ≠ id) → OpensInRegistry id g.executions.length
            (.error (.cancelled q.order (.requested id))) (g.add e₀ true))) := by
  have hbuilt := built_of_build hb
  have hsplit : c.splitter = .byMetric := hbuilt.splitter.trans hs
  obtain ⟨error, hv, hx⟩ | ⟨hv, hn, hx⟩ | ⟨hv, hn, hx⟩ := execute_cases hsplit q
  · refine ⟨by simp [hx, hv], by simp [hx, hv], ?_, by simp [hv]⟩
    intro error' he p
    obtain rfl : .planning error = error' := Except.error.inj ((hx ..).symm.trans he)
    exact Scenario.Play.execute_of_error fun fresh id g => hx fresh id override g
  · refine ⟨by simp [hx, hv], by simp [hx, hv, hn, eq_comm], ?_, fun _ h => (h hn).elim⟩
    intro error' he p
    obtain rfl : .emptySplit q.id = error' := Except.error.inj ((hx ..).symm.trans he)
    exact Scenario.Play.execute_of_error fun fresh id g => hx fresh id override g
  · refine ⟨by simp [hx, hv], by simp [hx, hn], by simp [hx], fun _ _ => ?_⟩
    have hu := Execution.unopened_start (q := q) (subQueries_ne_nil hn fresh) id
      (c.windowFor override).toNat c.merger
    have he := List.getElem?_concat_length (l := g.executions) (a := (Execution.new id q
      (q.subQueries fresh) (c.windowFor override).toNat c.merger).start)
    refine ⟨_, hx .., makes_new hbuilt id q fresh override, ?_, ?_, ?_⟩
    · intro p
      exact Scenario.Play.execute_of_ok fun fresh id g => ⟨_, hx .., rfl⟩
    · obtain ⟨g₁, hg, _⟩ := exists_run_on (g := g.add _ true) he hu.run_opened
      exact ⟨g₁, hg⟩
    · intro hid
      exact opensInRegistry_of_entered (entered_add hid rfl) hu he

/-- One sub query at a time, added up. -/
def addingParts : CoordinatorParts Nat where
  config := some ((ShardingConfig.new 1).withStrategy "sum")
  mergers := some (.ofMergers [adding.merger])
  hasDownstream := true
  splitter := .byMetric
  hasRuntime := true

/-- An override with more places. It names another strategy. -/
def wider : ShardingConfig := (ShardingConfig.new 3).withStrategy "none"

def pairWider : Execution Nat :=
  (Execution.new ⟨.ofNat 9⟩ pair (pair.subQueries fun i => ⟨.ofNat i⟩) 3 adding.merger).start

/-- The sweep comes from inside the first call downstream. -/
theorem execute_all_or_nothing_swept : ∃ (c : Coordinator Nat) (g g' : Fleet Nat)
    (events : List (Nat × Event Nat)),
    build addingParts = .ok c ∧
      c.execute (fun i => ⟨.ofNat i⟩) ⟨.ofNat 9⟩ pair (some wider) .empty =
        .ok (Fleet.empty.add pairWider true) ∧
      pairWider.windowSize = 3 ∧
      (Fleet.empty.add pairWider true).run [.on 0 .resume, .on 0 .resume] =
        some (g, [(0, .dispatched 0)]) ∧
      InFirstCall ⟨.ofNat 9⟩ 0 g ∧ g.run [.sweep [0], .sweepNext] = some (g', events) ∧
      CutShort 0 (.error (.cancelled 0 (.requested ⟨.ofNat 9⟩))) g' := by
  have hb : build addingParts =
      .ok ⟨(ShardingConfig.new 1).withStrategy "sum", adding.merger, .byMetric⟩ := rfl
  obtain ⟨_, _, _, h⟩ := execute_all_or_nothing hb rfl (fun i => ⟨.ofNat i⟩) ⟨.ofNat 9⟩ pair
    (some wider) .empty
  obtain ⟨e₀, hx, hmakes, _, ⟨g, hg⟩, hopen⟩ := h (by decide) (List.cons_ne_nil _ _)
  have hw : e₀.windowSize = 3 := hmakes.window_override wider rfl (by decide)
  have hsame : Fleet.empty.add pairWider true = Fleet.empty.add e₀ true := Except.ok.inj hx
  obtain rfl : pairWider = e₀ := List.head_eq_of_cons_eq (congrArg Fleet.executions hsame)
  obtain ⟨⟨g₁, _⟩, hr, hnone, hs⟩ : ∃ t, (Fleet.empty.add pairWider true).run [.on 0 .resume] =
      some t ∧ dispatches (eventsOf 0 t.2) = [] ∧
      t.1.step (.on 0 .resume) = some (g, [(0, .dispatched 0)]) := by
    cases hg
    exact ⟨_, rfl, rfl, rfl⟩
  have ha : Avoids ⟨.ofNat 9⟩ ([.on 0 .resume] ++ [.on 0 .resume] : List (Fleet.Move Nat)) := by
    simp [Avoids]
  have hfirst : 0 ∈ dispatches (eventsOf 0 [(0, (.dispatched 0 : Event Nat))]) :=
    List.mem_singleton_self 0
  obtain ⟨_, hcall⟩ := hopen (by simp [empty]) _ g₁ _ _ g _ 0 hr hnone hs hfirst ha
  obtain ⟨hin, hcut⟩ := hcall [] g [] rfl rfl (by simp [Avoids])
  have hord : [0].Perm g.registered := by
    cases hg
    exact .refl _
  obtain ⟨_, g₂, hsweep, hcut⟩ := hcut [0] hord
  obtain ⟨⟨g', events⟩, hn, hnext, hmoves, hend⟩ : ∃ t, g.sweeps.length < g₂.sweeps.length ∧
      g₂.run [.sweepNext] = some t ∧ g₂.movesOn 0 [.sweepNext] = [.cancel] ∧
      t.1.sweeps = [] :: g.sweeps := by
    cases hg
    cases hsweep
    exact ⟨_, by decide, rfl, rfl, rfl⟩
  have hcancel : ∀ m ∈ g₂.movesOn 0 [.sweepNext], m = .cancel := by simp [hmoves]
  have hstay : StaysOpen g.sweeps.length g₂ [.sweepNext] := staysOpen_of_no_end hn (by decide)
  obtain ⟨_, hshort⟩ := hcut [.sweepNext] g' events hnext hstay hcancel
  exact ⟨_, g, g', events, hb, hx, hw, hg, hin,
    run_cons_eq_some.2 ⟨_, [], _, hsweep, hnext, rfl⟩, hshort hend⟩

end Coordinator
end ScatterGather
