import ScatterGather.Coordinator
import ScatterGather.Proofs.Execution.Progress
import ScatterGather.Proofs.Fleet
import ScatterGather.Proofs.Query.Split

/-! A query that is sharded comes out as if its sub queries had been run one after the other. -/
namespace ScatterGather

open Execution

variable {V : Type} {c : Coordinator V} {q : Query} {f : Nat → V}

theorem subQueries_ne_nil (hn : q.metrics ≠ []) (fresh : IdSupply) : q.subQueries fresh ≠ [] := by
  intro hx
  apply hn
  rw [← List.length_eq_zero_iff, ← length_subQueries fresh, hx]
  rfl

theorem prepare_byMetric (hs : c.splitter = .byMetric) (hv : q.validate = .ok ())
    (hn : q.metrics ≠ []) (fresh : IdSupply) (id : ExecutionId)
    (override : Option ShardingConfig) :
    c.prepare fresh id q override =
      .ok (new id q (q.subQueries fresh) (c.windowFor override).toNat c.merger) := by
  have hsplit : c.splitter fresh q = .ok (q.subQueries fresh) := by
    rw [hs, Splitter.byMetric, hv]
  simp only [Coordinator.prepare, hsplit]
  cases hx : q.subQueries fresh with
  | nil => exact (subQueries_ne_nil hn fresh hx).elim
  | cons s subs => rfl

theorem execute_byMetric (hs : c.splitter = .byMetric) (hv : q.validate = .ok ())
    (hn : q.metrics ≠ []) (fresh : IdSupply) (id : ExecutionId)
    (override : Option ShardingConfig) (g : Fleet V) :
    c.execute fresh id q override g = .ok (g.add (new id q (q.subQueries fresh)
      (c.windowFor override).toNat c.merger).start true) := by
  rw [Coordinator.execute, prepare_byMetric hs hv hn]
  rfl

/-- What a served execution of `q` shows once it is at rest. -/
theorem received_of_plan {e : Execution V} {launched done : List Nat} {subs : List Query} {w : Nat}
    {id : ExecutionId} {merger : Merger V} (hp : e.plan = (new id q subs w merger).start.plan)
    (h : Served f e launched done) (hr : AtRest e) :
    e.received = some (sequential merger q.order ((List.range subs.length).map f)) := by
  have hm : e.merger = merger := merger_of_plan hp
  have hq : e.query = q := query_of_plan hp
  have ht : e.total = subs.length := total_of_plan hp
  rw [received_of_atRest h hr, hm, hq, ht]

/-- Whatever the window, and in whatever order sub queries are answered: the execution of a query
can be served for so long only, it can be served on until it is at rest, and then the caller has the
merger's result for all answers. -/
theorem received_sequential (hs : c.splitter = .byMetric) (hv : q.validate = .ok ())
    (hn : q.metrics ≠ []) (fresh : IdSupply) (id : ExecutionId)
    (override : Option ShardingConfig) (g : Fleet V) (f : Nat → V) :
    ∃ g' e₀ bound, c.execute fresh id q override g = .ok g' ∧
      g'.executions[g.executions.length]? = some e₀ ∧
      ∀ ms g'' events, g'.run ms = some (g'', events) →
        Follows Execution.step (Serves f) e₀ (g'.movesOn g.executions.length ms) →
        ∃ e, g''.executions[g.executions.length]? = some e ∧
          (g'.movesOn g.executions.length ms).length ≤ bound ∧
          (¬ e.AtRest → ∃ m, Serves f e m ∧ (e.step m).isSome) ∧
          (e.AtRest → e.received =
            some (sequential c.merger q.order ((List.range q.metrics.length).map f))) := by
  have hx := execute_byMetric hs hv hn fresh id override g
  generalize he₀ : (new id q (q.subQueries fresh) (c.windowFor override).toNat c.merger).start = e₀
    at hx
  have h₀ : (g.add e₀ true).executions[g.executions.length]? = some e₀ :=
    List.getElem?_concat_length
  refine ⟨g.add e₀ true, e₀, e₀.remaining, hx, h₀, ?_⟩
  intro ms g'' events hr hf
  obtain ⟨e, es, hrun, he⟩ := Fleet.execution_run hr h₀
  have ht := Trace.of_run hrun
  have hserved : Served f e (dispatches es) _ :=
    served_of_trace ht hf (he₀ ▸ served_start (subQueries_ne_nil hn fresh))
  refine ⟨e, he, ?_, exists_serves_of_not_atRest, ?_⟩
  · have := length_add_remaining_le ht hf
    omega
  · intro hrest
    have hp := plan_of_trace ht
    rw [← he₀] at hp
    rw [received_of_plan hp hserved hrest, length_subQueries]

/-- Results are added up, one sub query at a time. -/
def adding : Coordinator Nat :=
  ⟨.new 1, ⟨"sum", fun parts => .value (parts.foldl Nat.add 0)⟩, .byMetric⟩

def pair : Query :=
  ((Query.new ⟨.ofNat 8⟩ ⟨0, 10⟩).withMetric (.plain "a")).withMetric (.plain "b")

/-- The first handle resolves late, the second one comes back resolved. -/
def pairMoves : List (Move Nat) :=
  [.resume, .resume, .handed none, .resume, .resolve 0 (.ok 5), .forward 0, .receive, .resume,
    .handed (some (.ok 6)), .forward 1, .receive, .resume, .combined (.value 11), .halt]

def pairStarted : Execution Nat :=
  (new ⟨.ofNat 9⟩ pair (pair.subQueries fun i => ⟨.ofNat i⟩) 1 adding.merger).start

theorem received_sequential_pair :
    ∃ g' g'' events e,
      adding.execute (fun i => ⟨.ofNat i⟩) ⟨.ofNat 9⟩ pair none .empty = .ok g' ∧
      g'.run (pairMoves.map (.on 0)) = some (g'', events) ∧
      g''.executions[0]? = some e ∧ e.received = some (.ok 11) := by
  have hv : pair.validate = .ok () := by decide
  have hn : pair.metrics ≠ [] := List.cons_ne_nil _ _
  have hg : adding.execute (fun i => ⟨.ofNat i⟩) ⟨.ofNat 9⟩ pair none .empty =
      .ok (Fleet.empty.add pairStarted true) := execute_byMetric rfl hv hn ..
  obtain ⟨g', e₀, bound, hx, h₀, h⟩ := received_sequential (c := adding) rfl hv hn
    (fun i => ⟨.ofNat i⟩) ⟨.ofNat 9⟩ none .empty fun i => 5 + i
  obtain rfl := Except.ok.inj (hg.symm.trans hx)
  obtain rfl : pairStarted = e₀ := Option.some.inj h₀
  obtain ⟨⟨g'', events⟩, hr⟩ : ∃ t, (Fleet.empty.add pairStarted true).run
    (pairMoves.map (.on 0)) = some t := ⟨_, rfl⟩
  have hf : Follows Execution.step (Serves fun i => 5 + i) pairStarted
      ((Fleet.empty.add pairStarted true).movesOn 0 (pairMoves.map (.on 0))) := by
    refine ⟨trivial, trivial, fun _ _ _ => .inl rfl, trivial, rfl, trivial, trivial, trivial, ?_,
      trivial, trivial, trivial, ?_, trivial, trivial⟩
    · intro i s hc
      cases hc
      exact .inr rfl
    · intro rs s hc
      cases hc
      rfl
  obtain ⟨e, he, _, _, hrec⟩ := h _ g'' events hr hf
  refine ⟨_, g'', events, e, hx, hr, he, ?_⟩
  have hrest : e.AtRest := by
    cases hr
    cases he
    exact ⟨rfl, fun _ => rfl, fun _ => rfl, fun _ => rfl, rfl, rfl⟩
  exact hrec hrest

end ScatterGather
