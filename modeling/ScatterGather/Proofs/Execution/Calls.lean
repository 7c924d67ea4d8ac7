import ScatterGather.Execution.Basic

/-! Calls into an execution, written as one update each, and what they leave alone. -/
namespace ScatterGather.Execution

variable {V : Type} {e e' : Execution V}

theorem calls_pop {f : Frame V} {s : List (Frame V)} (h : e.calls = f :: s) :
    e.pop.calls = s := by
  rw [pop, h]
  rfl

theorem deliver_fst (o : Outcome V) (e : Execution V) :
    (e.deliver o).1 =
      { e with
        outcome := some (e.outcome.getD o)
        state := if e.isCompleted then e.state else stateOf o } := by
  by_cases hd : e.isCompleted
  · obtain ⟨o', ho⟩ := Option.isSome_iff_exists.1 hd
    rw [deliver, if_pos hd, if_pos hd, ho, Option.getD_some, ← ho]
  · have ho : e.outcome = none := by simpa [isCompleted] using hd
    rw [deliver, if_neg hd, if_neg hd, ho]
    rfl

theorem deliver_snd (o : Outcome V) (e : Execution V) :
    (e.deliver o).2 = if e.isCompleted then [] else [.delivered o] := by
  by_cases hd : e.isCompleted
  · rw [deliver, if_pos hd, if_pos hd]
  · rw [deliver, if_neg hd, if_neg hd]

theorem stopWith_fst (error : ShardingError) (e : Execution V) :
    (e.stopWith error).1 =
      { e with
        outcome := some (e.outcome.getD (.error error))
        state := if e.isCompleted then e.state else stateOf (.error error : Outcome V)
        nextIndex := e.total
        slots := e.slots.map fun _ => false
        calls := e.held.map .stop ++ e.calls } := by
  simp only [stopWith, sweep, deliver_fst, held, total]

theorem stopWith_snd (error : ShardingError) (e : Execution V) :
    (e.stopWith error).2 = (e.deliver (.error error)).2 ++ [.deregistered] := rfl

theorem attach_eq (i : Nat) (r : Option (SubResult V)) (e : Execution V) :
    e.attach i r =
      { e with
        watchers := e.watchers ++ [⟨i, r⟩]
        slots := if e.isCompleted then e.slots else e.slots.set i true
        calls := (if e.isCompleted then [.stop i] else []) ++ e.calls.tail } := by
  change (if e.isCompleted then _ else _) = _
  by_cases hd : e.isCompleted <;> simp [hd, pop, push]

/-- A result is ignored or recorded, and then collected and replaced by the next sub query. -/
theorem succeed_cases (i : Nat) (v : V) (e : Execution V) :
    e.succeed i v = e ∨
      e.isCompleted = false ∧ e.lacks i = true ∧
        e.succeed i v = (e.record i v).collect.refill := by
  by_cases hd : e.isCompleted
  · exact .inl (if_pos hd)
  · by_cases hl : e.lacks i
    · exact .inr ⟨Bool.eq_false_iff.2 hd, hl, by rw [succeed, if_neg hd, if_pos hl]⟩
    · exact .inl (by rw [succeed, if_neg hd, if_neg hl])

theorem fail_cases (i : Nat) (error : QueryError) (e : Execution V) :
    e.isCompleted = true ∧ e.fail i error = (e, []) ∨
      e.isCompleted = false ∧ e.fail i error = e.stopWith (.subQuery i e.query.order error) := by
  by_cases hd : e.isCompleted
  · exact .inl ⟨hd, if_pos hd⟩
  · exact .inr ⟨Bool.eq_false_iff.2 hd, if_neg hd⟩

/-- The next sub query is reserved, if there is one. -/
theorem refill_cases (e : Execution V) :
    e.nextIndex < e.total ∧ e.refill = e.reserve.push [.launch e.nextIndex] ∨
      e.total ≤ e.nextIndex ∧ e.refill = e := by
  by_cases hn : e.nextIndex < e.total
  · exact .inl ⟨hn, if_pos hn⟩
  · exact .inr ⟨Nat.le_of_not_lt hn, if_neg hn⟩

theorem collect_cases (e : Execution V) :
    e.succeeded = e.total ∧
        e.collect =
          { e with
            results := e.results.map fun _ => none
            calls := .combine (e.results.filterMap fun r => r) :: e.calls } ∨
      e.succeeded ≠ e.total ∧ e.collect = e := by
  by_cases hs : e.succeeded = e.total
  · exact .inl ⟨hs, if_pos hs⟩
  · exact .inr ⟨hs, if_neg hs⟩

/-- A round of filling stops at an outcome, goes on, or ends with the window. -/
theorem fillNext_cases (e : Execution V) :
    e.isCompleted = true ∧ e.fillNext = e.pop ∨
      e.isCompleted = false ∧ e.nextIndex < min e.windowSize e.total ∧
        e.fillNext = e.reserve.push [.launch e.nextIndex] ∨
      e.isCompleted = false ∧ min e.windowSize e.total ≤ e.nextIndex ∧
        e.fillNext =
          { e.pop with
            state :=
              if e.nextIndex < e.total ∧ e.state = .dispatching then .windowFull
              else e.state } := by
  by_cases hd : e.isCompleted
  · exact .inl ⟨hd, if_pos hd⟩
  · right
    have hf := Bool.eq_false_iff.2 hd
    by_cases hn : e.nextIndex < min e.windowSize e.total
    · exact .inl ⟨hf, hn, by rw [fillNext, if_neg hd, if_pos hn]⟩
    · exact .inr ⟨hf, Nat.le_of_not_lt hn, by rw [fillNext, if_neg hd, if_neg hn]⟩

theorem refill_frame (e : Execution V) :
    e.refill =
      { e with
        nextIndex := e.refill.nextIndex
        dispatched := e.refill.dispatched
        state := e.refill.state
        calls := e.refill.calls } := by
  rcases refill_cases e with ⟨_, h⟩ | ⟨_, h⟩
  · rw [h]
    rfl
  · rw [h]

theorem collect_frame (e : Execution V) :
    e.collect = { e with results := e.collect.results, calls := e.collect.calls } := by
  rcases collect_cases e with ⟨_, h⟩ | ⟨_, h⟩ <;> rw [h]

theorem succeed_frame (i : Nat) (v : V) (e : Execution V) :
    e.succeed i v =
      { e with
        nextIndex := (e.succeed i v).nextIndex
        dispatched := (e.succeed i v).dispatched
        succeeded := (e.succeed i v).succeeded
        results := (e.succeed i v).results
        state := (e.succeed i v).state
        calls := (e.succeed i v).calls } := by
  rcases succeed_cases i v e with h | ⟨_, _, h⟩
  · rw [h]
  · rw [h, refill_frame, collect_frame]
    rfl

theorem fail_frame (i : Nat) (error : QueryError) (e : Execution V) :
    (e.fail i error).1 =
      { e with
        nextIndex := (e.fail i error).1.nextIndex
        slots := (e.fail i error).1.slots
        state := (e.fail i error).1.state
        outcome := (e.fail i error).1.outcome
        calls := (e.fail i error).1.calls } := by
  rcases fail_cases i error e with ⟨_, h⟩ | ⟨_, h⟩
  · rw [h]
  · rw [h, stopWith_fst]

theorem fillNext_frame (e : Execution V) :
    e.fillNext =
      { e with
        nextIndex := e.fillNext.nextIndex
        dispatched := e.fillNext.dispatched
        state := e.fillNext.state
        calls := e.fillNext.calls } := by
  rcases fillNext_cases e with ⟨_, h⟩ | ⟨_, _, h⟩ | ⟨_, _, h⟩
  · rw [h]
    rfl
  · rw [h]
    rfl
  · rw [h]
    rfl

section

variable {α : Type} {φ : Frame V → Option α}

theorem filterMap_calls_pop {f : Frame V} {s : List (Frame V)} (hc : e.calls = f :: s)
    (hf : φ f = none) : e.pop.calls.filterMap φ = e.calls.filterMap φ := by
  rw [calls_pop hc, hc, List.filterMap_cons_none hf]

theorem filterMap_calls_refill (hl : ∀ i, φ (.launch i) = none) (e : Execution V) :
    e.refill.calls.filterMap φ = e.calls.filterMap φ := by
  rcases refill_cases e with ⟨_, h⟩ | ⟨_, h⟩
  · rw [h]
    exact List.filterMap_cons_none (hl _)
  · rw [h]

theorem filterMap_calls_collect (hc : ∀ rs, φ (.combine rs) = none) (e : Execution V) :
    e.collect.calls.filterMap φ = e.calls.filterMap φ := by
  rcases collect_cases e with ⟨_, h⟩ | ⟨_, h⟩
  · rw [h]
    exact List.filterMap_cons_none (hc _)
  · rw [h]

/-- A success puts nothing on the stack but launches and the merge. -/
theorem filterMap_calls_succeed (hl : ∀ i, φ (.launch i) = none)
    (hc : ∀ rs, φ (.combine rs) = none) (i : Nat) (v : V) (e : Execution V) :
    (e.succeed i v).calls.filterMap φ = e.calls.filterMap φ := by
  rcases succeed_cases i v e with h | ⟨_, _, h⟩
  · rw [h]
  · rw [h, filterMap_calls_refill hl, filterMap_calls_collect hc]
    rfl

theorem filterMap_calls_fillNext {s : List (Frame V)} (hl : ∀ i, φ (.launch i) = none)
    (hf : φ .fill = none) (hc : e.calls = .fill :: s) :
    e.fillNext.calls.filterMap φ = e.calls.filterMap φ := by
  rcases fillNext_cases e with ⟨_, h⟩ | ⟨_, _, h⟩ | ⟨_, _, h⟩
  · rw [h]
    exact filterMap_calls_pop hc hf
  · rw [h]
    exact List.filterMap_cons_none (hl _)
  · rw [h]
    exact filterMap_calls_pop hc hf

/-- A handle that comes back puts nothing on the stack but the call of its cancel hook. -/
theorem filterMap_calls_attach {i : Nat} {s : List (Frame V)} (hd : ∀ i, φ (.dispatching i) = none)
    (hs : ∀ i, φ (.stop i) = none) (r : Option (SubResult V))
    (hc : e.calls = .dispatching i :: s) :
    (e.attach i r).calls.filterMap φ = e.calls.filterMap φ := by
  rw [attach_eq, hc, List.filterMap_cons_none (hd i)]
  cases e.isCompleted with
  | true => exact List.filterMap_cons_none (hs i)
  | false => rfl

theorem filterMap_calls_stopWith (error : ShardingError) (e : Execution V) :
    (e.stopWith error).1.calls.filterMap φ =
      e.held.filterMap (fun i => φ (.stop i)) ++ e.calls.filterMap φ := by
  rw [stopWith_fst, List.filterMap_append, List.filterMap_map]
  rfl

theorem filterMap_calls_stopWith_of (hs : ∀ i, φ (.stop i) = none) (error : ShardingError)
    (e : Execution V) : (e.stopWith error).1.calls.filterMap φ = e.calls.filterMap φ := by
  rw [filterMap_calls_stopWith, List.filterMap_eq_nil_iff.2 fun i _ => hs i, List.nil_append]

theorem filterMap_calls_complete (hl : ∀ i, φ (.launch i) = none)
    (hc : ∀ rs, φ (.combine rs) = none) (hs : ∀ i, φ (.stop i) = none) (i : Nat) (r : SubResult V)
    (e : Execution V) : (e.complete i r).1.calls.filterMap φ = e.calls.filterMap φ := by
  cases r with
  | ok v => exact filterMap_calls_succeed hl hc i v e
  | error error =>
    change (e.fail i error).1.calls.filterMap φ = _
    rcases fail_cases i error e with ⟨_, h⟩ | ⟨_, h⟩
    · rw [h]
    · rw [h, filterMap_calls_stopWith_of hs]

end

section

variable {α : Type} {φ : Event V → Option α}

theorem filterMap_events_deliver (hd : ∀ o, φ (.delivered o) = none) (o : Outcome V)
    (e : Execution V) : (e.deliver o).2.filterMap φ = [] := by
  rw [deliver_snd]
  split
  · rfl
  · exact List.filterMap_cons_none (hd o)

/-- A cancellation does nothing outside but deliver and deregister. -/
theorem filterMap_events_stopWith (hd : ∀ o, φ (.delivered o) = none)
    (hr : φ .deregistered = none) (error : ShardingError) (e : Execution V) :
    (e.stopWith error).2.filterMap φ = [] := by
  rw [stopWith_snd, List.filterMap_append, filterMap_events_deliver hd]
  exact List.filterMap_cons_none hr

theorem filterMap_events_complete (hd : ∀ o, φ (.delivered o) = none)
    (hr : φ .deregistered = none) (i : Nat) (r : SubResult V) (e : Execution V) :
    (e.complete i r).2.filterMap φ = [] := by
  cases r with
  | ok v => rfl
  | error error =>
    change (e.fail i error).2.filterMap φ = []
    rcases fail_cases i error e with ⟨_, h⟩ | ⟨_, h⟩
    · rw [h]
      rfl
    · rw [h, filterMap_events_stopWith hd hr]

end

/-- What an execution is made for. -/
def plan (e : Execution V) : ExecutionId × Query × List Query × Nat × Merger V :=
  (e.id, e.query, e.subQueries, e.windowSize, e.merger)

theorem plan_deliver (o : Outcome V) (e : Execution V) : (e.deliver o).1.plan = e.plan := by
  rw [deliver_fst]
  rfl

theorem plan_stopWith (error : ShardingError) (e : Execution V) :
    (e.stopWith error).1.plan = e.plan := by
  rw [stopWith_fst]
  rfl

theorem plan_succeed (i : Nat) (v : V) (e : Execution V) : (e.succeed i v).plan = e.plan := by
  rw [succeed_frame]
  rfl

theorem plan_fail (i : Nat) (error : QueryError) (e : Execution V) :
    (e.fail i error).1.plan = e.plan := by
  rw [fail_frame]
  rfl

theorem plan_fillNext (e : Execution V) : e.fillNext.plan = e.plan := by
  rw [fillNext_frame]
  rfl

theorem total_of_plan (h : e'.plan = e.plan) : e'.total = e.total :=
  congrArg (fun p => p.2.2.1.length) h

theorem windowSize_of_plan (h : e'.plan = e.plan) : e'.windowSize = e.windowSize :=
  congrArg (fun p => p.2.2.2.1) h

theorem query_of_plan (h : e'.plan = e.plan) : e'.query = e.query :=
  congrArg (fun p => p.2.1) h

theorem merger_of_plan (h : e'.plan = e.plan) : e'.merger = e.merger :=
  congrArg (fun p => p.2.2.2.2) h

end ScatterGather.Execution
