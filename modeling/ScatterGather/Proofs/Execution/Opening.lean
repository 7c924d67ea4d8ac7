import ScatterGather.Proofs.Execution.Cancellation
import ScatterGather.Proofs.Execution.Dispatch

/-! What an execution does first of all is to call the downstream executor. Cancelled inside that
call, it comes back from it with nothing left to do. -/
namespace ScatterGather.Execution

variable {V : Type} {e e' e₀ : Execution V} {m : Move V} {ms : List (Move V)}
  {events later : List (Event V)} {i : Nat}

/-- An execution that does not yield goes on by itself. -/
theorem eq_resume_of_not_yields (hy : e.yields = false) (hs : e.step m = some (e', events)) :
    m = .resume := by
  cases transition_of_step hs with
  | fill | skip | launch | combine | stop => rfl
  | start h | cancel h | success h | failure h | resolve h | abandon h => simp [hy] at h
  | handed hc | stopped hc | combined hc | forward hc | retire hc | receive hc | halt hc =>
    simp [yields, hc] at hy

/-- Started, with room in its window, and no sub query reserved yet. -/
structure Unopened (e : Execution V) : Prop where
  calls : e.calls = [.fill]
  nextIndex : e.nextIndex = 0
  window : 0 < min e.windowSize e.total
  outcome : e.outcome = none
  slots : ∀ i : Nat, e.slots[i]? ≠ some true
  awaited : e.awaited = true

theorem unopened_start {q : Query} {subs : List Query} (hn : subs ≠ []) (id : ExecutionId) (w : Nat)
    (merger : Merger V) : Unopened (new id q subs w merger).start where
  calls := rfl
  nextIndex := rfl
  window := Nat.lt_min.2 ⟨Nat.le_max_right .., List.length_pos_iff.2 hn⟩
  outcome := rfl
  slots := by simp [start, new, List.getElem?_replicate]
  awaited := rfl

/-- The execution when the downstream executor is called for the first time. -/
def opened (e : Execution V) : Execution V := { e.reserve with calls := [.dispatching 0, .fill] }

theorem Unopened.fillNext (h : Unopened e₀) :
    e₀.fillNext = { e₀.reserve with calls := [.launch 0, .fill] } := by
  have hd : ¬ e₀.isCompleted = true := by simp [isCompleted, h.outcome]
  have hw : e₀.nextIndex < min e₀.windowSize e₀.total := h.nextIndex ▸ h.window
  rw [Execution.fillNext, if_neg hd, if_pos hw]
  simp [push, reserve, h.calls, h.nextIndex]

theorem Unopened.step_fill (h : Unopened e₀) : e₀.step .resume = some (e₀.fillNext, []) := by
  simp [step, resume, h.calls]

theorem Unopened.step_launch (h : Unopened e₀) :
    e₀.fillNext.step .resume = some (e₀.opened, [.dispatched 0]) := by
  rw [h.fillNext]
  simp [step, resume, isCompleted, reserve, h.outcome, opened]

theorem Unopened.run_opened (h : Unopened e₀) :
    e₀.run [.resume, .resume] = some (e₀.opened, [.dispatched 0]) :=
  run_cons_eq_some.2 ⟨_, _, _, h.step_fill, run_singleton_eq_some.2 h.step_launch, rfl⟩

theorem unopened_step (h : Unopened e₀) (hx : e = e₀ ∨ e = e₀.fillNext)
    (hs : e.step m = some (e', events)) :
    e' = e₀.fillNext ∧ events = [] ∨ e' = e₀.opened ∧ events = [.dispatched 0] := by
  rcases hx with rfl | rfl
  · obtain rfl := eq_resume_of_not_yields (by simp [yields, h.calls]) hs
    cases hs.symm.trans h.step_fill
    exact .inl ⟨rfl, rfl⟩
  · obtain rfl := eq_resume_of_not_yields (by simp [yields, h.fillNext]) hs
    cases hs.symm.trans h.step_launch
    exact .inr ⟨rfl, rfl⟩

theorem unopened_of_trace (h : Unopened e₀) (ht : Trace step e₀ ms e events)
    (hn : dispatches events = []) : e = e₀ ∨ e = e₀.fillNext := by
  induction ht with
  | refl => exact .inl rfl
  | snoc _ hs ih =>
    obtain ⟨hn, hn'⟩ := List.append_eq_nil_iff.1 ((dispatches_append ..).symm.trans hn)
    rcases unopened_step h (ih hn) hs with ⟨rfl, _⟩ | ⟨_, rfl⟩
    · exact .inr rfl
    · cases hn'

/-- Nothing comes before the first call of the downstream executor. -/
theorem opened_of_first_dispatch (h : Unopened e₀) (ht : Trace step e₀ ms e events)
    (hn : dispatches events = []) (hs : e.step m = some (e', later)) (hi : i ∈ dispatches later) :
    i = 0 ∧ e' = e₀.opened := by
  rcases unopened_step h (unopened_of_trace h ht hn) hs with ⟨_, rfl⟩ | ⟨rfl, rfl⟩
  · cases hi
  · exact ⟨List.mem_singleton.1 hi, rfl⟩

/-- The outcome of an execution whose cancellation came first. -/
def cancellation (e : Execution V) : Outcome V :=
  .error (.cancelled e.query.order (.requested e.id))

/-- In its first call of the downstream executor, with no outcome but its cancellation. -/
structure Opening (e : Execution V) : Prop where
  calls : e.calls = [.dispatching 0, .fill]
  held : e.held = []
  awaited : e.awaited = true
  outcome : ∀ o, e.outcome = some o → o = e.cancellation

theorem Unopened.opening (h : Unopened e₀) : Opening e₀.opened where
  calls := rfl
  held := by
    refine List.eq_nil_iff_forall_not_mem.2 fun i hi => ?_
    exact h.slots i (mem_held.1 hi)
  awaited := h.awaited
  outcome := by
    intro o ho
    simp [opened, reserve, h.outcome] at ho

theorem opening_cancel (h : Opening e) (hs : e.step .cancel = some (e', events)) :
    Opening e' := by
  cases transition_of_step hs with
  | cancel hy =>
    have ho : e.cancel.1.outcome = some e.cancellation := by
      simp only [cancel, stopWith_fst]
      cases hx : e.outcome with
      | none => rfl
      | some o =>
        rw [h.outcome o hx]
        rfl
    refine ⟨?_, held_stopWith .., ?_, ?_⟩
    · simp only [cancel, stopWith_fst, h.held, h.calls]
      rfl
    · simp only [cancel, stopWith_fst, h.awaited]
    · intro o hx
      have hc : e.cancel.1.cancellation = e.cancellation := by
        simp only [cancellation, cancel, stopWith_fst]
      rw [hc]
      exact Option.some.inj (hx.symm.trans ho)

theorem opening_of_trace (h : Opening e₀) (ht : Trace step e₀ ms e events)
    (hm : ∀ m ∈ ms, m = .cancel) : Opening e := by
  induction ht with
  | refl => exact h
  | snoc _ hs ih =>
    obtain rfl := hm _ (List.mem_append_right _ (List.mem_singleton_self _))
    exact opening_cancel (ih fun m hx => hm m (List.mem_append_left _ hx)) hs

theorem cancellation_of_plan (hp : e'.plan = e.plan) : e'.cancellation = e.cancellation := by
  have hid : e'.id = e.id := congrArg Prod.fst hp
  rw [cancellation, cancellation, query_of_plan hp, hid]

theorem Opening.outcome_eq (h : Opening e) (hd : e.isCompleted = true) :
    e.outcome = some e.cancellation := by
  obtain ⟨o, ho⟩ := Option.isSome_iff_exists.1 hd
  rw [ho, h.outcome o ho]

/-- The handle comes too late and is cancelled, and the call that filled the window returns. -/
theorem Opening.run_return (h : Opening e) (hd : e.isCompleted = true)
    (r : Option (SubResult V)) :
    ∃ e', e.run [.handed r, .resume, .stopped, .resume] = some (e', [.stopped 0]) ∧
      e'.calls = [] ∧ e'.received = e.received := by
  refine ⟨{ e with watchers := e.watchers ++ [⟨0, r⟩], calls := [] }, ?_, rfl, rfl⟩
  have ho : e.outcome.isSome = true := hd
  simp [runFrom, step, resume, attach_eq, h.calls, pop, Execution.fillNext, isCompleted, ho]

end ScatterGather.Execution
