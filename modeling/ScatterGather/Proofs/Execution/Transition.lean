import ScatterGather.Execution.Step
import ScatterGather.Proofs.Execution.Calls
import ScatterGather.Proofs.Run

/-! Every way in which a step can go. -/
namespace ScatterGather.Execution

variable {V : Type}

/-- A step with what it needs, by what is at work: a caller, the execution itself, a collaborator
that returns, a handle, a task. -/
inductive Transition (e : Execution V) : Move V → Execution V → List (Event V) → Prop
  | start (hy : e.yields) : Transition e .start e.start []
  | cancel (hy : e.yields) : Transition e .cancel e.cancel.1 e.cancel.2
  | success {i v} (hy : e.yields) : Transition e (.success i v) (e.succeed i v) []
  | failure {i error} (hy : e.yields) :
      Transition e (.failure i error) (e.fail i error).1 (e.fail i error).2
  | fill {s} (hc : e.calls = .fill :: s) : Transition e .resume e.fillNext []
  | skip {i s} (hc : e.calls = .launch i :: s) (hd : e.isCompleted = true) :
      Transition e .resume e.pop []
  | launch {i s} (hc : e.calls = .launch i :: s) (hd : e.isCompleted = false) :
      Transition e .resume { e with calls := .dispatching i :: s } [.dispatched i]
  | combine {rs s} (hc : e.calls = .combine rs :: s) :
      Transition e .resume { e with calls := .merging rs :: s } [.deregistered, .merged rs]
  | stop {i s} (hc : e.calls = .stop i :: s) :
      Transition e .resume { e with calls := .stopping i :: s } [.stopped i]
  | handed {i r s} (hc : e.calls = .dispatching i :: s) :
      Transition e (.handed r) (e.attach i r) []
  | stopped {i s} (hc : e.calls = .stopping i :: s) : Transition e .stopped e.pop []
  | combined {rs m s} (hc : e.calls = .merging rs :: s) :
      Transition e (.combined m)
        (e.pop.deliver ((m.result e.merger.strategy).mapError (.merge e.query.order))).1
        (e.pop.deliver ((m.result e.merger.strategy).mapError (.merge e.query.order))).2
  | resolve {i r} (hy : e.yields) (hl : e.listens i) :
      Transition e (.resolve i r) { e with watchers := settle i r e.watchers } []
  | abandon (hy : e.yields) : Transition e .abandon { e with awaited := false } []
  | forward {i j r} (hc : e.calls = []) (hw : e.watcher? i = some ⟨j, some r⟩) :
      Transition e (.forward i)
        { e.unwatch i with
          inbox := if e.driver = .finished then e.inbox else e.inbox ++ [(i, r)] } []
  | retire {i w} (hc : e.calls = []) (hw : e.watcher? i = some w) (hd : e.isCompleted = true) :
      Transition e (.retire i) (e.unwatch i) []
  | receive {i r rest} (hc : e.calls = []) (hr : e.driver = .running)
      (hi : e.inbox = (i, r) :: rest) :
      Transition e .receive ({ e with inbox := rest }.complete i r).1
        ({ e with inbox := rest }.complete i r).2
  | halt (hc : e.calls = []) (hr : e.driver = .running) (hd : e.isCompleted = true) :
      Transition e .halt { e with driver := .finished, inbox := [] } []

variable {e e' : Execution V} {m : Move V} {events : List (Event V)}

theorem transition_of_resume (h : e.resume = some (e', events)) :
    Transition e .resume e' events := by
  unfold resume at h
  split at h
  · rename_i s hc
    cases h
    exact .fill hc
  · rename_i i s hc
    split at h
    · rename_i hd
      cases h
      exact .skip hc hd
    · rename_i hd
      cases h
      exact .launch hc (Bool.eq_false_iff.2 hd)
  · rename_i rs s hc
    cases h
    exact .combine hc
  · rename_i i s hc
    cases h
    exact .stop hc
  · cases h

theorem transition_of_step (h : e.step m = some (e', events)) : Transition e m e' events := by
  cases m with
  | start =>
    obtain ⟨hy, ht⟩ := Option.ite_none_right_eq_some.1 h
    cases ht
    exact .start hy
  | cancel =>
    obtain ⟨hy, ht⟩ := Option.ite_none_right_eq_some.1 h
    cases ht
    exact .cancel hy
  | success i v =>
    obtain ⟨hy, ht⟩ := Option.ite_none_right_eq_some.1 h
    cases ht
    exact .success hy
  | failure i error =>
    obtain ⟨hy, ht⟩ := Option.ite_none_right_eq_some.1 h
    have hf : Transition e (.failure i error) _ _ := .failure hy
    rwa [Option.some.inj ht] at hf
  | resume => exact transition_of_resume h
  | handed r =>
    simp only [step] at h
    split at h
    · cases h
      exact .handed ‹_›
    · cases h
  | stopped =>
    simp only [step] at h
    split at h
    · cases h
      exact .stopped ‹_›
    · cases h
  | combined m =>
    simp only [step] at h
    split at h
    · rename_i hc
      have hm : Transition e (.combined m) _ _ := .combined hc
      rwa [Option.some.inj h] at hm
    · cases h
  | resolve i r =>
    obtain ⟨⟨hy, hl⟩, ht⟩ := Option.ite_none_right_eq_some.1 h
    cases ht
    exact .resolve hy hl
  | abandon =>
    obtain ⟨hy, ht⟩ := Option.ite_none_right_eq_some.1 h
    cases ht
    exact .abandon hy
  | forward i =>
    simp only [step] at h
    split at h
    · cases h
      exact .forward ‹_› ‹_›
    · cases h
  | retire i =>
    simp only [step] at h
    split at h
    · obtain ⟨hd, ht⟩ := Option.ite_none_right_eq_some.1 h
      cases ht
      exact .retire ‹_› ‹_› hd
    · cases h
  | receive =>
    simp only [step] at h
    split at h
    · rename_i hc hr hi
      have hx : Transition e .receive _ _ := .receive hc hr hi
      rwa [Option.some.inj h] at hx
    · cases h
  | halt =>
    simp only [step] at h
    split at h
    · obtain ⟨hd, ht⟩ := Option.ite_none_right_eq_some.1 h
      cases ht
      exact .halt ‹_› ‹_› hd
    · cases h

theorem plan_step (h : e.step m = some (e', events)) : e'.plan = e.plan := by
  cases transition_of_step h with
  | cancel hy => exact plan_stopWith ..
  | success hy => exact plan_succeed ..
  | failure hy => exact plan_fail ..
  | fill hc => exact plan_fillNext e
  | handed hc =>
    rw [attach_eq]
    rfl
  | combined hc => exact plan_deliver _ e.pop
  | @receive i r rest hc hr hi =>
    cases r with
    | ok v => exact plan_succeed i v { e with inbox := rest }
    | error error => exact plan_fail i error { e with inbox := rest }
  | start | skip | launch | combine | stop | stopped | resolve | abandon | forward | retire
    | halt => rfl

theorem plan_of_trace {e₀ : Execution V} {ms : List (Move V)} (h : Trace step e₀ ms e events) :
    e.plan = e₀.plan := by
  induction h with
  | refl => rfl
  | snoc _ hs ih => exact (plan_step hs).trans ih

end ScatterGather.Execution
