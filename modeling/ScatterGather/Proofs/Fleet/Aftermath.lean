import ScatterGather.Proofs.Execution.Aftermath
import ScatterGather.Proofs.Fleet.Registry

/-! Executions with an outcome are out of the registry, lose their tasks, and show no change. -/
namespace ScatterGather.Fleet

variable {V : Type} {g : Fleet V} {x : Nat} {e e' : Execution V}
  {ms ns : List (ScatterGather.Move V)} {events later : List (Event V)}

theorem put_of_not_contains (hn : g.outstanding.contains e.id = false) :
    g.put x e e' events = { g with executions := g.executions.set x e' } := by
  rw [put, Outstanding.deregister_of_not_contains hn, ite_self]

/-- The moves of an execution that is not registered leave the registry alone. -/
theorem run_on (hn : g.outstanding.contains e.id = false) (he : g.executions[x]? = some e)
    (hr : e.run ns = some (e', later)) :
    g.run (ns.map (.on x)) =
      some ({ g with executions := g.executions.set x e' }, label x later) := by
  induction ns generalizing g e later with
  | nil =>
    obtain ⟨rfl, rfl⟩ := run_nil_eq_some.1 hr
    obtain ⟨hx, rfl⟩ := List.getElem?_eq_some_iff.1 he
    rw [List.set_getElem_self hx]
    rfl
  | cons m ns ih =>
    obtain ⟨e₁, es₁, es₂, hs, hr₁, rfl⟩ := run_cons_eq_some.1 hr
    have hid : e₁.id = e.id := congrArg Prod.fst (Execution.plan_step hs)
    have hx := (List.getElem?_eq_some_iff.1 he).1
    have hrest := ih (g := { g with executions := g.executions.set x e₁ }) (hid ▸ hn)
      (by simp [hx]) hr₁
    rw [List.set_set] at hrest
    have hstep := step_on he hs
    rw [put_of_not_contains hn] at hstep
    exact run_cons_eq_some.2 ⟨_, _, _, hstep, hrest, List.map_append⟩

/-- At every point of a run, an execution is in the registry exactly if it has no outcome and its
merger is not at work. Once it has an outcome, no task of it is left when none can move. From any
point between calls its tasks come to that by themselves: one of them can move as long as any is
left, they do nothing outside, and there is a bound on their steps. -/
theorem outcome_releases_all (hg : Enrolled g) (he : g.executions[x]? = some e) :
    (g.outstanding.contains e.id = true ↔ e.isCompleted = false ∧ mergings e.calls = []) ∧
      (e.isCompleted = true → e.Still → e.alive = 0) ∧
      (e.isCompleted = true → e.calls = [] → ∀ ms e' events, e.run ms = some (e', events) →
        (∀ m ∈ ms, m.isTask = true) → events = [] ∧ ms.length ≤ e.work ∧
          (e'.Still ↔ e'.alive = 0) ∧
          (e'.alive ≠ 0 → ∃ m, m.isTask = true ∧ (e'.step m).isSome = true)) := by
  refine ⟨contains_iff_listed (tracked_of_enrolled hg) he, ?_, ?_⟩
  · intro hd hs
    exact (Execution.alive_eq_zero_iff hs.calls hd).2 hs
  · intro hd hc ms e' events hr hm
    have ht := Trace.of_run hr
    obtain ⟨hnone, hcore⟩ := Execution.quiet_of_tasks ht hd hm
    have hc' : e'.calls = [] := (congrArg Execution.calls hcore).trans hc
    have hd' := Execution.isCompleted_of_trace ht hd
    have hwork := Execution.length_add_work_le ht hm
    exact ⟨hnone, by omega, (Execution.alive_eq_zero_iff hc' hd').symm,
      Execution.exists_task_of_alive hc' hd'⟩

/-- Cancelled from inside its first dispatch. The handle comes back after that, and never
resolves. -/
def cutShort : List (ScatterGather.Move Nat) :=
  [.start, .resume, .resume, .cancel, .handed none, .resume, .stopped, .resume]

/-- Three sub queries more. -/
def other : Execution Nat :=
  .new ⟨.ofNat 3⟩ Execution.sample.query Execution.sample.subQueries 2 Execution.sample.merger

/-- The first execution is cut short, the other one is cancelled before it is started. Then their
tasks end. -/
def released : List (Move Nat) :=
  cutShort.map (.on 0) ++ [.on 1 .cancel, .on 1 .start, .on 1 .resume, .on 0 (.retire 0),
    .on 0 .halt, .on 1 .halt]

theorem enrolled_sample : Enrolled (Fleet.empty.add Execution.sample true) :=
  .add .empty (by simp [empty])

theorem enrolled_other :
    Enrolled ((Fleet.empty.add Execution.sample true).add other true) := by
  refine .add enrolled_sample ?_
  intro e he
  obtain rfl := List.mem_singleton.1 he
  decide

theorem outcome_releases_all_late : ∃ (g : Fleet Nat) (e₁ e₂ : Execution Nat),
    Enrolled g ∧ g.executions = [e₁, e₂] ∧
      g.outstanding.contains e₁.id = false ∧ g.outstanding.contains e₂.id = false ∧
      e₁.alive = 0 ∧ e₂.alive = 0 := by
  obtain ⟨⟨g, events⟩, h⟩ : ∃ t, ((Fleet.empty.add Execution.sample true).add other true).run
    released = some t := ⟨_, rfl⟩
  have hg : Enrolled g := enrolled_of_trace (Trace.of_run h) enrolled_other (by decide)
  obtain ⟨e₁, e₂, he, hd₁, hd₂, hs₁, hs₂⟩ : ∃ e₁ e₂ : Execution Nat, g.executions = [e₁, e₂] ∧
      e₁.isCompleted = true ∧ e₂.isCompleted = true ∧ e₁.Still ∧ e₂.Still := by
    cases h
    exact ⟨_, _, rfl, rfl, rfl, ⟨rfl, fun _ => rfl, fun _ => rfl, rfl, rfl⟩,
      ⟨rfl, fun _ => rfl, fun _ => rfl, rfl, rfl⟩⟩
  obtain ⟨hc₁, ha₁, _⟩ := outcome_releases_all hg (x := 0) (e := e₁) (by rw [he]; rfl)
  obtain ⟨hc₂, ha₂, _⟩ := outcome_releases_all hg (x := 1) (e := e₂) (by rw [he]; rfl)
  refine ⟨g, e₁, e₂, hg, he, ?_, ?_, ha₁ hd₁ hs₁, ha₂ hd₂ hs₂⟩
  · rw [Bool.eq_false_iff, ne_eq, hc₁]
    simp [hd₁]
  · rw [Bool.eq_false_iff, ne_eq, hc₂]
    simp [hd₂]

open Execution in
/-- Whatever is called or reported after the outcome, the execution shows what it showed, the
registry stays as it is, and nothing but cancel hooks is called. Without a further cancellation
nothing at all happens outside. Such a cancellation calls each hook that has not been called, once,
and the next one calls none. None is left from the beginning if the outcome is a cancellation or the
failure of a sub query. Tasks make no difference, whichever way they go. -/
theorem inert_after_outcome {id : ExecutionId} {q : Query} {subs : List Query} {w : Nat}
    {merger : Merger V} (h : (new id q subs w merger).run ms = some (e, events))
    (hd : e.isCompleted = true) (hc : e.calls = []) :
    (stops events ++ e.held).Perm (along Execution.step handle? (new id q subs w merger) ms) ∧
      (e.Halted → e.held = []) ∧
      (∃ e₁, e.run (.cancel :: e.held.flatMap fun _ => [.resume, .stopped]) =
        some (e₁, .deregistered :: e.held.map .stopped) ∧ e₁.calls = []) ∧
      ∀ ns e' later, e.run ns = some (e', later) →
        e'.face = e.face ∧ dispatches later = [] ∧ merges later = [] ∧ deliveries later = [] ∧
        (.cancel ∉ ns → later = []) ∧
        (.cancel ∈ ns → e'.calls = [] → stops later = e.held ∧
          ∀ ns' e'' later', e'.run ns' = some (e'', later') → stops later' = []) ∧
        (∀ (g : Fleet V) (x : Nat), Enrolled g → g.executions[x]? = some e →
          g.run (ns.map (.on x)) =
            some ({ g with executions := g.executions.set x e' }, label x later)) ∧
        (∀ ns' e'' later', e.run ns' = some (e'', later') →
          (ns'.filter fun m => !m.isTransport) = (ns.filter fun m => !m.isTransport) →
          later' = later ∧ e''.core = e'.core) := by
  have ht := Trace.of_run h
  have hperm := stops_append_held_perm ht (lined_new ..) (hooked_new ..) hc
  refine ⟨hperm, held_of_halted ht rfl, ⟨_, run_cancel hc hd, rfl⟩, ?_⟩
  intro ns e' later hr
  have hn := Trace.of_run hr
  have hl := late_of_trace hn hc hd
  refine ⟨hl.face, hl.filterMap_events (fun _ => rfl) rfl, hl.filterMap_events (fun _ => rfl) rfl,
    hl.filterMap_events (fun _ => rfl) rfl, fun hx => (hl.calm hx).1, ?_, ?_, ?_⟩
  · intro hx hc'
    refine ⟨hl.stops_eq hx hc', ?_⟩
    intro ns' e'' later' hr'
    have hl' := late_of_trace (Trace.of_run hr') hc' (isCompleted_of_trace hn hd)
    have hk := hl'.hooks
    rw [hl.swept hx, List.append_eq_nil_iff, List.append_eq_nil_iff] at hk
    exact hk.1.1
  · intro g x hg he
    exact run_on (not_contains_of_completed (tracked_of_enrolled hg) he hd) he hr
  · intro ns' e'' later' hr' hf
    exact same_of_core (Trace.of_run hr') hn hd hf

/-- Three sub queries that succeed, and whose results are added up. -/
def summed : List (ScatterGather.Move Nat) :=
  [.start, .resume, .resume, .handed none, .resume, .resume, .handed none, .resume, .success 0 5,
    .resume, .handed none, .success 1 6, .success 2 7, .resume, .combined (.value 18)]

/-- A success, a failure and a start come late. Then the execution is cancelled twice, and started
again from inside the first hook. One watcher still passes its result on. -/
def tardy : List (ScatterGather.Move Nat) :=
  [.success 0 9, .failure 7 .unfinished, .start, .resume, .cancel, .resume, .start, .resume,
    .stopped, .resume, .stopped, .resume, .stopped, .cancel, .resolve 1 (.ok 4), .forward 1,
    .receive, .retire 0]

theorem inert_after_outcome_summed : ∃ (g : Fleet Nat) (e e' : Execution Nat)
    (events later : List (Event Nat)),
    Execution.sample.run summed = some (e, events) ∧ e.run tardy = some (e', later) ∧
      e'.state = .succeeded ∧ e'.face = e.face ∧ stops later = [0, 1, 2] ∧ merges later = [] ∧
      Enrolled g ∧ g.executions = [e] ∧
      g.run (tardy.map (.on 0)) = some ({ g with executions := [e'] }, label 0 later) := by
  obtain ⟨⟨g, es⟩, hrun⟩ : ∃ t, (Fleet.empty.add Execution.sample true).run
    (summed.map (.on 0)) = some t := ⟨_, rfl⟩
  have hg : Enrolled g := enrolled_of_trace (Trace.of_run hrun) enrolled_sample (by decide)
  obtain ⟨⟨e, events⟩, h, he⟩ : ∃ t, Execution.sample.run summed = some t ∧
      g.executions = [t.1] := by
    cases hrun
    exact ⟨_, rfl, rfl⟩
  obtain ⟨⟨e', later⟩, hd, hc, hr, hc', hs, hh⟩ : ∃ t, e.isCompleted = true ∧ e.calls = [] ∧
      e.run tardy = some t ∧ t.1.calls = [] ∧ t.1.state = .succeeded ∧ e.held = [0, 1, 2] := by
    cases h
    exact ⟨_, rfl, rfl, rfl, rfl, rfl, rfl⟩
  obtain ⟨_, _, _, hlate⟩ := inert_after_outcome h hd hc
  obtain ⟨hf, _, hm, _, _, hstops, hfleet, _⟩ := hlate tardy e' later hr
  have hset : g.executions.set 0 e' = [e'] := by
    rw [he]
    rfl
  refine ⟨g, e, e', events, later, h, hr, hs, hf, ?_, hm, hg, he, ?_⟩
  · rw [(hstops (by simp [tardy]) hc').1, hh]
  · rw [hfleet g 0 hg (by rw [he]; rfl), hset]

end ScatterGather.Fleet
