import ScatterGather.Execution.Work
import ScatterGather.Proofs.Execution.Quiescence

/-! What goes on after an outcome: tasks come to their end, and whatever is reported finds nothing
to change. -/
namespace ScatterGather

variable {V : Type}

/-- Whether a move is a step of a task. -/
def Move.isTask : Move V → Bool
  | .forward _ => true
  | .retire _ => true
  | .receive => true
  | .halt => true
  | _ => false

/-- Whether a move is between a handle, its watcher and the driver, and none on the window. -/
def Move.isTransport (m : Move V) : Bool :=
  match m with
  | .resolve _ _ => true
  | _ => m.isTask

theorem Move.isTransport_of_isTask {m : Move V} (h : m.isTask = true) : m.isTransport = true := by
  cases m with
  | forward | retire | receive | halt => rfl
  | start | cancel | success | failure | resume | handed | stopped | combined | resolve | abandon =>
    cases h

/-- Whether a call can be in progress after an outcome. -/
def Frame.isLate : Frame V → Bool
  | .fill => true
  | .stop _ => true
  | .stopping _ => true
  | _ => false

/-- Whether an event can come after an outcome. -/
def Event.isLate : Event V → Bool
  | .stopped _ => true
  | .deregistered => true
  | _ => false

namespace Execution

variable {e e' e₀ : Execution V} {m : Move V} {ms ns : List (Move V)}
  {events later : List (Event V)}

/-- How many tasks there are that have not ended. -/
def alive (e : Execution V) : Nat := e.watchers.length + if e.driver = .running then 1 else 0

theorem step_task_of_still (h : Still e) (hm : m.isTask = true) : e.step m = none := by
  cases m with
  | forward i => exact h.forward i
  | retire i => exact h.retire i
  | receive => exact h.receive
  | halt => exact h.halt
  | start | cancel | success | failure | resume | handed | stopped | combined | resolve | abandon =>
    cases hm

/-- A task that sees the outcome can end. -/
theorem exists_task_of_alive (hc : e.calls = []) (hd : e.isCompleted = true) (ha : e.alive ≠ 0) :
    ∃ m, m.isTask = true ∧ (e.step m).isSome = true := by
  cases hw : e.watchers with
  | nil =>
    have hr : e.driver = .running := by
      by_contra hr
      simp [alive, hw, hr] at ha
    exact ⟨.halt, rfl, by simp [step, hc, hr, hd]⟩
  | cons w ws =>
    have hf : e.watcher? w.index = some w := by simp [watcher?, hw]
    exact ⟨.retire w.index, rfl, by simp [step, hc, hf, hd]⟩

theorem step_driver_of_not_running (hr : e.driver ≠ .running) :
    e.step .receive = none ∧ e.step .halt = none := by
  cases hx : e.driver with
  | running => exact (hr hx).elim
  | idle | finished => cases hc : e.calls <;> simp [step, hc, hx]

theorem alive_eq_zero_iff (hc : e.calls = []) (hd : e.isCompleted = true) :
    e.alive = 0 ↔ Still e := by
  constructor
  · intro ha
    obtain ⟨hw, hr⟩ : e.watchers = [] ∧ e.driver ≠ .running := by simpa [alive] using ha
    have hf (i : Nat) : e.watcher? i = none := by simp [watcher?, hw]
    obtain ⟨hreceive, hhalt⟩ := step_driver_of_not_running hr
    refine ⟨hc, ?_, ?_, hreceive, hhalt⟩
    · intro i
      simp [step, hc, hf]
    · intro i
      simp [step, hc, hf]
  · intro h
    by_contra ha
    obtain ⟨m, hm, hs⟩ := exists_task_of_alive hc hd ha
    rw [step_task_of_still h hm] at hs
    cases hs

/-- Tasks use up what is left to do. -/
theorem work_task_lt (hm : m.isTask = true) (hs : e.step m = some (e', events)) :
    e'.work < e.work := by
  cases m with
  | forward i => exact work_forward_lt hs
  | retire i => exact work_retire_lt hs
  | receive =>
    have := work_receive_lt hs
    omega
  | halt => exact work_halt_lt hs
  | start | cancel | success | failure | resume | handed | stopped | combined | resolve | abandon =>
    cases hm

theorem length_add_work_le (h : Trace step e₀ ms e events) (hm : ∀ m ∈ ms, m.isTask = true) :
    ms.length + e.work ≤ e₀.work := by
  induction h with
  | refl => simp
  | snoc ht hs ih =>
    have := ih fun m hx => hm m (List.mem_append_left _ hx)
    have := work_task_lt (hm _ (by simp)) hs
    rw [List.length_append, List.length_singleton]
    omega

theorem complete_of_completed (i : Nat) (r : SubResult V) (hd : e.isCompleted = true) :
    e.complete i r = (e, []) := by
  cases r with
  | ok v => exact congrArg (·, []) (if_pos hd)
  | error error => exact if_pos hd

/-- What an execution shows of itself, and the results that it keeps. -/
def face (e : Execution V) :
    (ExecutionId × Query × List Query × Nat × Merger V) × (Nat × Nat) × List (Option V) ×
      ExecutionState × Option (Outcome V) :=
  (e.plan, e.counters, e.results, e.state, e.outcome)

theorem face_stopWith_of_completed (error : ShardingError) (hd : e.isCompleted = true) :
    (e.stopWith error).1.face = e.face := by
  obtain ⟨o, ho⟩ := Option.isSome_iff_exists.1 hd
  rw [stopWith_fst, face, face, if_pos hd, ho]
  rfl

/-- A run after an outcome. Before a cancellation it does nothing but fill the window in vain. A
cancellation takes out the hooks that are left, and they are called in order. -/
structure Late (e₀ : Execution V) (ns : List (Move V)) (e : Execution V)
    (later : List (Event V)) : Prop where
  face : e.face = e₀.face
  calls : ∀ f ∈ e.calls, f.isLate = true
  events : ∀ event ∈ later, event.isLate = true
  hooks : stops later ++ doomed e.calls ++ e.held = e₀.held
  calm : .cancel ∉ ns → later = [] ∧ ∀ f ∈ e.calls, f = .fill
  swept : .cancel ∈ ns → e.held = []

theorem late_refl (hc : e.calls = []) : Late e [] e [] where
  face := rfl
  calls := by simp [hc]
  events := by simp
  hooks := by simp [hc, stops, doomed]
  calm := by simp [hc]
  swept := by simp

/-- A step that calls no hook. -/
theorem Late.silent (h : Late e₀ ns e later) (hm : m ≠ .cancel) (hf : e'.face = e.face)
    (hs : e'.slots = e.slots) (hd : doomed e'.calls = doomed e.calls)
    (hc : ∀ f ∈ e'.calls, f ∈ e.calls ∨ f = .fill) :
    Late e₀ (ns ++ [m]) e' (later ++ []) := by
  have hh : e'.held = e.held := held_of_slots hs
  rw [List.append_nil]
  refine ⟨hf.trans h.face, ?_, h.events, by rw [hd, hh, h.hooks], ?_, ?_⟩
  · intro f hx
    rcases hc f hx with hx | rfl
    · exact h.calls f hx
    · rfl
  · intro hn
    obtain ⟨hl, hfill⟩ := h.calm fun hx => hn (List.mem_append_left _ hx)
    refine ⟨hl, fun f hx => ?_⟩
    rcases hc f hx with hx | rfl
    · exact hfill f hx
    · rfl
  · intro hx
    rw [hh]
    apply h.swept
    rcases List.mem_append.1 hx with hx | hx
    · exact hx
    · exact (hm (List.mem_singleton.1 hx).symm).elim

theorem Late.silent_same (h : Late e₀ ns e later) (hm : m ≠ .cancel) (hf : e'.face = e.face)
    (hs : e'.slots = e.slots) (hc : e'.calls = e.calls) :
    Late e₀ (ns ++ [m]) e' (later ++ []) :=
  h.silent hm hf hs (by rw [hc]) fun _ hx => .inl (hc ▸ hx)

theorem Late.silent_pop {f : Frame V} {s : List (Frame V)} (h : Late e₀ ns e later)
    (hm : m ≠ .cancel) (hc : e.calls = f :: s) (hf : f.stop? = none) :
    Late e₀ (ns ++ [m]) e.pop (later ++ []) := by
  refine h.silent hm rfl rfl (filterMap_calls_pop hc hf) fun f hx => .inl ?_
  rw [calls_pop hc] at hx
  exact hc ▸ List.mem_cons_of_mem _ hx

theorem cancel_snd_of_completed (hd : e.isCompleted = true) : e.cancel.2 = [.deregistered] := by
  rw [cancel, stopWith_snd, deliver_snd, if_pos hd]
  rfl

theorem late_cancel (h : Late e₀ ns e later) (hd : e.isCompleted = true) :
    Late e₀ (ns ++ [.cancel]) e.cancel.1 (later ++ e.cancel.2) := by
  have he := cancel_snd_of_completed hd
  have hc : e.cancel.1.calls = e.held.map .stop ++ e.calls := by rw [cancel, stopWith_fst]
  have hh : e.cancel.1.held = [] := held_stopWith ..
  have hdm : doomed e.cancel.1.calls = e.held ++ doomed e.calls := by
    rw [doomed, cancel, filterMap_calls_stopWith]
    simp [Frame.stop?, doomed]
  refine ⟨(face_stopWith_of_completed _ hd).trans h.face, ?_, ?_, ?_, ?_, fun _ => hh⟩
  · rw [hc]
    exact List.forall_mem_append.2 ⟨List.forall_mem_map.2 fun _ _ => rfl, h.calls⟩
  · rw [he]
    exact List.forall_mem_append.2 ⟨h.events, List.forall_mem_singleton.2 rfl⟩
  · have hold := h.hooks
    have hone : e.held = [] ∨ doomed e.calls = [] := by
      by_cases hx : .cancel ∈ ns
      · exact .inl (h.swept hx)
      · exact .inr (List.filterMap_eq_nil_iff.2 fun f hf => by rw [(h.calm hx).2 f hf]; rfl)
    rw [hh, hdm, he, stops_append, ← hold]
    rcases hone with hn | hn <;> simp [hn, stops, Event.stopped?]
  · intro hn
    simp at hn

theorem late_stop {i : Nat} {s : List (Frame V)} (h : Late e₀ ns e later)
    (hc : e.calls = .stop i :: s) :
    Late e₀ (ns ++ [.resume]) { e with calls := .stopping i :: s } (later ++ [.stopped i]) := by
  have hmem : Frame.stop i ∈ e.calls := hc ▸ List.mem_cons_self ..
  have hcancel : .cancel ∈ ns := by
    by_contra hn
    cases (h.calm hn).2 _ hmem
  refine ⟨h.face, ?_, ?_, ?_, ?_, fun _ => h.swept hcancel⟩
  · refine List.forall_mem_cons.2 ⟨rfl, fun f hx => ?_⟩
    exact h.calls f (hc ▸ List.mem_cons_of_mem _ hx)
  · exact List.forall_mem_append.2 ⟨h.events, List.forall_mem_singleton.2 rfl⟩
  · have hold := h.hooks
    rw [hc] at hold
    rw [stops_append, ← hold]
    change stops later ++ [i] ++ doomed s ++ e.held = stops later ++ (i :: doomed s) ++ e.held
    simp
  · intro hn
    exact (hn (List.mem_append_left _ hcancel)).elim

theorem late_step (h : Late e₀ ns e later) (hd : e.isCompleted = true)
    (hs : e.step m = some (e', events)) : Late e₀ (ns ++ [m]) e' (later ++ events) := by
  have never {f : Frame V} {s : List (Frame V)} (hc : e.calls = f :: s) : f.isLate = true :=
    h.calls f (hc ▸ List.mem_cons_self ..)
  by_cases hm : m = .cancel
  · subst m
    cases transition_of_step hs with
    | cancel hy => exact late_cancel h hd
  · cases transition_of_step hs with
    | cancel hy => exact (hm rfl).elim
    | start hy =>
      refine h.silent hm rfl rfl rfl fun f hx => ?_
      exact (List.mem_cons.1 hx).symm
    | success hy =>
      rw [succeed, if_pos hd]
      exact h.silent_same hm rfl rfl rfl
    | failure hy =>
      rw [fail, if_pos hd]
      exact h.silent_same hm rfl rfl rfl
    | fill hc =>
      rw [fillNext, if_pos hd]
      exact h.silent_pop hm hc rfl
    | stop hc => exact late_stop h hc
    | stopped hc => exact h.silent_pop hm hc rfl
    | skip hc | launch hc | combine hc | handed hc | combined hc => cases never hc
    | @receive i r rest hc hr hi =>
      rw [complete_of_completed (e := { e with inbox := rest }) i r hd]
      exact h.silent_same hm rfl rfl rfl
    | resolve | abandon | forward | retire | halt => exact h.silent_same hm rfl rfl rfl

theorem late_of_trace (h : Trace step e₀ ns e later) (hc : e₀.calls = [])
    (hd : e₀.isCompleted = true) : Late e₀ ns e later := by
  induction h with
  | refl => exact late_refl hc
  | snoc ht hs ih => exact late_step ih (isCompleted_of_trace ht hd) hs

/-- The calls of collaborators that an event stands for, but for the cancel hooks. -/
theorem Late.filterMap_events {α : Type} {φ : Event V → Option α} (h : Late e₀ ns e later)
    (hs : ∀ i, φ (.stopped i) = none) (hr : φ .deregistered = none) : later.filterMap φ = [] := by
  rw [List.filterMap_eq_nil_iff]
  intro event hx
  have hl := h.events event hx
  cases event with
  | stopped i => exact hs i
  | deregistered => exact hr
  | dispatched | merged | delivered => cases hl

/-- A cancellation that has returned has called the hooks that were left. -/
theorem Late.stops_eq (h : Late e₀ ns e later) (hx : .cancel ∈ ns) (hc : e.calls = []) :
    stops later = e₀.held := by
  have hk := h.hooks
  rw [h.swept hx, hc] at hk
  simpa [doomed] using hk

/-- Hooks that just return are called one after the other. -/
theorem run_stops (e : Execution V) (is : List Nat) (s : List (Frame V)) :
    ({ e with calls := is.map .stop ++ s } : Execution V).run
        (is.flatMap fun _ => [.resume, .stopped]) =
      some ({ e with calls := s }, is.map .stopped) := by
  induction is with
  | nil => rfl
  | cons i is ih =>
    have hs : ({ e with calls := .stopping i :: (is.map .stop ++ s) } : Execution V).step .stopped =
        some ({ e with calls := is.map .stop ++ s }, []) := rfl
    refine run_cons_eq_some.2 ⟨{ e with calls := .stopping i :: (is.map .stop ++ s) },
      [.stopped i], is.map .stopped, rfl, ?_, rfl⟩
    exact run_cons_eq_some.2 ⟨_, [], _, hs, ih, rfl⟩

/-- A late cancellation can return, with each hook that is left called once. -/
theorem run_cancel (hc : e.calls = []) (hd : e.isCompleted = true) :
    e.run (.cancel :: e.held.flatMap fun _ => [.resume, .stopped]) =
      some ({ e.cancel.1 with calls := [] }, .deregistered :: e.held.map .stopped) := by
  have hs : e.step .cancel = some e.cancel := by simp [step, yields, hc]
  have hr := run_stops e.cancel.1 e.held []
  have hcalls : e.cancel.1.calls = e.held.map .stop ++ [] := by rw [cancel, stopWith_fst, hc]
  have he := cancel_snd_of_completed hd
  rw [← hcalls] at hr
  exact run_cons_eq_some.2 ⟨e.cancel.1, e.cancel.2, _, hs, hr, by rw [he]; rfl⟩

/-- Only a cancellation asks for the outcome of one. -/
theorem eq_cancel_of_trigger {order : UInt32} {reason : CancelReason}
    (h : e.trigger? m = some (.error (.cancelled order reason))) : m = .cancel := by
  cases m with
  | cancel => rfl
  | combined result => cases result <;> cases h
  | receive =>
    simp only [trigger?] at h
    split at h <;> cases h
  | start | success | failure | resume | handed | stopped | resolve | abandon | forward | retire
    | halt => cases h

theorem cancel_mem_of_cancelled (h : Trace step e₀ ms e events) (h₀ : e₀.outcome = none)
    {order : UInt32} {reason : CancelReason}
    (ho : e.outcome = some (.error (.cancelled order reason))) : .cancel ∈ ms := by
  induction h with
  | refl =>
    rw [h₀] at ho
    cases ho
  | snoc ht hs ih =>
    rw [(delivers_step hs).1, Option.or_eq_some_iff] at ho
    rcases ho with ho | ⟨_, ho⟩
    · exact List.mem_append_left _ (ih ho)
    · rw [eq_cancel_of_trigger ho]
      simp

/-- Whether the outcome is a cancellation, or the failure of a sub query. -/
def Halted (e : Execution V) : Prop :=
  (∃ order reason, e.outcome = some (.error (.cancelled order reason))) ∨
    ∃ i order error, e.outcome = some (.error (.subQuery i order error))

theorem held_of_halted (h : Trace step e₀ ms e events) (h₀ : e₀.outcome = none) (hx : Halted e) :
    e.held = [] := by
  apply (swept_of_trace h h₀ _).2
  rcases hx with ⟨order, reason, ho⟩ | ho
  · exact .inl (cancel_mem_of_cancelled h h₀ ho)
  · exact .inr ho

/-- Between calls, the hook of each handle has been called or is left. -/
theorem stops_append_held_perm (h : Trace step e₀ ms e events) (h₀ : Lined e₀ [])
    (hk : Hooked e₀ [] [] []) (hc : e.calls = []) :
    (stops events ++ e.held).Perm (along step handle? e₀ ms) := by
  rw [List.perm_iff_count]
  intro i
  have hi := (hooked_of_trace h h₀ hk).hooks i
  rw [hc] at hi
  rw [List.count_append, hi, Nat.add_comm]
  rfl

/-- An execution without its tasks and what is on its way to them. -/
def core (e : Execution V) : Execution V := { e with driver := .idle, inbox := [], watchers := [] }

/-- What is left of a step without them. -/
def coreTurn (t : Turn V) : Turn V := (t.1.core, t.2)

theorem core_transport (hd : e.isCompleted = true) (hm : m.isTransport = true)
    (hs : e.step m = some (e', events)) : e'.core = e.core ∧ events = [] := by
  cases transition_of_step hs with
  | resolve | forward | retire | halt => exact ⟨rfl, rfl⟩
  | @receive i r rest hc hr hi =>
    rw [complete_of_completed (e := { e with inbox := rest }) i r hd]
    exact ⟨rfl, rfl⟩
  | start | cancel | success | failure | fill | skip | launch | combine | stop | handed | stopped
    | combined | abandon => cases hm

/-- Other moves go the same way, whatever the tasks have done. -/
theorem core_step (hd : e.isCompleted = true) (hm : m.isTransport = false) :
    (e.core.step m).map coreTurn = (e.step m).map coreTurn := by
  have hd' : e.core.isCompleted = true := hd
  have hy : e.core.yields = e.yields := rfl
  have hc : e.core.calls = e.calls := rfl
  cases m with
  | start | abandon =>
    simp only [step, hy]
    split <;> rfl
  | cancel =>
    simp only [step, hy]
    split
    · simp only [cancel, Option.map_some, coreTurn, stopWith_fst, stopWith_snd, deliver_snd]
      rfl
    · rfl
  | success i v =>
    simp only [step, hy, succeed, if_pos hd, if_pos hd']
    split <;> rfl
  | failure i error =>
    simp only [step, hy, fail, if_pos hd, if_pos hd']
    split <;> rfl
  | resume =>
    simp only [step, resume, hc]
    split
    · simp only [fillNext, if_pos hd, if_pos hd']
      rfl
    · simp only [if_pos hd, if_pos hd']
      rfl
    · rfl
    · rfl
    · rfl
  | handed r =>
    simp only [step, hc]
    split
    · simp only [attach_eq, if_pos hd, if_pos hd']
      rfl
    · rfl
  | stopped =>
    simp only [step, hc]
    split <;> rfl
  | combined result =>
    simp only [step, hc]
    split
    · simp only [Option.map_some, coreTurn, deliver_fst, deliver_snd]
      rfl
    · rfl
  | resolve | forward | retire | receive | halt => cases hm

theorem exists_step_of_core {e₁ : Execution V} (h : e₁.core = e.core) (hd : e.isCompleted = true)
    (hm : m.isTransport = false) (hs : e.step m = some (e', events)) :
    ∃ e₂, e₁.step m = some (e₂, events) ∧ e₂.core = e'.core := by
  have hd₁ : e₁.isCompleted = true := (congrArg isCompleted h).trans hd
  have hsame : (e₁.step m).map coreTurn = (e.step m).map coreTurn :=
    (core_step hd₁ hm).symm.trans (h ▸ core_step hd hm)
  rw [hs] at hsame
  obtain ⟨⟨e₂, events₂⟩, hs₂, ht⟩ := Option.map_eq_some_iff.1 hsame
  obtain ⟨hc, rfl⟩ := Prod.mk.inj ht
  exact ⟨e₂, hs₂, hc⟩

/-- After an outcome, a run goes the same way without the moves of tasks and handles. -/
theorem core_of_trace (h : Trace step e₀ ns e later) (hd : e₀.isCompleted = true) :
    ∃ e₁, e₀.core.run (ns.filter fun m => !m.isTransport) = some (e₁, later) ∧
      e₁.core = e.core := by
  induction h with
  | refl => exact ⟨e₀.core, rfl, rfl⟩
  | @snoc ns e es m e' es' ht hs ih =>
    obtain ⟨e₁, hr, hc⟩ := ih
    have hd₁ := isCompleted_of_trace ht hd
    rw [List.filter_append]
    cases hm : m.isTransport with
    | true =>
      obtain ⟨hc', rfl⟩ := core_transport hd₁ hm hs
      exact ⟨e₁, by simpa [hm] using hr, hc.trans hc'.symm⟩
    | false =>
      obtain ⟨e₂, hs₂, hc₂⟩ := exists_step_of_core hc hd₁ hm hs
      refine ⟨e₂, ?_, hc₂⟩
      rw [List.filter_cons_of_pos (by simp [hm])]
      exact run_append_eq_some.2 ⟨e₁, es, es', hr, run_singleton_eq_some.2 hs₂, rfl⟩

/-- It makes no difference what tasks and handles do in between. -/
theorem same_of_core (h : Trace step e₀ ms e events) (hn : Trace step e₀ ns e' later)
    (hd : e₀.isCompleted = true)
    (hm : ms.filter (fun m => !m.isTransport) = ns.filter fun m => !m.isTransport) :
    events = later ∧ e.core = e'.core := by
  obtain ⟨e₁, hr₁, hc₁⟩ := core_of_trace h hd
  obtain ⟨e₂, hr₂, hc₂⟩ := core_of_trace hn hd
  rw [hm, hr₂, Option.some.injEq, Prod.mk.injEq] at hr₁
  obtain ⟨rfl, rfl⟩ := hr₁
  exact ⟨rfl, hc₁.symm.trans hc₂⟩

/-- Tasks leave no calls behind, and nothing happens outside. -/
theorem quiet_of_tasks (h : Trace step e₀ ms e events) (hd : e₀.isCompleted = true)
    (hm : ∀ m ∈ ms, m.isTask = true) : events = [] ∧ e.core = e₀.core := by
  have hnone : ms.filter (fun m => !m.isTransport) = [] := by
    rw [List.filter_eq_nil_iff]
    intro m hx
    simp [Move.isTransport_of_isTask (hm m hx)]
  exact same_of_core h .refl hd hnone

end Execution
end ScatterGather
