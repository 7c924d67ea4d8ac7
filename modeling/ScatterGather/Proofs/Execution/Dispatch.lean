import ScatterGather.Proofs.Execution.Outcome

/-! Sub queries are reserved and dispatched in order, each once. -/
namespace ScatterGather

variable {V : Type}

def Frame.launch? : Frame V → Option Nat
  | .launch i => some i
  | _ => none

/-- The sub queries that are reserved and not passed on yet. -/
def launches (fs : List (Frame V)) : List Nat := fs.filterMap Frame.launch?

@[simp] theorem launches_append (fs gs : List (Frame V)) :
    launches (fs ++ gs) = launches fs ++ launches gs := List.filterMap_append

@[simp] theorem launches_stops (is : List Nat) :
    launches (is.map (Frame.stop (V := V))) = [] := by
  simp [launches, Frame.launch?]

namespace Execution

variable {e e' e₀ : Execution V} {m : Move V} {ms : List (Move V)} {events : List (Event V)}
  {launched : List Nat}

/-- The dispatched sub queries are the first ones. One that is reserved is passed on at once,
before anything else happens. -/
structure Lined (e : Execution V) (launched : List Nat) : Prop where
  dispatched : launched ++ launches e.calls = List.range e.dispatched
  top : launches e.calls = [] ∨
    ∃ i s, e.calls = .launch i :: s ∧ launches s = [] ∧ e.isCompleted = false
  next : e.nextIndex = e.dispatched ∨ e.nextIndex = e.total ∧ e.isCompleted = true
  le_total : e.dispatched ≤ e.total

theorem lined_new (id : ExecutionId) (q : Query) (subs : List Query) (w : Nat)
    (merger : Merger V) : Lined (new id q subs w merger) [] where
  dispatched := rfl
  top := .inl rfl
  next := .inl rfl
  le_total := Nat.zero_le _

theorem launches_of_head (h : Lined e launched)
    (hc : e.calls.head?.bind Frame.launch? = none) : launches e.calls = [] := by
  rcases h.top with ht | ⟨i, s, hs, _⟩
  · exact ht
  · simp [hs, Frame.launch?] at hc

theorem nextIndex_of_open (h : Lined e launched) (hd : e.isCompleted = false) :
    e.nextIndex = e.dispatched := by
  rcases h.next with hn | ⟨_, hx⟩
  · exact hn
  · rw [hd] at hx
    cases hx

theorem launches_of_yields (h : Lined e launched) (hy : e.yields = true) :
    launches e.calls = [] := by
  rcases h.top with ht | ⟨i, s, hc, _⟩
  · exact ht
  · simp [yields, hc] at hy

/-- Between dispatches only the window, its end and the outcome matter. -/
theorem Lined.of_quiet (h : Lined e launched) (hq : launches e.calls = [])
    (hq' : launches e'.calls = []) (hd : e'.dispatched = e.dispatched)
    (ht : e'.total = e.total) (hc : e.isCompleted = true → e'.isCompleted = true)
    (hn : e'.nextIndex = e.nextIndex ∨ e'.nextIndex = e.total ∧ e'.isCompleted = true) :
    Lined e' launched where
  dispatched := by
    have := h.dispatched
    rw [hq] at this
    rw [hq', hd, this]
  top := .inl hq'
  next := by
    rcases hn with hn | ⟨hn, hx⟩
    · rcases h.next with hx | ⟨hx, hy⟩
      · exact .inl (by omega)
      · exact .inr ⟨by omega, hc hy⟩
    · exact .inr ⟨by omega, hx⟩
  le_total := by
    have := h.le_total
    omega

theorem lined_reserve (h : Lined e launched) (hq : launches e.calls = [])
    (hd : e.isCompleted = false) (hlt : e.nextIndex < e.total) :
    Lined (e.reserve.push [.launch e.nextIndex]) launched := by
  have hn := nextIndex_of_open h hd
  have hr := h.dispatched
  rw [hq, List.append_nil] at hr
  constructor
  · change launched ++ launches (.launch e.nextIndex :: e.calls) = List.range (e.dispatched + 1)
    rw [List.range_succ, ← hr, ← hn]
    change launched ++ (e.nextIndex :: launches e.calls) = _
    rw [hq]
  · exact .inr ⟨e.nextIndex, e.calls, rfl, hq, hd⟩
  · exact .inl (congrArg (· + 1) hn)
  · change e.dispatched + 1 ≤ e.total
    omega

theorem lined_refill (h : Lined e launched) (hq : launches e.calls = [])
    (hd : e.isCompleted = false) : Lined e.refill launched := by
  rcases refill_cases e with ⟨hlt, hr⟩ | ⟨_, hr⟩
  · rw [hr]
    exact lined_reserve h hq hd hlt
  · rwa [hr]

theorem launches_collect (e : Execution V) : launches e.collect.calls = launches e.calls :=
  filterMap_calls_collect (fun _ => rfl) e

theorem lined_collect (h : Lined e launched) (hq : launches e.calls = []) :
    Lined e.collect launched := by
  rcases collect_cases e with ⟨_, hc⟩ | ⟨_, hc⟩
  · rw [hc]
    exact h.of_quiet hq hq rfl rfl (fun hd => hd) (.inl rfl)
  · rwa [hc]

theorem lined_succeed (i : Nat) (v : V) (h : Lined e launched) (hq : launches e.calls = []) :
    Lined (e.succeed i v) launched := by
  rcases succeed_cases i v e with hs | ⟨hd, _, hs⟩
  · rwa [hs]
  · rw [hs]
    have hr : Lined (e.record i v) launched := h.of_quiet hq hq rfl rfl (fun hd => hd) (.inl rfl)
    apply lined_refill (lined_collect hr hq)
    · rw [launches_collect]
      exact hq
    · rw [collect_frame]
      exact hd

theorem lined_stopWith (error : ShardingError) (h : Lined e launched)
    (hq : launches e.calls = []) : Lined (e.stopWith error).1 launched := by
  rw [stopWith_fst]
  apply h.of_quiet hq
  · simpa using hq
  · rfl
  · rfl
  · intro _
    rfl
  · exact .inr ⟨rfl, rfl⟩

theorem lined_fail (i : Nat) (error : QueryError) (h : Lined e launched)
    (hq : launches e.calls = []) : Lined (e.fail i error).1 launched := by
  rcases fail_cases i error e with ⟨_, hs⟩ | ⟨_, hs⟩
  · rwa [hs]
  · rw [hs]
    exact lined_stopWith _ h hq

theorem lined_complete (i : Nat) (r : SubResult V) (h : Lined e launched)
    (hq : launches e.calls = []) : Lined (e.complete i r).1 launched := by
  cases r with
  | ok v => exact lined_succeed i v h hq
  | error error => exact lined_fail i error h hq

theorem lined_fillNext {s : List (Frame V)} (h : Lined e launched) (hc : e.calls = .fill :: s)
    (hq : launches e.calls = []) : Lined e.fillNext launched := by
  have hs : launches e.pop.calls = [] := by
    rw [hc] at hq
    rwa [pop, hc]
  rcases fillNext_cases e with ⟨_, hn⟩ | ⟨hd, hlt, hn⟩ | ⟨_, _, hn⟩
  · rw [hn]
    exact h.of_quiet hq hs rfl rfl (fun hd => hd) (.inl rfl)
  · rw [hn]
    exact lined_reserve h hq hd (by omega)
  · rw [hn]
    exact h.of_quiet hq hs rfl rfl (fun hd => hd) (.inl rfl)

theorem lined_attach {s : List (Frame V)} {i : Nat} (r : Option (SubResult V))
    (h : Lined e launched) (hc : e.calls = .dispatching i :: s) (hq : launches e.calls = []) :
    Lined (e.attach i r) launched := by
  have hl := filterMap_calls_attach (φ := Frame.launch?) (fun _ => rfl) (fun _ => rfl) r hc
  rw [attach_eq] at hl ⊢
  exact h.of_quiet hq (hl.trans hq) rfl rfl (fun hd => hd) (.inl rfl)

theorem lined_deliver (o : Outcome V) (h : Lined e launched) (hq : launches e.calls = []) :
    Lined (e.deliver o).1 launched := by
  rw [deliver_fst]
  exact h.of_quiet hq hq rfl rfl (fun _ => rfl) (.inl rfl)

theorem dispatches_deliver (o : Outcome V) (e : Execution V) :
    dispatches (e.deliver o).2 = [] :=
  filterMap_events_deliver (fun _ => rfl) o e

theorem dispatches_stopWith (error : ShardingError) (e : Execution V) :
    dispatches (e.stopWith error).2 = [] :=
  filterMap_events_stopWith (fun _ => rfl) rfl error e

theorem dispatches_complete (i : Nat) (r : SubResult V) (e : Execution V) :
    dispatches (e.complete i r).2 = [] :=
  filterMap_events_complete (fun _ => rfl) rfl i r e

/-- A step without a dispatch. -/
theorem Lined.silent (h : Lined e launched) (hd : dispatches events = []) :
    Lined e (launched ++ dispatches events) := by
  rwa [hd, List.append_nil]

theorem lined_launch {i : Nat} {s : List (Frame V)} (h : Lined e launched)
    (hc : e.calls = .launch i :: s) :
    Lined { e with calls := .dispatching i :: s } (launched ++ [i]) := by
  have hr := h.dispatched
  rcases h.top with ht | ⟨j, s', hc', hs', _⟩
  · simp [hc, launches, Frame.launch?] at ht
  · obtain ⟨rfl, rfl⟩ : i = j ∧ s = s' := by simpa [hc] using hc'
    have hl : launches e.calls = [i] := by
      rw [hc]
      change i :: launches s = [i]
      rw [hs']
    refine ⟨?_, .inl hs', h.next, h.le_total⟩
    rw [← hr, hl]
    change (launched ++ [i]) ++ launches s = _
    rw [hs', List.append_nil]

theorem lined_step (h : Lined e launched) (hs : e.step m = some (e', events)) :
    Lined e' (launched ++ dispatches events) := by
  have hy := launches_of_yields h
  have hh := launches_of_head h
  cases transition_of_step hs with
  | launch hc hd => exact lined_launch h hc
  | skip hc hd =>
    rcases h.top with ht | ⟨_, _, _, _, hd'⟩
    · simp [hc, launches, Frame.launch?] at ht
    · simp [hd] at hd'
  | cancel hw => exact (lined_stopWith _ h (hy hw)).silent (dispatches_stopWith ..)
  | success hw => exact (lined_succeed _ _ h (hy hw)).silent rfl
  | @failure i error hw =>
    exact (lined_fail i error h (hy hw)).silent (dispatches_complete i (.error error) e)
  | fill hc => exact (lined_fillNext h hc (hh (by rw [hc]; rfl))).silent rfl
  | handed hc => exact (lined_attach _ h hc (hh (by rw [hc]; rfl))).silent rfl
  | combined hc =>
    have hq := hh (by rw [hc]; rfl)
    have hp : launches e.pop.calls = [] := by
      rw [hc] at hq
      rwa [pop, hc]
    have he : Lined e.pop launched := h.of_quiet hq hp rfl rfl (fun hd => hd) (.inl rfl)
    exact (lined_deliver _ he hp).silent (dispatches_deliver ..)
  | @receive i r rest hc hr hi =>
    have hq := hh (by rw [hc]; rfl)
    have he : Lined { e with inbox := rest } launched :=
      h.of_quiet hq hq rfl rfl (fun hd => hd) (.inl rfl)
    exact (lined_complete i r he hq).silent (dispatches_complete ..)
  | start hw =>
    refine Lined.silent (h.of_quiet (hy hw) ?_ rfl rfl (fun hd => hd) (.inl rfl)) rfl
    exact hy hw
  | combine hc | stop hc =>
    have hq := hh (by rw [hc]; rfl)
    refine Lined.silent (h.of_quiet hq ?_ rfl rfl (fun hd => hd) (.inl rfl)) rfl
    rw [hc] at hq
    exact hq
  | stopped hc =>
    have hq := hh (by rw [hc]; rfl)
    refine Lined.silent (h.of_quiet hq ?_ rfl rfl (fun hd => hd) (.inl rfl)) rfl
    rw [hc] at hq
    rwa [pop, hc]
  | resolve hw | abandon hw =>
    exact Lined.silent (h.of_quiet (hy hw) (hy hw) rfl rfl (fun hd => hd) (.inl rfl)) rfl
  | forward hc | retire hc | halt hc =>
    have hq := hh (by rw [hc]; rfl)
    exact Lined.silent (h.of_quiet hq hq rfl rfl (fun hd => hd) (.inl rfl)) rfl

theorem lined_of_trace (h : Trace step e₀ ms e events) (h₀ : Lined e₀ []) :
    Lined e (dispatches events) := by
  induction h with
  | refl => exact h₀
  | snoc _ hs ih =>
    rw [dispatches_append]
    exact lined_step ih hs

theorem dispatches_nodup (h : Lined e launched) : launched.Nodup := by
  have hr : (launched ++ launches e.calls).Nodup := h.dispatched ▸ List.nodup_range
  exact (List.nodup_append.1 hr).1

theorem lt_total_of_mem (h : Lined e launched) {i : Nat} (hi : i ∈ launched) : i < e.total := by
  have hr : i ∈ List.range e.dispatched := h.dispatched ▸ List.mem_append_left _ hi
  exact Nat.lt_of_lt_of_le (List.mem_range.1 hr) h.le_total

/-- The sub queries of a split that were passed to the downstream executor, in order. -/
def passed (subs : List Query) (events : List (Event V)) : List Query :=
  (dispatches events).filterMap fun i => subs[i]?

theorem filterMap_range_getElem? {α : Type} (l : List α) {n : Nat} (h : n ≤ l.length) :
    (List.range n).filterMap (fun i => l[i]?) = l.take n := by
  induction n with
  | zero => rfl
  | succ n ih =>
    have hn : n < l.length := h
    rw [List.range_succ, List.filterMap_append, ih (Nat.le_of_lt hn), List.take_add_one,
      List.getElem?_eq_getElem hn, Option.toList_some]
    simp [hn]

/-- A list that starts an initial segment of the numbers is one itself. -/
theorem eq_range_of_append {l l' : List Nat} {n : Nat} (h : l ++ l' = List.range n) :
    l = List.range l.length := by
  have ht : l = (List.range n).take l.length := by rw [← h, List.take_left]
  have hle : l.length ≤ n := by
    have := congrArg List.length h
    simp at this
    omega
  rwa [List.take_range, Nat.min_eq_left hle] at ht

/-- Only an execution without an outcome passes a sub query on, and nobody asks it to. -/
theorem dispatches_step (hs : e.step m = some (e', events)) :
    dispatches events = [] ∨ m = .resume ∧ e.isCompleted = false := by
  cases transition_of_step hs with
  | launch hc hd => exact .inr ⟨rfl, hd⟩
  | cancel hy => exact .inl (dispatches_stopWith ..)
  | @failure i error hy => exact .inl (dispatches_complete i (.error error) e)
  | combined hc => exact .inl (dispatches_deliver ..)
  | receive hc hr hi => exact .inl (dispatches_complete ..)
  | start | success | fill | skip | combine | stop | handed | stopped | resolve | abandon | forward
    | retire | halt => exact .inl rfl

theorem dispatches_step_of_completed (hs : e.step m = some (e', events))
    (hd : e.isCompleted = true) : dispatches events = [] := by
  rcases dispatches_step hs with hn | ⟨_, hx⟩
  · exact hn
  · simp [hd] at hx

/-- Nothing is passed on once there is an outcome. -/
theorem dispatches_eq_nil_of_completed {later : List (Event V)} (h : Trace step e ms e' later)
    (hd : e.isCompleted = true) : dispatches later = [] := by
  induction h with
  | refl => rfl
  | snoc ht hs ih =>
    rw [dispatches_append, ih, dispatches_step_of_completed hs (isCompleted_of_trace ht hd)]
    rfl

/-- A move that asks for an outcome passes nothing on, and leaves an outcome. -/
theorem dispatches_step_of_trigger {o : Outcome V} (hs : e.step m = some (e', events))
    (ho : e.trigger? m = some o) : dispatches events = [] ∧ e'.isCompleted = true := by
  constructor
  · rcases dispatches_step hs with hn | ⟨rfl, _⟩
    · exact hn
    · cases ho
  · rw [isCompleted, (delivers_step hs).1, ho]
    cases e.outcome <;> rfl

/-- At every point of a run the sub queries passed on are the first ones of the split, in order and
each once. Whoever can look at the execution sees how many there are. None is passed on after an
outcome, nor from the moment on in which one is asked for. -/
theorem dispatches_in_order {id : ExecutionId} {q : Query} {subs : List Query} {w : Nat}
    {merger : Merger V} (h : (new id q subs w merger).run ms = some (e, events)) :
    dispatches events = List.range (dispatches events).length ∧
      passed subs events = subs.take (dispatches events).length ∧
      (e.yields = true → (dispatches events).length = e.dispatched) ∧
      e.dispatched ≤ subs.length ∧
      ∀ m ns e' later, e.run (m :: ns) = some (e', later) →
        e.isCompleted = true ∨ (e.trigger? m).isSome = true → dispatches later = [] := by
  have ht := Trace.of_run h
  have hl := lined_of_trace ht (lined_new id q subs w merger)
  have hle : e.dispatched ≤ subs.length := (total_of_plan (plan_of_trace ht)).subst hl.le_total
  have hrange := eq_range_of_append hl.dispatched
  have hlen : (dispatches events).length + (launches e.calls).length = e.dispatched := by
    rw [← List.length_append, hl.dispatched, List.length_range]
  refine ⟨hrange, ?_, ?_, hle, ?_⟩
  · rw [passed, hrange, filterMap_range_getElem? subs (by omega), List.length_range]
  · intro hy
    rw [launches_of_yields hl hy] at hlen
    exact hlen
  · intro m ns e' later hr hx
    obtain ⟨e₁, es₁, es₂, hs, hn, rfl⟩ := run_cons_eq_some.1 hr
    have hboth : dispatches es₁ = [] ∧ e₁.isCompleted = true := by
      rcases hx with hd | ho
      · exact ⟨dispatches_step_of_completed hs hd, isCompleted_step hs hd⟩
      · obtain ⟨o, ho⟩ := Option.isSome_iff_exists.1 ho
        exact dispatches_step_of_trigger hs ho
    obtain ⟨hnone, hd⟩ := hboth
    rw [dispatches_append, hnone, dispatches_eq_nil_of_completed (Trace.of_run hn) hd]
    rfl

/-- The second dispatch is under way when the execution is cancelled. Starting it again from the
first cancel hook, and a success for the sub query that is left, pass nothing on. -/
theorem dispatches_in_order_cancelled : ∃ e e' events later,
    sample.run [.start, .resume, .resume, .handed none, .resume, .resume] = some (e, events) ∧
      e.run [.cancel, .resume, .start, .resume, .success 2 9] = some (e', later) ∧
      dispatches events = [0, 1] ∧ e.dispatched = 2 ∧ dispatches later = [] := by
  obtain ⟨⟨e, events⟩, h⟩ : ∃ t,
    sample.run [.start, .resume, .resume, .handed none, .resume, .resume] = some t := ⟨_, rfl⟩
  obtain ⟨⟨e', later⟩, hy, hr⟩ : ∃ t, e.yields = true ∧
      e.run [.cancel, .resume, .start, .resume, .success 2 9] = some t := by
    cases h
    exact ⟨_, rfl, rfl⟩
  obtain ⟨hrange, _, hlen, _, hnone⟩ := dispatches_in_order h
  have hd : e.dispatched = 2 := by
    cases h
    rfl
  refine ⟨e, e', events, later, h, hr, ?_, hd, hnone _ _ e' later hr (.inr rfl)⟩
  rw [hrange, hlen hy, hd]
  rfl

end Execution
end ScatterGather
