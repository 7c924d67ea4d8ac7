import Mathlib.Data.List.Nodup
import ScatterGather.Proofs.Execution.Pipeline

/-! The window: no more sub queries wait for their success than there are places. -/
namespace ScatterGather.Execution

variable {V : Type} {e e' e₀ : Execution V} {m : Move V} {ms : List (Move V)}
  {events : List (Event V)} {launched : List Nat}

/-- The sub query whose success a move applies. -/
def accepted? (e : Execution V) (m : Move V) : Option Nat :=
  match e.report? m with
  | some (i, .ok _) => if e.isCompleted = false ∧ e.lacks i = true then some i else none
  | _ => none

/-- The sub queries that were passed on, and whose success was not applied. -/
def unanswered (e₀ : Execution V) (ms : List (Move V)) (events : List (Event V)) : List Nat :=
  (dispatches events).filter fun i => i ∉ along step accepted? e₀ ms

/-- How many sub queries were reserved, and how many have succeeded. -/
def counters (e : Execution V) : Nat × Nat := (e.dispatched, e.succeeded)

theorem counters_stopWith (error : ShardingError) (e : Execution V) :
    (e.stopWith error).1.counters = e.counters := by
  rw [stopWith_fst]
  rfl

theorem counters_fail (i : Nat) (error : QueryError) (e : Execution V) :
    (e.fail i error).1.counters = e.counters := by
  rw [fail_frame]
  rfl

theorem counters_refill (e : Execution V) :
    e.refill.counters =
      (if e.nextIndex < e.total then e.dispatched + 1 else e.dispatched, e.succeeded) := by
  rcases refill_cases e with ⟨hn, h⟩ | ⟨hn, h⟩
  · rw [h, if_pos hn]
    rfl
  · rw [h, if_neg (Nat.not_lt.2 hn)]
    rfl

/-- What a result that counts does to the counters. -/
theorem counters_record (i : Nat) (v : V) (e : Execution V) :
    (e.record i v).collect.refill.counters =
      (if e.nextIndex < e.total then e.dispatched + 1 else e.dispatched, e.succeeded + 1) := by
  rw [counters_refill, collect_frame]
  rfl

theorem counters_of_recorded {i : Nat} {v : V}
    (h : e.succeed i v = (e.record i v).collect.refill) :
    (e.succeed i v).dispatched =
        (if e.nextIndex < e.total then e.dispatched + 1 else e.dispatched) ∧
      (e.succeed i v).succeeded = e.succeeded + 1 := by
  rw [h]
  exact Prod.mk.inj (counters_record i v e)

/-- Every place of the window is taken by a sub query that has not succeeded, or is free. -/
def Roomy (e : Execution V) : Prop := e.dispatched ≤ e.succeeded + min e.windowSize e.total

theorem Roomy.of_same (h : Roomy e) (hp : e'.plan = e.plan) (hc : e'.counters = e.counters) :
    Roomy e' := by
  simp only [counters, Prod.mk.injEq] at hc
  obtain ⟨hd, hs⟩ := hc
  rw [Roomy, hd, hs, windowSize_of_plan hp, total_of_plan hp]
  exact h

/-- A success frees the place that the next sub query takes. -/
theorem roomy_succeed (i : Nat) (v : V) (h : Roomy e) : Roomy (e.succeed i v) := by
  rcases succeed_cases i v e with hs | ⟨_, _, hs⟩
  · rwa [hs]
  · have hp := plan_succeed i v e
    obtain ⟨hd, hx⟩ := counters_of_recorded hs
    rw [Roomy, windowSize_of_plan hp, total_of_plan hp, hd, hx]
    rw [Roomy] at h
    split <;> omega

theorem roomy_fillNext (h : Roomy e) (hl : Lined e launched) : Roomy e.fillNext := by
  rcases fillNext_cases e with ⟨_, hf⟩ | ⟨hd, hlt, hf⟩ | ⟨_, _, hf⟩
  · rw [hf]
    exact h
  · have hn := nextIndex_of_open hl hd
    rw [hf]
    change e.dispatched + 1 ≤ e.succeeded + min e.windowSize e.total
    omega
  · rw [hf]
    exact h

theorem roomy_step (h : Roomy e) (hl : Lined e launched)
    (hs : e.step m = some (e', events)) : Roomy e' := by
  have keep := h.of_same (plan_step hs)
  cases transition_of_step hs with
  | cancel hy => exact keep (counters_stopWith ..)
  | success hy => exact roomy_succeed _ _ h
  | failure hy => exact keep (counters_fail ..)
  | fill hc => exact roomy_fillNext h hl
  | handed hc => exact keep (by rw [attach_eq]; rfl)
  | combined hc => exact keep (by rw [deliver_fst]; rfl)
  | @receive i r rest hc hr hi =>
    cases r with
    | ok v => exact roomy_succeed i v (e := { e with inbox := rest }) h
    | error error => exact keep (counters_fail i error { e with inbox := rest })
  | start | skip | launch | combine | stop | stopped | resolve | abandon | forward | retire
    | halt => exact h

theorem roomy_of_trace (h : Trace step e₀ ms e events) (h₀ : Lined e₀ []) (hr : Roomy e₀) :
    Roomy e := by
  induction h with
  | refl => exact hr
  | snoc ht hs ih => exact roomy_step ih (lined_of_trace ht h₀) hs

theorem succeeded_succeed (i : Nat) (v : V) (e : Execution V) :
    (e.succeed i v).succeeded =
      e.succeeded + if e.isCompleted = false ∧ e.lacks i = true then 1 else 0 := by
  by_cases hd : e.isCompleted
  · rw [succeed, if_pos hd, if_neg (by simp [hd])]
    rfl
  · by_cases hl : e.lacks i
    · rw [succeed, if_neg hd, if_pos hl, if_pos ⟨Bool.eq_false_iff.2 hd, hl⟩]
      exact congrArg Prod.snd (counters_record i v e)
    · rw [succeed, if_neg hd, if_neg hl, if_neg (by simp [hl])]
      rfl

theorem accepted?_of_ok {i : Nat} {v : V} (h : e.report? m = some (i, .ok v)) :
    e.accepted? m = if e.isCompleted = false ∧ e.lacks i = true then some i else none := by
  rw [accepted?, h]

theorem accepted?_of_error {i : Nat} {error : QueryError}
    (h : e.report? m = some (i, .error error)) : e.accepted? m = none := by
  rw [accepted?, h]

theorem report?_of_accepted? {i : Nat} (h : e.accepted? m = some i) :
    ∃ v, e.report? m = some (i, .ok v) ∧ e.isCompleted = false ∧ e.lacks i = true := by
  unfold accepted? at h
  split at h
  · obtain ⟨hc, hi⟩ := Option.ite_none_right_eq_some.1 h
    cases hi
    exact ⟨_, ‹_›, hc⟩
  · cases h

theorem succeeded_step (hs : e.step m = some (e', events)) :
    e'.succeeded = e.succeeded + (e.accepted? m).toList.length := by
  have same {e' : Execution V} (hr : e.accepted? m = none) (hc : e'.succeeded = e.succeeded) :
      e'.succeeded = e.succeeded + (e.accepted? m).toList.length := by
    rw [hr, hc]
    rfl
  have one {i : Nat} {v : V} {e₁ : Execution V} (hr : e.report? m = some (i, .ok v))
      (hc : e₁.succeeded = e.succeeded ∧ e₁.isCompleted = e.isCompleted ∧
        e₁.lacks i = e.lacks i) :
      (e₁.succeed i v).succeeded = e.succeeded + (e.accepted? m).toList.length := by
    obtain ⟨hx, hd, hl⟩ := hc
    rw [succeeded_succeed, accepted?_of_ok hr, hx, hd, hl]
    split <;> rfl
  cases transition_of_step hs with
  | cancel hy => exact same rfl (congrArg Prod.snd (counters_stopWith ..))
  | success hy => exact one rfl ⟨rfl, rfl, rfl⟩
  | failure hy => exact same rfl (congrArg Prod.snd (counters_fail ..))
  | fill hc => exact same rfl (by rw [fillNext_frame])
  | handed hc => exact same rfl (by rw [attach_eq])
  | combined hc => exact same rfl (by rw [deliver_fst]; rfl)
  | @receive i r rest hc hr hi =>
    have hx := report?_receive hi
    cases r with
    | ok v => exact one hx ⟨rfl, rfl, rfl⟩
    | error error =>
      have hf := counters_fail i error { e with inbox := rest }
      exact same (accepted?_of_error hx) (congrArg Prod.snd hf)
  | start | skip | launch | combine | stop | stopped | resolve | abandon | forward | retire
    | halt => exact same rfl rfl

theorem succeeded_of_trace (h : Trace step e₀ ms e events) (h₀ : e₀.succeeded = 0) :
    e.succeeded = (along step accepted? e₀ ms).length := by
  induction h with
  | refl => exact h₀
  | snoc ht hs ih => rw [succeeded_step hs, ih, ht.along_snoc hs, List.length_append]

theorem accepted_sublist_reports (h : Trace step e₀ ms e events) :
    (along step accepted? e₀ ms).Sublist (reports e₀ ms) := by
  induction h with
  | refl => exact .slnil
  | @snoc ms e events m e' es ht hs ih =>
    rw [ht.along_snoc hs, reports_snoc ht hs]
    apply ih.append
    cases ha : e.accepted? m with
    | none => exact List.nil_sublist _
    | some i =>
      obtain ⟨v, hr, _⟩ := report?_of_accepted? ha
      rw [hr]
      exact .refl _

/-- In an orderly run the reports are of different sub queries, all of them passed on. -/
theorem reports_of_orderly (h : Trace step e₀ ms e events) (ho : Orderly e₀ ms) :
    (reports e₀ ms).Nodup ∧ reports e₀ ms ⊆ dispatches events := by
  induction h with
  | refl => exact ⟨.nil, List.nil_subset _⟩
  | @snoc ms e events m e' es ht hs ih =>
    obtain ⟨ho, hl⟩ := (orderly_snoc ht).1 ho
    obtain ⟨hn, hd⟩ := ih ho
    rw [reports_snoc ht hs, dispatches_append]
    cases hr : e.report? m with
    | none =>
      rw [Option.toList_none, List.map_nil, List.append_nil]
      exact ⟨hn, fun i hi => List.mem_append_left _ (hd hi)⟩
    | some p =>
      obtain ⟨hi, hx⟩ := hl p.1 p.2 hr
      constructor
      · apply List.Nodup.append hn (List.nodup_singleton _)
        simpa using hx
      · intro j hj
        apply List.mem_append_left
        rcases List.mem_append.1 hj with hj | hj
        · exact hd hj
        · rwa [List.mem_singleton.1 hj]

theorem length_unanswered (h : Trace step e₀ ms e events) (h₀ : Lined e₀ [])
    (hz : e₀.succeeded = 0) (ho : Orderly e₀ ms) :
    (unanswered e₀ ms events).length + e.succeeded = (dispatches events).length := by
  have hd := dispatches_nodup (lined_of_trace h h₀)
  obtain ⟨hn, hr⟩ := reports_of_orderly h ho
  have hs := accepted_sublist_reports h
  have hp : ((dispatches events).filter fun i => i ∈ along step accepted? e₀ ms).Perm
      (along step accepted? e₀ ms) := by
    rw [List.perm_ext_iff_of_nodup (hd.filter _) (hn.sublist hs)]
    intro i
    simp only [List.mem_filter, decide_eq_true_eq, and_iff_right_iff_imp]
    intro hi
    exact hr (hs.subset hi)
  have hl := List.length_eq_length_filter_add (l := dispatches events)
    fun i => decide (i ∈ along step accepted? e₀ ms)
  have hx : (dispatches events).filter (fun i => !decide (i ∈ along step accepted? e₀ ms)) =
      unanswered e₀ ms events := by
    rw [unanswered]
    congr
    funext i
    simp
  rw [hx, hp.length_eq] at hl
  rw [succeeded_of_trace h hz]
  omega

/-- At every point of an orderly run no more sub queries are unanswered than the window has places.
Whoever can look at the execution while it has no outcome sees how many there are. -/
theorem window_never_overfills {id : ExecutionId} {q : Query} {subs : List Query} {w : Nat}
    {merger : Merger V} (h : (new id q subs w merger).run ms = some (e, events))
    (ho : Orderly (new id q subs w merger) ms) :
    let waiting := unanswered (new id q subs w merger) ms events
    waiting.length ≤ min (max w 1) subs.length ∧
      e.succeeded ≤ e.dispatched ∧ e.dispatched ≤ subs.length ∧
      (e.yields = true → e.isCompleted = false →
        e.inFlight = waiting.length ∧ e.inFlight + e.succeeded = e.dispatched) := by
  intro waiting
  have ht := Trace.of_run h
  have h₀ := lined_new id q subs w merger
  have hl := lined_of_trace ht h₀
  have hp := plan_of_trace ht
  have hroom : Roomy e := roomy_of_trace ht h₀ (Nat.zero_le _)
  have hlen : waiting.length + e.succeeded = (dispatches events).length :=
    length_unanswered ht h₀ rfl ho
  have hdisp : (dispatches events).length + (launches e.calls).length = e.dispatched := by
    rw [← List.length_append, hl.dispatched, List.length_range]
  have htot : e.dispatched ≤ subs.length := (total_of_plan hp).subst hl.le_total
  rw [Roomy, windowSize_of_plan hp, total_of_plan hp] at hroom
  change _ ≤ _ + min (max w 1) subs.length at hroom
  refine ⟨by omega, by omega, htot, ?_⟩
  intro hy hd
  have hs := isTerminal_of_settled (settled_of_trace ht (settled_new id q subs w merger))
  have hq : (launches e.calls).length = 0 := by
    rw [launches_of_yields hl hy]
    rfl
  have hf : e.inFlight = e.dispatched - e.succeeded := by
    rw [inFlight, hs, hd]
    rfl
  omega

/-- Two of three sub queries are waiting after the first one has succeeded. -/
theorem window_never_overfills_refilled :
    ∃ e events, sample.run [.start, .resume, .resume, .handed (some (.ok 5)), .resume, .resume,
        .handed none, .resume, .forward 0, .receive, .resume] = some (e, events) ∧
      e.inFlight = 2 ∧
      (unanswered sample [.start, .resume, .resume, .handed (some (.ok 5)), .resume, .resume,
        .handed none, .resume, .forward 0, .receive, .resume] events).length = 2 := by
  obtain ⟨⟨e, events⟩, h⟩ : ∃ t, sample.run [.start, .resume, .resume, .handed (some (.ok 5)),
    .resume, .resume, .handed none, .resume, .forward 0, .receive, .resume] = some t := ⟨_, rfl⟩
  have ho := orderly_of_trace (Trace.of_run h) (lined_new ..) (piped_new ..) (by decide)
  obtain ⟨_, _, _, hf⟩ := window_never_overfills h ho
  have hx : e.yields = true ∧ e.isCompleted = false ∧ e.inFlight = 2 := by
    cases h
    exact ⟨rfl, rfl, rfl⟩
  obtain ⟨hy, hd, hi⟩ := hx
  exact ⟨e, events, h, hi, (hf hy hd).1 ▸ hi⟩

end ScatterGather.Execution
