import ScatterGather.Execution.Work
import ScatterGather.Proofs.Execution.Serving

/-! A served execution comes to rest, and not before it has merged all answers. -/
namespace ScatterGather.Execution

variable {V : Type} {f : Nat → V} {e e' e₀ : Execution V} {m : Move V} {ms : List (Move V)}
  {events : List (Event V)} {launched done : List Nat}

/-- Without an outcome, something is dispatched once the window has been filled, and not everything
dispatched has succeeded unless all is dispatched. -/
structure Advancing (e : Execution V) : Prop where
  places : 0 < min e.windowSize e.total
  filled : e.isCompleted = false → .fill ∈ e.calls ∨ 0 < e.dispatched
  ahead : e.isCompleted = false →
    e.dispatched = 0 ∧ e.succeeded = 0 ∨ e.succeeded < e.dispatched ∨ e.dispatched = e.total

theorem places_of_plan (h : 0 < min e.windowSize e.total) (hp : e'.plan = e.plan) :
    0 < min e'.windowSize e'.total := by
  rw [windowSize_of_plan hp, total_of_plan hp]
  exact h

theorem advancing_of_completed (hp : 0 < min e.windowSize e.total)
    (hd : e.isCompleted = true) : Advancing e := by
  refine ⟨hp, ?_, ?_⟩
  all_goals
    intro hx
    rw [hd] at hx
    cases hx

theorem Advancing.of_same (h : Advancing e) (hs : e.step m = some (e', events))
    (hf : .fill ∈ e.calls → .fill ∈ e'.calls) (hc : e'.counters = e.counters) :
    Advancing e' := by
  simp only [counters, Prod.mk.injEq] at hc
  obtain ⟨hd, hx⟩ := hc
  refine ⟨places_of_plan h.places (plan_step hs), ?_, ?_⟩
  · intro ho
    rw [hd]
    rcases h.filled (open_of_step hs ho) with hfill | hpos
    · exact .inl (hf hfill)
    · exact .inr hpos
  · intro ho
    rw [hd, hx, total_of_plan (plan_step hs)]
    exact h.ahead (open_of_step hs ho)

/-- A success takes a dispatched sub query, and brings the next one if there is any. -/
theorem advancing_succeed (i : Nat) (v : V) (h : Advancing e) (hl : Lined e launched)
    (hpos : 0 < e.dispatched) : Advancing (e.succeed i v) := by
  rcases succeed_cases i v e with hs | ⟨hd, _, hs⟩
  · rwa [hs]
  · have hp := plan_succeed i v e
    obtain ⟨hdisp, hsucc⟩ := counters_of_recorded hs
    have hn := nextIndex_of_open hl hd
    refine ⟨places_of_plan h.places hp, ?_, ?_⟩
    · intro _
      right
      rw [hdisp]
      split <;> omega
    · intro _
      have := hl.le_total
      rw [hdisp, hsucc, total_of_plan hp]
      rcases h.ahead hd with ⟨hz, _⟩ | hlt | hall
      · omega
      · split <;> omega
      · split <;> omega

theorem advancing_fillNext (h : Advancing e) (hl : Lined e launched) :
    Advancing e.fillNext := by
  have hplaces := h.places
  rcases fillNext_cases e with ⟨hd, hf⟩ | ⟨hd, hlt, hf⟩ | ⟨hd, hle, hf⟩
  · rw [hf]
    exact advancing_of_completed hplaces hd
  · have hn := nextIndex_of_open hl hd
    rw [hf]
    refine ⟨hplaces, fun _ => .inr (Nat.succ_pos _), ?_⟩
    intro _
    change e.dispatched + 1 = 0 ∧ e.succeeded = 0 ∨ e.succeeded < e.dispatched + 1 ∨
      e.dispatched + 1 = e.total
    have := h.ahead hd
    omega
  · have hn := nextIndex_of_open hl hd
    rw [hf]
    refine ⟨hplaces, ?_, h.ahead⟩
    intro _
    right
    change 0 < e.dispatched
    omega

theorem advancing_step (h : Advancing e) (hl : Lined e launched) (ha : Serves f e m)
    (hr : ∀ i r, e.report? m = some (i, r) → i ∈ launched)
    (hs : e.step m = some (e', events)) : Advancing e' := by
  have hplaces := places_of_plan h.places (plan_step hs)
  cases transition_of_step hs with
  | start | cancel | abandon | success | failure => cases ha
  | fill hc => exact advancing_fillNext h hl
  | skip hc hd => exact advancing_of_completed hplaces hd
  | launch hc | combine hc | stop hc =>
    apply h.of_same hs _ rfl
    rw [hc]
    simp
  | handed hc =>
    apply h.of_same hs
    · rw [attach_eq, hc]
      intro hx
      apply List.mem_append_right
      simpa using hx
    · rw [attach_eq]
      rfl
  | stopped hc =>
    apply h.of_same hs _ rfl
    rw [pop, hc]
    simp
  | combined hc =>
    apply advancing_of_completed hplaces
    rw [deliver_fst]
    rfl
  | @receive i r rest hc hrun hi =>
    have hx := report?_receive hi
    have he : Advancing { e with inbox := rest } := ⟨h.places, h.filled, h.ahead⟩
    have hl' : Lined { e with inbox := rest } launched :=
      ⟨hl.dispatched, hl.top, hl.next, hl.le_total⟩
    have hpos : 0 < e.dispatched := by
      have hm : i ∈ List.range e.dispatched := hl.dispatched ▸ List.mem_append_left _ (hr i r hx)
      exact Nat.lt_of_le_of_lt (Nat.zero_le i) (List.mem_range.1 hm)
    cases r with
    | ok v => exact advancing_succeed i v he hl' hpos
    | error error =>
      apply h.of_same hs
      · rw [hc]
        simp
      · exact counters_fail i error { e with inbox := rest }
  | resolve | forward | retire | halt => exact h.of_same hs (fun hf => hf) rfl

/-- What holds of a served execution. -/
structure Served (f : Nat → V) (e : Execution V) (launched done : List Nat) : Prop where
  lined : Lined e launched
  piped : Piped e launched done
  faithful : Faithful f e
  gathered : Gathered f e done
  advancing : Advancing e

/-- What is reported was dispatched, and is reported once. -/
theorem done_of_piped (hl : Lined e launched) (hp : Piped e launched done) :
    done.Nodup ∧ ∀ i ∈ done, i < e.total := by
  have hn := List.nodup_iff_count.1 (dispatches_nodup hl)
  constructor
  · rw [List.nodup_iff_count]
    intro i
    have := hn i
    have := hp.bound i
    omega
  · intro i hi
    have := List.count_pos_iff.2 hi
    have := hp.bound i
    apply lt_total_of_mem hl
    apply List.count_pos_iff.1
    omega

theorem served_step (h : Served f e launched done) (ha : Serves f e m)
    (hs : e.step m = some (e', events)) :
    Served f e' (launched ++ dispatches events)
      (done ++ (e.report? m).toList.map Prod.fst) := by
  have hm := isReport_of_serves ha
  have hl := lined_step h.lined hs
  have hp := piped_step h.piped hm hs
  obtain ⟨hn, hlt⟩ := done_of_piped hl hp
  rw [total_of_plan (plan_step hs)] at hlt
  refine ⟨hl, hp, faithful_step h.faithful ha hs, ?_, ?_⟩
  · exact gathered_step h.gathered h.faithful ha hn hlt hs
  · apply advancing_step h.advancing h.lined ha _ hs
    intro i r hr
    exact (reportable h.piped (dispatches_nodup h.lined) hm hr).1

theorem served_of_trace (h : Trace step e₀ ms e events) (hf : Follows step (Serves f) e₀ ms)
    (h₀ : Served f e₀ [] []) : Served f e (dispatches events) (reports e₀ ms) := by
  induction h with
  | refl => exact h₀
  | snoc ht hs ih =>
    obtain ⟨hf, ha⟩ := (ht.follows_snoc hs).1 hf
    rw [dispatches_append, reports_snoc ht hs]
    exact served_step (ih hf) ha hs

/-- An execution that has been started, with at least one sub query. -/
theorem served_start {id : ExecutionId} {q : Query} {subs : List Query} {w : Nat}
    {merger : Merger V} (h : subs ≠ []) : Served f (new id q subs w merger).start [] [] := by
  have hs : (new id q subs w merger).step .start = some ((new id q subs w merger).start, []) := rfl
  have hlen : 0 < subs.length := List.length_pos_iff.2 h
  constructor
  · exact lined_step (lined_new id q subs w merger) hs
  · exact piped_step (piped_new id q subs w merger) rfl hs
  · exact ⟨nofun, nofun, nofun, rfl⟩
  · refine ⟨nofun, nofun, fun _ => rfl, ?_, ?_⟩
    · intro _ _
      change List.replicate subs.length none = (List.range subs.length).map _
      simp [List.map_const']
    · intro _ hz
      change 0 = subs.length at hz
      omega
  · refine ⟨?_, fun _ => .inl (List.mem_cons_self ..), fun _ => .inl ⟨rfl, rfl⟩⟩
    change 0 < min (max w 1) subs.length
    omega

/-- Every handle that was handed out has resolved, and no task can move. -/
structure AtRest (e : Execution V) : Prop where
  calls : e.calls = []
  resolved : ∀ i, e.listens i = false
  forward : ∀ i, e.step (.forward i) = none
  retire : ∀ i, e.step (.retire i) = none
  receive : e.step .receive = none
  halt : e.step .halt = none

theorem watchers_of_atRest (h : AtRest e) : e.watchers = [] := by
  cases hw : e.watchers with
  | nil => rfl
  | cons w ws =>
    have hf : e.watcher? w.index = some w := by simp [watcher?, hw]
    have hl := h.resolved w.index
    rw [listens, hf] at hl
    have hs := h.forward w.index
    cases hr : w.result with
    | none => simp [hr] at hl
    | some r =>
      obtain ⟨j, result⟩ := w
      obtain rfl : result = some r := hr
      simp [step, h.calls, hf] at hs

/-- At rest there is an outcome: with all answers in, the results were merged. -/
theorem isCompleted_of_atRest (h : Served f e launched done) (hr : AtRest e) :
    e.isCompleted = true := by
  by_contra hc
  have hd : e.isCompleted = false := Bool.eq_false_iff.2 hc
  have hrun : e.driver = .running := by
    cases hx : e.driver with
    | idle => exact (h.faithful.driver hx).elim
    | running => rfl
    | finished => exact (hc (h.piped.finished hx)).elim
  have hp : e.pending = [] := by
    rw [pending, hr.calls, watchers_of_atRest hr, inbox_of_receive hr.calls hrun hr.receive]
    rfl
  have hperm : done.Perm launched := by
    rw [List.perm_iff_count]
    intro i
    have := h.piped.exact hd i
    rw [hp] at this
    simpa using this
  have hlaunched : launched.length = e.dispatched := by
    have hl := h.lined.dispatched
    rw [hr.calls] at hl
    have := congrArg List.length hl
    simpa [launches] using this
  have hcount : e.succeeded = e.dispatched := by
    rw [h.gathered.counted hd, hperm.length_eq, hlaunched]
  have hpos : 0 < e.dispatched := by
    rcases h.advancing.filled hd with hf | hpos
    · rw [hr.calls] at hf
      cases hf
    · exact hpos
  have hall : e.succeeded = e.total := by
    rcases h.advancing.ahead hd with ⟨hz, _⟩ | hlt | hall
    · omega
    · omega
    · omega
  apply h.gathered.merging hd hall
  rw [hr.calls]
  rfl

theorem received_of_atRest (h : Served f e launched done) (hr : AtRest e) :
    e.received = some (sequential e.merger e.query.order ((List.range e.total).map f)) := by
  have hd := isCompleted_of_atRest h hr
  obtain ⟨o, ho⟩ := Option.isSome_iff_exists.1 hd
  rw [received, if_pos h.faithful.awaited, ho, h.gathered.outcome o ho]

/-- Short of rest, something that serves the execution can happen. -/
theorem exists_serves_of_not_atRest (h : ¬ AtRest e) :
    ∃ m, Serves f e m ∧ (e.step m).isSome := by
  cases hc : e.calls with
  | cons frame s =>
    cases frame with
    | fill | launch | combine | stop =>
      refine ⟨.resume, trivial, ?_⟩
      simp only [step, resume, hc]
      try split
      all_goals rfl
    | dispatching i => exact ⟨.handed none, fun _ _ _ => .inl rfl, by simp [step, hc]⟩
    | merging rs =>
      refine ⟨.combined (e.merger.merge rs), ?_, by simp [step, hc]⟩
      intro rs' s' hx
      obtain ⟨hrs, _⟩ := List.cons.inj (hc.symm.trans hx)
      cases hrs
      rfl
    | stopping i => exact ⟨.stopped, trivial, by simp [step, hc]⟩
  | nil =>
    by_contra hn
    have none_of {m : Move V} (ha : Serves f e m) : e.step m = none := by
      by_contra hx
      exact hn ⟨m, ha, Option.isSome_iff_ne_none.2 hx⟩
    apply h
    refine ⟨hc, ?_, fun i => none_of trivial, fun i => none_of trivial, none_of trivial,
      none_of trivial⟩
    intro i
    have hs : e.step (.resolve i (.ok (f i))) = none := none_of rfl
    simpa [step, yields, hc] using hs

/-- Handles that have not resolved. -/
def unresolved (e : Execution V) : Nat := e.watchers.countP fun w => w.result.isNone

/-- How long an execution can be served. A new handle may have to resolve, and uses up more work. -/
def remaining (e : Execution V) : Nat := 2 * e.work + e.unresolved

theorem unresolved_of_shared (h : e'.shared = e.shared) : e'.unresolved = e.unresolved := by
  simp only [shared, Prod.mk.injEq] at h
  rw [unresolved, h.2.2.1, unresolved]

theorem unresolved_unwatch_le (i : Nat) (e : Execution V) :
    (e.unwatch i).unresolved ≤ e.unresolved :=
  List.eraseP_sublist.countP_le

theorem countP_settle {i : Nat} {r : SubResult V} {w : Watcher V} {ws : List (Watcher V)}
    (hf : ws.find? (fun w => w.index = i) = some w) (hr : w.result.isNone = true) :
    (settle i r ws).countP (fun w => w.result.isNone) + 1 =
      ws.countP fun w => w.result.isNone := by
  induction ws with
  | nil => cases hf
  | cons w' ws ih =>
    unfold settle
    by_cases hi : w'.index = i
    · obtain rfl : w' = w := by simpa [hi] using hf
      rw [if_pos hi, if_pos hr]
      simp [hr]
    · have hf' : ws.find? (fun w => w.index = i) = some w := by simpa [hi] using hf
      rw [if_neg hi, List.countP_cons, List.countP_cons, ← ih hf']
      omega

theorem remaining_step (ha : Serves f e m) (hs : e.step m = some (e', events)) :
    e'.remaining < e.remaining := by
  have less (hw : e'.work < e.work) (hu : e'.unresolved ≤ e.unresolved + 1) :
      e'.remaining < e.remaining := by
    rw [remaining, remaining]
    omega
  have same (hw : e'.work < e.work) (ht : e'.shared = e.shared) :
      e'.remaining < e.remaining :=
    less hw (unresolved_of_shared ht ▸ Nat.le_succ _)
  cases m with
  | start | cancel | abandon | success | failure => cases ha
  | resume =>
    have hw := work_resume_lt hs
    apply same (by omega)
    cases transition_of_step hs with
    | fill hc => exact shared_fillNext e
    | skip | launch | combine | stop => rfl
  | handed r =>
    have hw := work_handed_lt hs
    apply less (by omega)
    cases transition_of_step hs with
    | handed hc =>
      rw [attach_eq, unresolved, unresolved, List.countP_append]
      exact Nat.add_le_add_left List.countP_le_length _
  | stopped =>
    have hw := work_stopped_lt hs
    apply same (by omega)
    cases transition_of_step hs with
    | stopped hc => rfl
  | combined result =>
    have hw := work_combined_lt hs
    apply same (by omega)
    cases transition_of_step hs with
    | combined hc =>
      rw [deliver_fst]
      rfl
  | resolve i r =>
    have hw := work_resolve hs
    cases transition_of_step hs with
    | resolve hy hl =>
      unfold listens at hl
      split at hl
      · have hu := countP_settle (r := r) ‹_› hl
        change ({ e with watchers := settle i r e.watchers } : Execution V).unresolved + 1 =
          e.unresolved at hu
        rw [remaining, remaining]
        omega
      · cases hl
  | forward i =>
    apply less (work_forward_lt hs)
    cases transition_of_step hs with
    | forward hc hw => exact Nat.le_succ_of_le (unresolved_unwatch_le i e)
  | retire i =>
    apply less (work_retire_lt hs)
    cases transition_of_step hs with
    | retire hc hw hd => exact Nat.le_succ_of_le (unresolved_unwatch_le i e)
  | receive =>
    have hw := work_receive_lt hs
    apply less (by omega)
    cases transition_of_step hs with
    | @receive i r rest hc hr hi =>
      rw [unresolved_of_shared (shared_complete i r { e with inbox := rest })]
      exact Nat.le_succ _
  | halt =>
    apply less (work_halt_lt hs)
    cases transition_of_step hs with
    | halt hc hr hd => exact Nat.le_succ _

theorem length_add_remaining_le (h : Trace step e₀ ms e events)
    (hf : Follows step (Serves f) e₀ ms) :
    ms.length + e.remaining ≤ e₀.remaining := by
  induction h with
  | refl => exact Nat.le_of_eq (Nat.zero_add _)
  | snoc ht hs ih =>
    obtain ⟨hf, ha⟩ := (ht.follows_snoc hs).1 hf
    have := ih hf
    have := remaining_step ha hs
    rw [List.length_append, List.length_singleton]
    omega

end ScatterGather.Execution
