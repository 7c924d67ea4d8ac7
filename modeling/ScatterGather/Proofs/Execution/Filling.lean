import ScatterGather.Proofs.Execution.Window

/-! Filling the window: how many places are in use once it has been filled, and which successes cost
one for good. -/
namespace ScatterGather.Execution

variable {V : Type} {e e' e₀ : Execution V} {m : Move V} {ms : List (Move V)}
  {events : List (Event V)} {launched : List Nat} {f : Frame V}

/-- The places of the window that there are sub queries for. -/
def places (e : Execution V) : Nat := min e.windowSize e.total

/-- The sub query whose success a move applies while the window is filled for the first time. What
it launches takes the place of a sub query that was still to be launched. -/
def early? (e : Execution V) (m : Move V) : Option Nat :=
  if e.nextIndex < e.places then e.accepted? m else none

/-- The sub query that a move reports as succeeded. -/
def success? (e : Execution V) (m : Move V) : Option Nat :=
  match e.report? m with
  | some (i, .ok _) => some i
  | _ => none

/-- Each sub query is reported as succeeded once at most, and only after it was passed on. -/
def Timely (e₀ : Execution V) : List (Move V) → Prop :=
  Throughout step (fun before e events m =>
    ∀ i, e.success? m = some i → i ∈ dispatches events ∧ i ∉ along step success? e₀ before) e₀

theorem places_eq_of_plan (h : e'.plan = e.plan) : e'.places = e.places := by
  rw [places, places, windowSize_of_plan h, total_of_plan h]

/-- A step leaves the counters alone, applies a success, launches one more sub query to fill the
window, or ends the filling. -/
inductive Tally (e : Execution V) (m : Move V) (e' : Execution V) : Prop
  | same (ha : e.accepted? m = none) (hc : e'.counters = e.counters)
      (hf : .fill ∈ e.calls → .fill ∈ e'.calls)
  | success {i} (ha : e.accepted? m = some i)
      (hc : e'.counters =
        (if e.nextIndex < e.total then e.dispatched + 1 else e.dispatched, e.succeeded + 1))
      (hf : .fill ∈ e.calls → .fill ∈ e'.calls)
  | fill (ha : e.accepted? m = none) (hn : e.nextIndex < e.places)
      (hc : e'.counters = (e.dispatched + 1, e.succeeded)) (hf : .fill ∈ e'.calls)
  | full (ha : e.accepted? m = none) (hc : e'.counters = e.counters)
      (hn : e'.isCompleted = true ∨ e.places ≤ e.nextIndex)

theorem mem_calls_succeed (i : Nat) (v : V) (h : f ∈ e.calls) : f ∈ (e.succeed i v).calls := by
  have hc : f ∈ (e.record i v).collect.calls := by
    rcases collect_cases (e.record i v) with ⟨_, hc⟩ | ⟨_, hc⟩
    · rw [hc]
      exact List.mem_cons_of_mem _ h
    · rw [hc]
      exact h
  rcases succeed_cases i v e with hs | ⟨_, _, hs⟩
  · rwa [hs]
  · rcases refill_cases (e.record i v).collect with ⟨_, hr⟩ | ⟨_, hr⟩
    · rw [hs, hr]
      exact List.mem_cons_of_mem _ hc
    · rwa [hs, hr]

theorem mem_calls_stopWith (error : ShardingError) (h : f ∈ e.calls) :
    f ∈ (e.stopWith error).1.calls := by
  rw [stopWith_fst]
  exact List.mem_append_right _ h

theorem mem_calls_fail (i : Nat) (error : QueryError) (h : f ∈ e.calls) :
    f ∈ (e.fail i error).1.calls := by
  rcases fail_cases i error e with ⟨_, hs⟩ | ⟨_, hs⟩
  · rwa [hs]
  · rw [hs]
    exact mem_calls_stopWith _ h

theorem mem_tail_of_ne {g : Frame V} {s : List (Frame V)} (hc : e.calls = g :: s) (hg : f ≠ g)
    (h : f ∈ e.calls) : f ∈ s := by
  rw [hc] at h
  exact (List.mem_cons.1 h).resolve_left hg

/-- A result that is reported is applied or changes nothing. `e₁` is the execution without it. -/
theorem tally_succeed {i : Nat} {v : V} {e₁ : Execution V} (hr : e.report? m = some (i, .ok v))
    (h₁ : e₁ = { e with inbox := e₁.inbox }) : Tally e m (e₁.succeed i v) := by
  have ha := accepted?_of_ok hr
  have hf : .fill ∈ e.calls → .fill ∈ (e₁.succeed i v).calls := by
    intro h
    apply mem_calls_succeed
    rwa [h₁]
  rcases succeed_cases i v e₁ with hs | ⟨hd, hl, hs⟩
  · by_cases hx : e.isCompleted = false ∧ e.lacks i = true
    · exfalso
      have hn := succeeded_succeed i v e₁
      have hd : e₁.isCompleted = false ∧ e₁.lacks i = true := by rwa [h₁]
      rw [hs, if_pos hd] at hn
      omega
    · rw [if_neg hx] at ha
      refine .same ha ?_ hf
      rw [hs, h₁]
      rfl
  · have hx : e.isCompleted = false ∧ e.lacks i = true := by
      rw [h₁] at hd hl
      exact ⟨hd, hl⟩
    rw [if_pos hx] at ha
    refine .success ha ?_ hf
    rw [hs, counters_record, h₁]
    rfl

/-- The filling of the window goes on through every step but the round that ends it. -/
theorem mem_fill_step (h : e.step m = some (e', events))
    (hx : ∀ s, e.calls = .fill :: s → m ≠ .resume) (hf : .fill ∈ e.calls) : .fill ∈ e'.calls := by
  cases transition_of_step h with
  | fill hc => exact (hx _ hc rfl).elim
  | start hy => exact List.mem_cons_of_mem _ hf
  | cancel hy => exact mem_calls_stopWith _ hf
  | success hy => exact mem_calls_succeed _ _ hf
  | failure hy => exact mem_calls_fail _ _ hf
  | skip hc hd | stopped hc =>
    rw [calls_pop hc]
    exact mem_tail_of_ne hc nofun hf
  | launch hc | combine hc | stop hc => exact List.mem_cons_of_mem _ (mem_tail_of_ne hc nofun hf)
  | handed hc =>
    rw [attach_eq, hc]
    exact List.mem_append_right _ (mem_tail_of_ne hc nofun hf)
  | combined hc =>
    rw [deliver_fst]
    exact (calls_pop hc).symm ▸ mem_tail_of_ne hc nofun hf
  | @receive i r rest hc hr hi =>
    rw [hc] at hf
    cases hf
  | resolve | abandon | forward | retire | halt => exact hf

theorem tally_of_step (h : e.step m = some (e', events)) : Tally e m e' := by
  have keep := mem_fill_step h
  cases transition_of_step h with
  | start hy => exact .same rfl rfl (keep nofun)
  | cancel hy => exact .same rfl (counters_stopWith ..) (keep nofun)
  | success hy => exact tally_succeed rfl rfl
  | failure hy => exact .same rfl (counters_fail ..) (keep nofun)
  | fill hc =>
    rcases fillNext_cases e with ⟨hd, hf⟩ | ⟨_, hn, hf⟩ | ⟨_, hn, hf⟩
    · rw [hf]
      exact .full rfl rfl (.inl hd)
    · rw [hf]
      refine .fill rfl hn rfl ?_
      exact List.mem_cons_of_mem _ (hc ▸ List.mem_cons_self ..)
    · rw [hf]
      exact .full rfl rfl (.inr hn)
  | skip hc | launch hc | combine hc | stop hc =>
    refine .same rfl rfl (keep fun s hs => ?_)
    rw [hc] at hs
    cases hs
  | handed hc => exact .same rfl (by rw [attach_eq]; rfl) (keep nofun)
  | combined hc => exact .same rfl (by rw [deliver_fst]; rfl) (keep nofun)
  | @receive i r rest hc hr hi =>
    have hx := report?_receive hi
    cases r with
    | ok v => exact tally_succeed hx rfl
    | error error =>
      exact .same (accepted?_of_error hx) (counters_fail i error { e with inbox := rest })
        (keep nofun)
  | stopped | resolve | abandon | forward | retire | halt => exact .same rfl rfl (keep nofun)

/-- `p` places for `n` sub queries, `d` of which are dispatched and `s` have succeeded, `k` of them
early. Until the window is filled every success is early. From then on each success brings the next
sub query, so that the window keeps the width it has got. -/
structure Balanced (n p d s k : Nat) : Prop where
  early : k ≤ s
  filling : d < p → k = s
  filled : p ≤ d → d = min n (p + (s - k))

section

variable {n p d s k : Nat}

theorem balanced_launch (h : Balanced n p d s k) (hp : p ≤ n) (hd : d < p) :
    Balanced n p (d + 1) s k := by
  have hk := h.filling hd
  constructor <;> omega

theorem balanced_early (h : Balanced n p d s k) (hp : p ≤ n) (hd : d < p) :
    Balanced n p (d + 1) (s + 1) (k + 1) := by
  have hk := h.filling hd
  constructor <;> omega

theorem balanced_late (h : Balanced n p d s k) (hd : p ≤ d) :
    Balanced n p (if d < n then d + 1 else d) (s + 1) k := by
  have hk := h.early
  have hf := h.filled hd
  split <;> constructor <;> omega

theorem width_of_balanced (h : Balanced n p d s k) (hd : p ≤ d) :
    d - s = min (p - k) (n - s) := by
  have hk := h.early
  have hf := h.filled hd
  omega

end

/-- The counters of an execution without an outcome, after `k` early successes. -/
def Tended (e : Execution V) (k : Nat) : Prop :=
  e.isCompleted = false → Balanced e.total e.places e.dispatched e.succeeded k

theorem tended_step {k : Nat} (h : Tended e k) (hl : Lined e launched)
    (hs : e.step m = some (e', events)) : Tended e' (k + (e.early? m).toList.length) := by
  intro hd
  have hd₀ := open_of_step hs hd
  have hb := h hd₀
  have hn := nextIndex_of_open hl hd₀
  have hle : e.places ≤ e.total := Nat.min_le_right ..
  rw [total_of_plan (plan_step hs), places_eq_of_plan (plan_step hs)]
  cases tally_of_step hs with
  | same ha hc | full ha hc =>
    obtain ⟨hdisp, hsucc⟩ := Prod.mk.inj hc
    have hk : e.early? m = none := by simp [early?, ha]
    rw [hk, hdisp, hsucc]
    exact hb
  | fill ha hlt hc =>
    obtain ⟨hdisp, hsucc⟩ := Prod.mk.inj hc
    have hk : e.early? m = none := by simp [early?, ha]
    rw [hk, hdisp, hsucc]
    exact balanced_launch hb hle (hn ▸ hlt)
  | @success i ha hc =>
    obtain ⟨hdisp, hsucc⟩ := Prod.mk.inj hc
    rw [hn] at hdisp
    by_cases hlt : e.dispatched < e.places
    · have hk : e.early? m = some i := by simp [early?, ha, hn, hlt]
      rw [if_pos (by omega)] at hdisp
      rw [hk, hdisp, hsucc]
      exact balanced_early hb hle hlt
    · have hk : e.early? m = none := by simp [early?, hn, hlt]
      rw [hk, hdisp, hsucc]
      exact balanced_late hb (Nat.le_of_not_lt hlt)

theorem tended_of_trace (h : Trace step e₀ ms e events) (h₀ : Lined e₀ []) (ht : Tended e₀ 0) :
    Tended e (along step early? e₀ ms).length := by
  induction h with
  | refl => exact ht
  | snoc hr hs ih =>
    rw [hr.along_snoc hs, List.length_append]
    exact tended_step ih (lined_of_trace hr h₀) hs

/-- Once it was started, an execution without an outcome fills its window or has filled it. -/
theorem filled_step (h : e.isCompleted = false → .fill ∈ e.calls ∨ e.places ≤ e.dispatched)
    (hl : Lined e launched) (hs : e.step m = some (e', events)) (hd : e'.isCompleted = false) :
    .fill ∈ e'.calls ∨ e'.places ≤ e'.dispatched := by
  have hd₀ := open_of_step hs hd
  have hn := nextIndex_of_open hl hd₀
  have hp := places_eq_of_plan (plan_step hs)
  have grow (hf : .fill ∈ e.calls → .fill ∈ e'.calls) (hle : e.dispatched ≤ e'.dispatched) :
      .fill ∈ e'.calls ∨ e'.places ≤ e'.dispatched := by
    rcases h hd₀ with hx | hx
    · exact .inl (hf hx)
    · right
      omega
  cases tally_of_step hs with
  | same ha hc hf => exact grow hf (Nat.le_of_eq (congrArg Prod.fst hc).symm)
  | success ha hc hf =>
    apply grow hf
    have hdisp := congrArg Prod.fst hc
    simp only [counters] at hdisp
    split at hdisp <;> omega
  | fill ha hlt hc hf => exact .inl hf
  | full ha hc hx =>
    rcases hx with hx | hx
    · rw [hd] at hx
      cases hx
    · right
      have hdisp : e'.dispatched = e.dispatched := congrArg Prod.fst hc
      omega

theorem filled_of_trace (h : Trace step e₀ ms e events) (h₀ : Lined e₀ []) (hm : .start ∈ ms) :
    e.isCompleted = false → .fill ∈ e.calls ∨ e.places ≤ e.dispatched := by
  induction h with
  | refl => cases hm
  | @snoc ms e es m e' es' hr hs ih =>
    rcases List.mem_append.1 hm with hm | hm
    · exact filled_step (ih hm) (lined_of_trace hr h₀) hs
    · obtain rfl := List.mem_singleton.1 hm
      intro _
      cases transition_of_step hs with
      | start hy => exact .inl (List.mem_cons_self ..)

theorem success?_of_ok {i : Nat} {v : V} (h : e.report? m = some (i, .ok v)) :
    e.success? m = some i := by
  rw [success?, h]

/-- An execution without an outcome was told of no failure. -/
theorem ok_of_open {i : Nat} {r : SubResult V} (hs : e.step m = some (e', events))
    (hd : e'.isCompleted = false) (hr : e.report? m = some (i, r)) : ∃ v, r = .ok v := by
  cases r with
  | ok v => exact ⟨v, rfl⟩
  | error error =>
    exfalso
    have ht : e.trigger? m = some (.error (.subQuery i e.query.order error)) := by
      cases m with
      | failure j error' =>
        simp only [report?, Option.some.injEq, Prod.mk.injEq, Except.error.injEq] at hr
        simp [trigger?, report?, hr]
      | receive => simp [trigger?, hr]
      | _ => simp [report?] at hr
    have ho := (delivers_step hs).1
    rw [ht] at ho
    simp only at ho
    rw [isCompleted, ho] at hd
    cases hx : e.outcome <;> simp [hx] at hd

theorem reports_of_open (h : Trace step e₀ ms e events) (hd : e.isCompleted = false) :
    reports e₀ ms = along step success? e₀ ms := by
  induction h with
  | refl => rfl
  | @snoc ms e es m e' es' ht hs ih =>
    rw [reports_snoc ht hs, ht.along_snoc hs, ih (open_of_step hs hd)]
    cases hr : e.report? m with
    | none => simp [success?, hr]
    | some p =>
      obtain ⟨v, hv⟩ := ok_of_open (i := p.1) (r := p.2) hs hd hr
      rw [success?_of_ok (i := p.1) (v := v) (by rw [hr, ← hv])]
      rfl

theorem orderly_of_open (h : Trace step e₀ ms e events) (hd : e.isCompleted = false)
    (ht : Timely e₀ ms) : Orderly e₀ ms := by
  induction h with
  | refl => exact orderly_nil e₀
  | @snoc ms e es m e' es' hr hs ih =>
    have hd₀ := open_of_step hs hd
    obtain ⟨ht, hl⟩ := hr.throughout_snoc.1 ht
    refine (orderly_snoc hr).2 ⟨ih hd₀ ht, ?_⟩
    intro i r hp
    obtain ⟨v, rfl⟩ := ok_of_open hs hd hp
    rw [reports_of_open hr hd₀]
    exact hl i (success?_of_ok hp)

/-- An early success is one of several sub queries that are waiting or were to be launched. -/
theorem early_lt_places (h : Trace step e₀ ms e events) (h₀ : Lined e₀ []) (hz : e₀.succeeded = 0)
    (hb : Tended e₀ 0) (ho : Orderly e₀ ms) (hp : 0 < e₀.places) :
    (along step early? e₀ ms).length < e₀.places := by
  induction h with
  | refl => exact hp
  | @snoc ms e events m e' es ht hs ih =>
    obtain ⟨ho, hl⟩ := (orderly_snoc ht).1 ho
    have hlt := ih ho
    rw [ht.along_snoc hs, List.length_append]
    cases he : e.early? m with
    | none => exact hlt
    | some i =>
      simp only [early?] at he
      obtain ⟨hn, ha⟩ := Option.ite_none_right_eq_some.1 he
      obtain ⟨v, hr, hd, _⟩ := report?_of_accepted? ha
      obtain ⟨hi, hx⟩ := hl i _ hr
      have hlined := lined_of_trace ht h₀
      have hk := (tended_of_trace ht h₀ hb hd).filling (nextIndex_of_open hlined hd ▸ hn)
      have hw := length_unanswered ht h₀ hz ho
      have hm : i ∈ unanswered e₀ ms events := by
        simp only [unanswered, List.mem_filter, decide_eq_true_eq]
        exact ⟨hi, fun ha => hx ((accepted_sublist_reports ht).subset ha)⟩
      have hpos := List.length_pos_of_mem hm
      have hle : (dispatches events).length ≤ e.dispatched := by
        have := congrArg List.length hlined.dispatched
        simp only [List.length_append, List.length_range] at this
        omega
      have hplaces := places_eq_of_plan (plan_of_trace ht)
      have hn' := nextIndex_of_open hlined hd
      simp only [Option.toList_some, List.length_singleton]
      omega

theorem tended_new (id : ExecutionId) (q : Query) (subs : List Query) (w : Nat)
    (merger : Merger V) : Tended (new id q subs w merger) 0 := by
  intro _
  change Balanced subs.length (min (max w 1) subs.length) 0 0 0
  constructor <;> omega

section

variable {id : ExecutionId} {q : Query} {subs : List Query} {w : Nat} {merger : Merger V}

/-- Between calls, as many sub queries are waiting as the window has places, less one for each early
success. -/
theorem length_unanswered_of_filled (ht : Trace step (new id q subs w merger) ms e events)
    (ho : Orderly (new id q subs w merger) ms) (hs : .start ∈ ms) (hc : e.calls = [])
    (hd : e.isCompleted = false) :
    (unanswered (new id q subs w merger) ms events).length =
      min (min (max w 1) subs.length - (along step early? (new id q subs w merger) ms).length)
        (subs.length - e.succeeded) := by
  have h₀ := lined_new id q subs w merger
  have hp := plan_of_trace ht
  have hl := lined_of_trace ht h₀
  have htotal : e.total = subs.length := total_of_plan hp
  have hplaces : e.places = min (max w 1) subs.length := places_eq_of_plan hp
  have hfull : e.places ≤ e.dispatched := by
    rcases filled_of_trace ht h₀ hs hd with hf | hf
    · simp [hc] at hf
    · exact hf
  have hlen := length_unanswered ht h₀ rfl ho
  have hall : (dispatches events).length = e.dispatched := by
    have := congrArg List.length hl.dispatched
    simpa [hc, launches] using this
  have hwidth := width_of_balanced (tended_of_trace ht h₀ (tended_new id q subs w merger) hd) hfull
  rw [htotal, hplaces] at hwidth
  omega

/-- At least one place is left. -/
theorem early_lt_window (ht : Trace step (new id q subs w merger) ms e events)
    (ho : Orderly (new id q subs w merger) ms) (hn : 0 < subs.length) :
    (along step early? (new id q subs w merger) ms).length < min (max w 1) subs.length := by
  have hp : 0 < (new id q subs w merger).places := by
    change 0 < min (max w 1) subs.length
    omega
  exact early_lt_places ht (lined_new ..) rfl (tended_new id q subs w merger) ho hp

/-- Between calls the window is full unless a success came while it was first being filled: each
such success costs a place for good, and shows as long as enough sub queries are left. -/
theorem window_full_without_early (h : (new id q subs w merger).run ms = some (e, events))
    (ho : Timely (new id q subs w merger) ms) (hs : .start ∈ ms) (hc : e.calls = [])
    (hd : e.isCompleted = false) :
    let waiting := unanswered (new id q subs w merger) ms events
    let early := along step early? (new id q subs w merger) ms
    let width := min (max w 1) subs.length - early.length
    waiting.length = min width (subs.length - e.succeeded) ∧
      (0 < subs.length → 0 < width) ∧
      (waiting.length = min (max w 1) (subs.length - e.succeeded) ↔
        early = [] ∨ subs.length - e.succeeded ≤ width) := by
  intro waiting early width
  have ht := Trace.of_run h
  have ho := orderly_of_open ht hd ho
  have hlen : waiting.length = min width (subs.length - e.succeeded) :=
    length_unanswered_of_filled ht ho hs hc hd
  have hlt : 0 < subs.length → early.length < min (max w 1) subs.length := early_lt_window ht ho
  have hw : width = min (max w 1) subs.length - early.length := rfl
  have hnil : early = [] ↔ early.length = 0 := List.length_eq_zero_iff.symm
  refine ⟨hlen, fun hn => ?_, ?_⟩
  · have := hlt hn
    omega
  · rw [hnil, hlen]
    rcases Nat.eq_zero_or_pos subs.length with hz | hn
    · omega
    · have := hlt hn
      omega

end

/-- The first of three sub queries succeeds before the second one is launched. -/
def hasty : List (Move Nat) :=
  [.start, .resume, .resume, .success 0 5, .resume, .handed none, .handed none, .resume]

theorem timely_hasty : Timely sample hasty := by
  intro before m after e events hm hr i hi
  rcases before with _ | ⟨_, _ | ⟨_, _ | ⟨_, _ | ⟨_, _ | ⟨_, _ | ⟨_, _ | ⟨_, _ | ⟨_, before⟩⟩⟩⟩⟩⟩⟩⟩
  case cons.cons.cons.nil =>
    cases hm
    cases hr
    cases hi
    exact ⟨List.mem_cons_self .., List.not_mem_nil⟩
  case cons.cons.cons.cons.cons.cons.cons.cons => simp [hasty] at hm
  all_goals
    cases hm
    cases hi

/-- The early success has cost one of the two places. -/
theorem window_full_without_early_hasty : ∃ e events, sample.run hasty = some (e, events) ∧
    along step early? sample hasty = [0] ∧ (unanswered sample hasty events).length = 1 := by
  obtain ⟨⟨e, events⟩, h⟩ : ∃ t, sample.run hasty = some t := ⟨_, rfl⟩
  have he : e.calls = [] ∧ e.isCompleted = false ∧ e.succeeded = 1 := by
    cases h
    exact ⟨rfl, rfl, rfl⟩
  obtain ⟨hc, hd, hs⟩ := he
  obtain ⟨hw, _⟩ := window_full_without_early h timely_hasty (List.mem_cons_self ..) hc hd
  have hk : along step early? sample hasty = [0] := rfl
  refine ⟨e, events, h, hk, hw.trans ?_⟩
  change min (2 - (along step early? sample hasty).length) (3 - e.succeeded) = 1
  rw [hk, hs]
  rfl

/-- One sub query is waiting where there are two places and two sub queries left. -/
theorem window_half_empty_after_early : ∃ e events, sample.run hasty = some (e, events) ∧
    Timely sample hasty ∧ .start ∈ hasty ∧ e.calls = [] ∧ e.isCompleted = false ∧
    (unanswered sample hasty events).length ≠ min 2 (3 - e.succeeded) :=
  ⟨_, _, rfl, timely_hasty, List.mem_cons_self .., rfl, rfl, by decide⟩

end ScatterGather.Execution
