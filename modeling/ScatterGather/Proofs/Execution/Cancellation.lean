import ScatterGather.Proofs.Execution.Dispatch

/-! Each handle is told to stop once at most, and once exactly after a cancellation. -/
namespace ScatterGather

variable {V : Type}

def Frame.dispatching? : Frame V → Option Nat
  | .dispatching i => some i
  | _ => none

def Frame.stop? : Frame V → Option Nat
  | .stop i => some i
  | _ => none

/-- Sub queries whose handle is still being made. -/
def underway (fs : List (Frame V)) : List Nat := fs.filterMap Frame.dispatching?

/-- Sub queries whose cancel hook is about to be called. -/
def doomed (fs : List (Frame V)) : List Nat := fs.filterMap Frame.stop?

namespace Execution

variable {e e' e₀ : Execution V} {m : Move V} {ms : List (Move V)} {events : List (Event V)}
  {launched handles stopped : List Nat} {i : Nat}

theorem count_cons_eq (i j : Nat) (l : List Nat) : (i :: l).count j = l.count j + [i].count j := by
  rw [← List.singleton_append, List.count_append]
  omega

theorem mem_held : i ∈ e.held ↔ e.slots[i]? = some true := by
  simp only [held, List.mem_filter, List.mem_range, beq_iff_eq, and_iff_right_iff_imp]
  intro h
  exact (List.getElem?_eq_some_iff.1 h).1

theorem count_held (e : Execution V) (i : Nat) :
    e.held.count i = if e.slots[i]? = some true then 1 else 0 := by
  have hn : e.held.Nodup := List.nodup_range.filter _
  rw [hn.count]
  simp only [mem_held]

/-- A free place that gets a hook. -/
theorem count_held_set (hi : i < e.slots.length) (hf : e.held.count i = 0)
    (hs : e'.slots = e.slots.set i true) (j : Nat) :
    e'.held.count j = e.held.count j + [i].count j := by
  rw [count_held, count_held, hs, List.getElem?_set]
  rw [count_held] at hf
  by_cases hij : i = j
  · subst j
    simp_all
  · simp [hij]

theorem slots_succeed (i : Nat) (v : V) (e : Execution V) : (e.succeed i v).slots = e.slots := by
  rw [succeed_frame]

theorem held_of_slots (h : e'.slots = e.slots) : e'.held = e.held := by
  simp only [held, h]

/-- Every dispatch is under way or has returned a handle. Every handle has its cancel hook stored,
about to be called, or called. -/
structure Hooked (e : Execution V) (launched handles stopped : List Nat) : Prop where
  slots : e.slots.length = e.total
  returned : ∀ i, launched.count i = handles.count i + (underway e.calls).count i
  hooks : ∀ i, handles.count i =
    e.held.count i + (doomed e.calls).count i + stopped.count i

theorem hooked_new (id : ExecutionId) (q : Query) (subs : List Query) (w : Nat)
    (merger : Merger V) : Hooked (new id q subs w merger) [] [] [] where
  slots := List.length_replicate
  returned := by
    intro i
    rfl
  hooks := by
    intro i
    rw [count_held]
    simp [new, doomed, List.getElem?_replicate]

theorem Hooked.of_same (h : Hooked e launched handles stopped)
    (hu : underway e'.calls = underway e.calls) (hd : doomed e'.calls = doomed e.calls)
    (hs : e'.slots = e.slots) (ht : e'.total = e.total) :
    Hooked e' launched handles stopped where
  slots := by rw [hs, ht, h.slots]
  returned := by
    intro i
    rw [hu, h.returned]
  hooks := by
    intro i
    rw [hd, held_of_slots hs, h.hooks]

theorem held_stopWith (error : ShardingError) (e : Execution V) :
    (e.stopWith error).1.held = [] := by
  rw [List.eq_nil_iff_forall_not_mem]
  intro i hi
  rw [mem_held, stopWith_fst] at hi
  obtain ⟨_, _, hb⟩ := Option.map_eq_some_iff.1 (List.getElem?_map.symm.trans hi)
  cases hb

theorem underway_stopWith (error : ShardingError) (e : Execution V) :
    underway (e.stopWith error).1.calls = underway e.calls :=
  filterMap_calls_stopWith_of (fun _ => rfl) error e

theorem hooked_stopWith (error : ShardingError) (h : Hooked e launched handles stopped) :
    Hooked (e.stopWith error).1 launched handles stopped where
  slots := by
    rw [stopWith_fst]
    exact (List.length_map _).trans h.slots
  returned := by
    intro i
    rw [underway_stopWith, h.returned]
  hooks := by
    intro i
    rw [held_stopWith, doomed, filterMap_calls_stopWith, h.hooks]
    simp [Frame.stop?, doomed]

theorem hooked_succeed (i : Nat) (v : V) (h : Hooked e launched handles stopped) :
    Hooked (e.succeed i v) launched handles stopped :=
  h.of_same (filterMap_calls_succeed (fun _ => rfl) (fun _ => rfl) i v e)
    (filterMap_calls_succeed (fun _ => rfl) (fun _ => rfl) i v e) (slots_succeed i v e)
    (total_of_plan (plan_succeed i v e))

theorem hooked_fail (i : Nat) (error : QueryError) (h : Hooked e launched handles stopped) :
    Hooked (e.fail i error).1 launched handles stopped := by
  rcases fail_cases i error e with ⟨_, hs⟩ | ⟨_, hs⟩
  · rwa [hs]
  · rw [hs]
    exact hooked_stopWith _ h

theorem hooked_complete (i : Nat) (r : SubResult V) (h : Hooked e launched handles stopped) :
    Hooked (e.complete i r).1 launched handles stopped := by
  cases r with
  | ok v => exact hooked_succeed i v h
  | error error => exact hooked_fail i error h

theorem hooked_fillNext {s : List (Frame V)} (h : Hooked e launched handles stopped)
    (hc : e.calls = .fill :: s) : Hooked e.fillNext launched handles stopped :=
  h.of_same (filterMap_calls_fillNext (fun _ => rfl) rfl hc)
    (filterMap_calls_fillNext (fun _ => rfl) rfl hc) (by rw [fillNext_frame])
    (total_of_plan (plan_fillNext e))

/-- The handle that comes back is the first one of its sub query, so its place is free. -/
theorem hooked_attach {s : List (Frame V)} (r : Option (SubResult V))
    (h : Hooked e launched handles stopped) (hl : Lined e launched)
    (hc : e.calls = .dispatching i :: s) :
    Hooked (e.attach i r) launched (handles ++ [i]) stopped := by
  have hu (j : Nat) : (underway e.calls).count j = (underway s).count j + [i].count j := by
    rw [hc]
    exact count_cons_eq i j (underway s)
  have hdm : doomed e.calls = doomed s := by
    rw [hc]
    rfl
  have hi : i ∈ launched := by
    apply List.count_pos_iff.1
    have := h.returned i
    have := hu i
    rw [List.count_singleton_self] at this
    omega
  have hfree : e.held.count i = 0 := by
    have := List.nodup_iff_count.1 (dispatches_nodup hl) i
    have := h.returned i
    have := h.hooks i
    have := hu i
    rw [List.count_singleton_self] at this
    omega
  have hlt : i < e.slots.length := h.slots ▸ lt_total_of_mem hl hi
  rw [attach_eq, hc]
  cases hd : e.isCompleted with
  | true =>
    refine ⟨h.slots, ?_, ?_⟩
    · intro j
      have := h.returned j
      have := hu j
      simp only [List.count_append, if_true, List.singleton_append, List.tail_cons]
      change _ = _ + (underway s).count j
      omega
    · intro j
      have := h.hooks j
      rw [hdm] at this
      change _ = e.held.count j + (i :: doomed s).count j + _
      rw [List.count_append, count_cons_eq i j (doomed s)]
      omega
  | false =>
    refine ⟨?_, ?_, ?_⟩
    · exact List.length_set.trans h.slots
    · intro j
      have := h.returned j
      have := hu j
      rw [List.count_append]
      change _ = _ + (underway s).count j
      omega
    · intro j
      have := h.hooks j
      rw [hdm] at this
      rw [List.count_append, count_held_set hlt hfree rfl j]
      change _ = _ + (doomed s).count j + _
      omega

theorem stops_deliver (o : Outcome V) (e : Execution V) : stops (e.deliver o).2 = [] :=
  filterMap_events_deliver (fun _ => rfl) o e

theorem stops_stopWith (error : ShardingError) (e : Execution V) :
    stops (e.stopWith error).2 = [] :=
  filterMap_events_stopWith (fun _ => rfl) rfl error e

theorem stops_complete (i : Nat) (r : SubResult V) (e : Execution V) :
    stops (e.complete i r).2 = [] :=
  filterMap_events_complete (fun _ => rfl) rfl i r e

/-- A step in which no dispatch, no handle and no hook has its turn. -/
theorem Hooked.silent (h : Hooked e launched handles stopped) (hd : dispatches events = [])
    (hr : e₀.handle? m = none) (hs : stops events = []) :
    Hooked e (launched ++ dispatches events) (handles ++ (e₀.handle? m).toList)
      (stopped ++ stops events) := by
  rw [hd, hr, hs]
  simpa using h

theorem hooked_launch {s : List (Frame V)} (h : Hooked e launched handles stopped)
    (hc : e.calls = .launch i :: s) :
    Hooked { e with calls := .dispatching i :: s } (launched ++ [i]) handles stopped where
  slots := h.slots
  returned := by
    intro j
    have := h.returned j
    rw [hc] at this
    rw [List.count_append]
    change _ = _ + (i :: underway s).count j
    rw [count_cons_eq i j (underway s)]
    change _ = _ + (underway s).count j at this
    omega
  hooks := by
    intro j
    have := h.hooks j
    rw [hc] at this
    exact this

theorem hooked_stop {s : List (Frame V)} (h : Hooked e launched handles stopped)
    (hc : e.calls = .stop i :: s) :
    Hooked { e with calls := .stopping i :: s } launched handles (stopped ++ [i]) where
  slots := h.slots
  returned := by
    intro j
    have := h.returned j
    rw [hc] at this
    exact this
  hooks := by
    intro j
    have := h.hooks j
    rw [hc] at this
    change _ = _ + (i :: doomed s).count j + _ at this
    rw [count_cons_eq i j (doomed s)] at this
    rw [List.count_append]
    change _ = e.held.count j + (doomed s).count j + _
    omega

theorem hooked_step (h : Hooked e launched handles stopped) (hl : Lined e launched)
    (hs : e.step m = some (e', events)) :
    Hooked e' (launched ++ dispatches events) (handles ++ (e.handle? m).toList)
      (stopped ++ stops events) := by
  cases transition_of_step hs with
  | @launch i s hc hd =>
    change Hooked _ (launched ++ [i]) (handles ++ []) (stopped ++ [])
    simpa using hooked_launch h hc
  | @stop i s hc =>
    change Hooked _ (launched ++ []) (handles ++ []) (stopped ++ [i])
    simpa using hooked_stop h hc
  | @handed i r s hc =>
    have hr : e.handle? (.handed r) = some i := by simp [handle?, hc]
    rw [hr]
    simpa [dispatches, stops] using hooked_attach r h hl hc
  | cancel hw =>
    exact (hooked_stopWith _ h).silent (dispatches_stopWith ..) rfl (stops_stopWith ..)
  | success hw => exact (hooked_succeed _ _ h).silent rfl rfl rfl
  | @failure i error hw =>
    exact (hooked_fail i error h).silent (dispatches_complete i (.error error) e) rfl
      (stops_complete i (.error error) e)
  | fill hc => exact (hooked_fillNext h hc).silent rfl rfl rfl
  | skip hc | stopped hc =>
    have hu := filterMap_calls_pop (φ := Frame.dispatching?) hc rfl
    have hd := filterMap_calls_pop (φ := Frame.stop?) hc rfl
    exact Hooked.silent (h.of_same hu hd rfl rfl) rfl rfl rfl
  | combine hc =>
    refine Hooked.silent (h.of_same ?_ ?_ rfl rfl) rfl rfl rfl
    · rw [hc]
      rfl
    · rw [hc]
      rfl
  | combined hc =>
    refine Hooked.silent ?_ (dispatches_deliver ..) rfl (stops_deliver ..)
    rw [deliver_fst]
    exact h.of_same (filterMap_calls_pop hc rfl) (filterMap_calls_pop hc rfl) rfl rfl
  | @receive i r rest hc hr hi =>
    have he : Hooked { e with inbox := rest } launched handles stopped := h.of_same rfl rfl rfl rfl
    exact (hooked_complete i r he).silent (dispatches_complete ..) rfl (stops_complete ..)
  | start | resolve | abandon | forward | retire | halt =>
    exact Hooked.silent (h.of_same rfl rfl rfl rfl) rfl rfl rfl

theorem hooked_of_trace (h : Trace step e₀ ms e events) (h₀ : Lined e₀ [])
    (hk : Hooked e₀ [] [] []) :
    Hooked e (dispatches events) (along step handle? e₀ ms) (stops events) := by
  induction h with
  | refl => exact hk
  | snoc ht hs ih =>
    rw [dispatches_append, stops_append, ht.along_snoc hs]
    exact hooked_step ih (lined_of_trace ht h₀) hs

/-- A cancellation was called for, from outside or by a failure. -/
def Swept (ms : List (Move V)) (e : Execution V) : Prop :=
  .cancel ∈ ms ∨ ∃ i order error, e.outcome = some (.error (.subQuery i order error))

/-- A step that is neither a cancellation nor a failure that counts. It stores no hook once there is
an outcome. -/
structure Spares (e : Execution V) (m : Move V) (e' : Execution V) : Prop where
  move : m ≠ .cancel
  failure : ∀ i order error, e'.outcome = some (.error (.subQuery i order error)) →
    e.outcome = e'.outcome
  held : e.isCompleted = true → e'.isCompleted = true ∧ e'.held = e.held

theorem spares_of_same (hm : m ≠ .cancel) (ho : e'.outcome = e.outcome)
    (hs : e.isCompleted = true → e'.slots = e.slots) : Spares e m e' := by
  refine ⟨hm, fun _ _ _ _ => ho.symm, ?_⟩
  intro hd
  refine ⟨?_, held_of_slots (hs hd)⟩
  rw [isCompleted, ho]
  exact hd

theorem sweeps_stopWith (error : ShardingError) (e : Execution V) :
    (e.stopWith error).1.isCompleted = true ∧ (e.stopWith error).1.held = [] := by
  refine ⟨?_, held_stopWith error e⟩
  rw [stopWith_fst]
  rfl

theorem sweeps_or_spares_fail (error : QueryError) {e₁ : Execution V} (hm : m ≠ .cancel)
    (ho : e₁.outcome = e.outcome) (hs : e₁.slots = e.slots) :
    (e₁.fail i error).1.isCompleted = true ∧ (e₁.fail i error).1.held = [] ∨
      Spares e m (e₁.fail i error).1 := by
  rcases fail_cases i error e₁ with ⟨_, hf⟩ | ⟨_, hf⟩
  · rw [hf]
    exact .inr (spares_of_same hm ho fun _ => hs)
  · rw [hf]
    exact .inl (sweeps_stopWith _ e₁)

theorem sweeps_or_spares (h : e.step m = some (e', events)) :
    e'.isCompleted = true ∧ e'.held = [] ∨ Spares e m e' := by
  by_cases hm : m = .cancel
  · subst m
    cases transition_of_step h with
    | cancel hy => exact .inl (sweeps_stopWith _ e)
  · cases transition_of_step h with
    | cancel hy => exact (hm rfl).elim
    | success hy => exact .inr (spares_of_same hm (outcome_succeed ..) fun _ => slots_succeed ..)
    | failure hy => exact sweeps_or_spares_fail _ hm rfl rfl
    | fill hc =>
      exact .inr (spares_of_same hm (outcome_fillNext e) fun _ => by rw [fillNext_frame])
    | handed hc =>
      refine .inr (spares_of_same hm (outcome_attach ..) fun hd => ?_)
      rw [attach_eq, if_pos hd]
    | @combined rs result s hc =>
      rw [deliver_fst]
      refine .inr ⟨hm, ?_, fun hd => ⟨rfl, held_of_slots rfl⟩⟩
      intro i order error ho
      cases hd : e.outcome with
      | some o => simp [pop, hd]
      | none => cases result <;> simp [pop, hd, Merged.result, Except.mapError] at ho
    | @receive i r rest hc hr hi =>
      cases r with
      | ok v => exact .inr (spares_of_same hm (outcome_succeed ..) fun _ => slots_succeed ..)
      | error error =>
        change (fail i error { e with inbox := rest }).1.isCompleted = true ∧
          (fail i error { e with inbox := rest }).1.held = [] ∨
            Spares e .receive (fail i error { e with inbox := rest }).1
        exact sweeps_or_spares_fail error hm rfl rfl
    | start | skip | launch | combine | stop | stopped | resolve | abandon | forward | retire
      | halt => exact .inr (spares_of_same hm rfl fun _ => rfl)

/-- No hook is left behind by a sweep, and none is stored after it. -/
theorem swept_step (h : Swept ms e → e.isCompleted = true ∧ e.held = [])
    (hs : e.step m = some (e', events)) (hw : Swept (ms ++ [m]) e') :
    e'.isCompleted = true ∧ e'.held = [] := by
  rcases sweeps_or_spares hs with hk | hk
  · exact hk
  · have hb : Swept ms e := by
      rcases hw with hw | ⟨i, order, error, hw⟩
      · rcases List.mem_append.1 hw with hw | hw
        · exact .inl hw
        · exact (hk.move (List.mem_singleton.1 hw).symm).elim
      · exact .inr ⟨i, order, error, (hk.failure i order error hw).trans hw⟩
    obtain ⟨hd, hn⟩ := h hb
    obtain ⟨hd', hn'⟩ := hk.held hd
    exact ⟨hd', hn'.trans hn⟩

theorem swept_of_trace (h : Trace step e₀ ms e events) (h₀ : e₀.outcome = none) :
    Swept ms e → e.isCompleted = true ∧ e.held = [] := by
  induction h with
  | refl =>
    rintro (hw | ⟨i, order, error, hw⟩)
    · cases hw
    · rw [h₀] at hw
      cases hw
  | snoc ht hs ih =>
    intro hw
    exact swept_step ih hs hw

/-- A cancel hook is called once at most, and only for a handle that was returned. Once the
execution was cancelled or has failed, and nothing is at work in it, every handle's hook has been
called. -/
theorem cancels_each_handle_once {id : ExecutionId} {q : Query} {subs : List Query} {w : Nat}
    {merger : Merger V} (h : (new id q subs w merger).run ms = some (e, events)) :
    let handles := along step handle? (new id q subs w merger) ms
    handles.Nodup ∧ (stops events).Nodup ∧ stops events ⊆ handles ∧
      (e.calls = [] → Swept ms e → (stops events).Perm handles) := by
  intro handles
  have ht := Trace.of_run h
  have h₀ := lined_new id q subs w merger
  have hl := List.nodup_iff_count.1 (dispatches_nodup (lined_of_trace ht h₀))
  have hk : Hooked e (dispatches events) handles (stops events) :=
    hooked_of_trace ht h₀ (hooked_new id q subs w merger)
  have hc (i : Nat) : (stops events).count i ≤ handles.count i ∧ handles.count i ≤ 1 := by
    have := hl i
    have := hk.returned i
    have := hk.hooks i
    omega
  refine ⟨?_, ?_, ?_, ?_⟩
  · rw [List.nodup_iff_count]
    intro i
    exact (hc i).2
  · rw [List.nodup_iff_count]
    intro i
    exact Nat.le_trans (hc i).1 (hc i).2
  · intro i hi
    have := List.count_pos_iff.2 hi
    exact List.count_pos_iff.1 (Nat.lt_of_lt_of_le this (hc i).1)
  · intro hq hw
    have hn := (swept_of_trace ht rfl hw).2
    rw [List.perm_iff_count]
    intro i
    have := hk.hooks i
    rw [hn, hq] at this
    simpa [doomed] using this.symm

/-- The first handle comes back after a cancellation, and only then. -/
theorem cancels_each_handle_once_late :
    ∃ e events, sample.run [.start, .resume, .resume, .cancel, .handed none, .resume, .stopped,
        .resume] = some (e, events) ∧ (stops events).Perm [0] := by
  obtain ⟨⟨e, events⟩, h⟩ : ∃ t, sample.run [.start, .resume, .resume, .cancel, .handed none,
    .resume, .stopped, .resume] = some t := ⟨_, rfl⟩
  obtain ⟨_, _, _, hp⟩ := cancels_each_handle_once h
  have hc : e.calls = [] := by
    cases h
    rfl
  exact ⟨e, events, h, hp hc (.inl (by simp))⟩

end Execution
end ScatterGather
