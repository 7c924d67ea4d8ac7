import ScatterGather.Proofs.Execution.Filling
import ScatterGather.Proofs.Execution.Merging

/-! An execution without an outcome in which no task can run waits for a handle, and has counted
every result that has come in. -/
namespace ScatterGather

variable {V : Type}

/-- The result that a watcher holds, with its sub query. -/
def Watcher.held? (w : Watcher V) : Option (Nat × SubResult V) := w.result.map fun r => (w.index, r)

namespace Execution

variable {e e' e₀ : Execution V} {m : Move V} {ms : List (Move V)} {events : List (Event V)}
  {launched reported : List Nat}

/-- The handle that a move resolves, with its result. It may come back resolved. -/
def resolved? (e : Execution V) : Move V → Option (Nat × SubResult V)
  | .handed r =>
    match e.calls with
    | .dispatching i :: _ => r.map fun r => (i, r)
    | _ => none
  | .resolve i r => some (i, r)
  | _ => none

/-- No call is in progress, and no task can move. -/
structure Still (e : Execution V) : Prop where
  calls : e.calls = []
  forward : ∀ i, e.step (.forward i) = none
  retire : ∀ i, e.step (.retire i) = none
  receive : e.step .receive = none
  halt : e.step .halt = none

/-- The results that have come in, and that the driver has not taken yet. -/
def coming (e : Execution V) : List (Nat × SubResult V) :=
  e.watchers.filterMap Watcher.held? ++ e.inbox

theorem coming_of_shared (h : e'.shared = e.shared) : e'.coming = e.coming := by
  simp only [shared, Prod.mk.injEq] at h
  obtain ⟨_, hi, hw, _⟩ := h
  simp only [coming, hi, hw]

theorem perm_cons_eraseP {α : Type} {p : α → Bool} {l : List α} {a : α} (h : l.find? p = some a) :
    l.Perm (a :: l.eraseP p) := by
  induction l with
  | nil => cases h
  | cons b l ih =>
    by_cases hb : p b = true
    · obtain rfl : b = a := by simpa [hb] using h
      simp [hb]
    · have hl : l.find? p = some a := by simpa [hb] using h
      simp only [List.eraseP_cons_of_neg hb]
      exact ((ih hl).cons b).trans (.swap a b _)

theorem held_settle {i : Nat} {r : SubResult V} {w : Watcher V} {ws : List (Watcher V)}
    (hf : ws.find? (fun w => w.index = i) = some w) (hr : w.result = none) :
    ((settle i r ws).filterMap Watcher.held?).Perm ((i, r) :: ws.filterMap Watcher.held?) := by
  induction ws with
  | nil => cases hf
  | cons w' ws ih =>
    by_cases hi : w'.index = i
    · obtain rfl : w' = w := by simpa [hi] using hf
      simp [settle, Watcher.held?, hi, hr]
    · have hf' : ws.find? (fun w => w.index = i) = some w := by simpa [hi] using hf
      have hs : settle i r (w' :: ws) = w' :: settle i r ws := by simp [settle, hi]
      rw [hs]
      cases hh : w'.held? with
      | none => simpa [hh] using ih hf'
      | some p =>
        simp only [List.filterMap_cons_some hh]
        exact ((ih hf').cons p).trans (.swap (i, r) p _)

/-- A result that is passed on goes to the end of the inbox. -/
theorem coming_forward {i : Nat} {r : SubResult V} (h : e.watcher? i = some ⟨i, some r⟩) :
    ({ e.unwatch i with inbox := e.inbox ++ [(i, r)] } : Execution V).coming.Perm e.coming := by
  have hw : (e.watchers.filterMap Watcher.held?).Perm
      ((i, r) :: (e.unwatch i).watchers.filterMap Watcher.held?) :=
    (perm_cons_eraseP h).filterMap Watcher.held?
  change ((e.unwatch i).watchers.filterMap Watcher.held? ++ (e.inbox ++ [(i, r)])).Perm _
  rw [← List.append_assoc]
  exact (List.perm_append_singleton ..).trans (hw.append_right e.inbox).symm

/-- While there is no outcome, a result that has come in is on its way to the driver until it is
reported. -/
theorem coming_step (h : Piped e launched reported) (hm : m.isReport = false)
    (hs : e.step m = some (e', events)) (hd : e'.isCompleted = false) :
    ((e.report? m).toList ++ e'.coming).Perm ((e.resolved? m).toList ++ e.coming) := by
  have quiet {m : Move V} {e' : Execution V} (hr : e.report? m = none) (hx : e.resolved? m = none)
      (hc : e'.coming = e.coming) :
      ((e.report? m).toList ++ e'.coming).Perm ((e.resolved? m).toList ++ e.coming) := by
    simp [hr, hx, hc]
  have hopen := open_of_step hs hd
  cases transition_of_step hs with
  | success | failure => cases hm
  | cancel hy => exact quiet rfl rfl (coming_of_shared (shared_stopWith ..))
  | fill hc => exact quiet rfl rfl (coming_of_shared (shared_fillNext e))
  | combined hc => exact quiet rfl rfl (by simp [deliver_fst, coming, pop])
  | @handed i r s hc =>
    have hx : e.resolved? (.handed r) = (⟨i, r⟩ : Watcher V).held? := by
      simp [resolved?, hc, Watcher.held?]
    have ha : (e.attach i r).coming =
        e.watchers.filterMap Watcher.held? ++ (⟨i, r⟩ : Watcher V).held?.toList ++ e.inbox := by
      cases r <;> simp [attach_eq, coming, Watcher.held?]
    rw [ha, hx]
    change (e.watchers.filterMap Watcher.held? ++ _ ++ e.inbox).Perm _
    rw [coming, ← List.append_assoc]
    exact List.perm_append_comm.append_right _
  | @resolve i r hy hl =>
    unfold listens at hl
    split at hl
    · have hw := held_settle (r := r) ‹_› (Option.isNone_iff_eq_none.1 hl)
      exact hw.append_right e.inbox
    · cases hl
  | @forward i j r hc hw =>
    obtain rfl : j = i := index_of_watcher? hw
    have hf : e.driver ≠ .finished := by
      intro hf
      have hx := h.finished hf
      rw [hopen] at hx
      cases hx
    rw [if_neg hf]
    exact coming_forward hw
  | retire hc hw hx | halt hc hr hx =>
    rw [hopen] at hx
    cases hx
  | @receive i r rest hc hr hi =>
    have ht := coming_of_shared (shared_complete i r { e with inbox := rest })
    rw [report?_receive hi, ht]
    change ((i, r) :: (e.watchers.filterMap Watcher.held? ++ rest)).Perm e.coming
    rw [coming, hi]
    exact List.perm_middle.symm
  | start | skip | launch | combine | stop | stopped | abandon => exact quiet rfl rfl rfl

theorem coming_of_trace (h : Trace step e₀ ms e events) (hp : Piped e₀ [] []) (h₀ : e₀.coming = [])
    (hm : ∀ m ∈ ms, m.isReport = false) (hd : e.isCompleted = false) :
    (along step report? e₀ ms ++ e.coming).Perm (along step resolved? e₀ ms) := by
  induction h with
  | refl => exact .of_eq h₀
  | @snoc ms e es m e' es' ht hs ih =>
    have hm' : ∀ m ∈ ms, m.isReport = false := fun m hx => hm m (List.mem_append_left _ hx)
    have hstep := coming_step (piped_of_trace ht hp hm') (hm m (by simp)) hs hd
    have hprev := ih hm' (open_of_step hs hd)
    have hx : (along step report? e₀ ms ++ ((e.report? m).toList ++ e'.coming)).Perm
        (along step report? e₀ ms ++ (e.coming ++ (e.resolved? m).toList)) :=
      (hstep.trans List.perm_append_comm).append_left _
    rw [ht.along_snoc hs, ht.along_snoc hs, List.append_assoc]
    rw [← List.append_assoc _ e.coming] at hx
    exact hx.trans (hprev.append_right _)

theorem ok_of_mem_along (h : Trace step e₀ ms e events) (hd : e.isCompleted = false) :
    ∀ p ∈ along step report? e₀ ms, ∃ v, p.2 = .ok v := by
  induction h with
  | refl =>
    intro p hp
    cases hp
  | @snoc ms e es m e' es' ht hs ih =>
    intro p hp
    rw [ht.along_snoc hs] at hp
    rcases List.mem_append.1 hp with hp | hp
    · exact ih (open_of_step hs hd) p hp
    · exact ok_of_open hs hd (i := p.1) (Option.mem_toList.1 hp)

/-- In an orderly run without an outcome every report is a success that is applied. -/
theorem accepted_of_open (h : Trace step e₀ ms e events) (h₀ : Lined e₀ [])
    (hc : Collected e₀ [] []) (hz : e₀.succeeded = 0) (ho : Orderly e₀ ms)
    (hd : e.isCompleted = false) :
    along step accepted? e₀ ms = reports e₀ ms := by
  induction h with
  | refl => rfl
  | @snoc ms e es m e' es' ht hs ih =>
    have hd₀ := open_of_step hs hd
    obtain ⟨ho, hl⟩ := (orderly_snoc ht).1 ho
    have hsame := ih ho hd₀
    rw [ht.along_snoc hs, reports_snoc ht hs, hsame]
    cases hr : e.report? m with
    | none => simp [accepted?, hr]
    | some p =>
      obtain ⟨i, r⟩ := p
      obtain ⟨hi, hx⟩ := hl i r hr
      obtain ⟨v, rfl⟩ := ok_of_open hs hd hr
      have hlt : i < e.total := lt_total_of_mem (lined_of_trace ht h₀) hi
      have hkeys : (along step admitted? e₀ ms).map Prod.fst = reports e₀ ms :=
        (map_along_admitted? ht).trans hsame
      have hlacks : e.lacks i = true := by
        cases collected_of_trace ht hc hz with
        | filling _ _ _ results _ =>
          rw [lacks_of_results results, hkeys]
          exact ⟨hlt, hx⟩
        | full complete _ _ _ _ _ =>
          exfalso
          exact hx (hkeys ▸ complete i hlt)
      simp [accepted?_of_ok hr, hd₀, hlacks]

theorem driver_step (hs : e.step m = some (e', events)) (h : e.driver ≠ .idle) :
    e'.driver ≠ .idle := by
  have same {e' : Execution V} (ht : e'.shared = e.shared) : e'.driver ≠ .idle := by
    simp only [shared, Prod.mk.injEq] at ht
    simpa [ht.1] using h
  cases transition_of_step hs with
  | start hy => simp [start, h]
  | cancel hy => exact same (shared_stopWith ..)
  | success hy => exact same (shared_complete _ (.ok _) e)
  | failure hy => exact same (shared_complete _ (.error _) e)
  | fill hc => exact same (shared_fillNext e)
  | handed hc => simpa [attach_eq] using h
  | combined hc => exact same (by rw [deliver_fst]; rfl)
  | @receive i r rest hc hr hi =>
    have ht := shared_complete i r { e with inbox := rest }
    simp only [shared, Prod.mk.injEq] at ht
    simpa [ht.1] using h
  | halt hc hr hd =>
    intro hx
    cases hx
  | skip | launch | combine | stop | stopped | resolve | abandon | forward | retire => exact h

theorem driver_of_trace (h : Trace step e₀ ms e events) (hm : .start ∈ ms) : e.driver ≠ .idle := by
  induction h with
  | refl => cases hm
  | snoc ht hs ih =>
    rcases List.mem_append.1 hm with hm | hm
    · exact driver_step hs (ih hm)
    · obtain rfl := List.mem_singleton.1 hm
      cases transition_of_step hs with
      | start hy =>
        simp only [start]
        split
        · exact nofun
        · assumption

theorem driver_running (h : Trace step e₀ ms e events) (hs : .start ∈ ms)
    (hp : Piped e launched reported) (hd : e.isCompleted = false) : e.driver = .running := by
  cases hx : e.driver with
  | idle => exact (driver_of_trace h hs hx).elim
  | running => rfl
  | finished =>
    rw [hp.finished hx] at hd
    cases hd

/-- Between calls every dispatch has returned its handle. -/
theorem launched_subset_handles {handles stopped : List Nat}
    (h : Hooked e launched handles stopped) (hc : e.calls = []) : launched ⊆ handles := by
  intro i hi
  have hk := h.returned i
  have hpos := List.count_pos_iff.2 hi
  rw [hc] at hk
  exact List.count_pos_iff.1 (by simpa [hk, underway] using hpos)

/-- A sub query has one watcher at most. -/
theorem watchers_nodup (h : Piped e launched reported) (hn : launched.Nodup) :
    (e.watchers.map fun w => w.index).Nodup := by
  rw [List.nodup_iff_count]
  intro i
  have := List.nodup_iff_count.1 hn i
  have := h.bound i
  have := count_pending e i
  omega

theorem watcher?_of_mem {w : Watcher V} (hn : (e.watchers.map fun w => w.index).Nodup)
    (hw : w ∈ e.watchers) : e.watcher? w.index = some w := by
  obtain ⟨w', hf⟩ : ∃ w', e.watcher? w.index = some w' :=
    Option.isSome_iff_exists.1 (List.find?_isSome.2 ⟨w, hw, by simp⟩)
  have hx : w'.index = w.index := index_of_watcher? hf
  obtain rfl : w' = w := List.inj_on_of_nodup_map hn (List.mem_of_find?_eq_some hf) hw hx
  exact hf

theorem coming_of_still (h : Still e) (hn : (e.watchers.map fun w => w.index).Nodup)
    (hr : e.driver = .running) : e.coming = [] := by
  have hi : e.inbox = [] := inbox_of_receive h.calls hr h.receive
  have hw : ∀ w ∈ e.watchers, w.held? = none := by
    intro w hw
    have hf := watcher?_of_mem hn hw
    obtain ⟨i, _ | r⟩ := w
    · rfl
    · have hstep := h.forward i
      simp [step, h.calls, hf] at hstep
  simp [coming, hi, List.filterMap_eq_nil_iff.2 hw]

/-- When nothing is left to do, all results that have come in were reported. -/
theorem reported_of_still (ht : Trace step e₀ ms e events) (h₀ : Lined e₀ []) (hp : Piped e₀ [] [])
    (hc : e₀.coming = []) (hs : .start ∈ ms) (hm : ∀ m ∈ ms, m.isReport = false)
    (hq : Still e) (hd : e.isCompleted = false) :
    (along step report? e₀ ms).Perm (along step resolved? e₀ ms) := by
  have hpiped := piped_of_trace ht hp hm
  have hn := watchers_nodup hpiped (dispatches_nodup (lined_of_trace ht h₀))
  have hall := coming_of_trace ht hp hc hm hd
  simpa [coming_of_still hq hn (driver_running ht hs hpiped hd)] using hall

/-- With all handles that are watched unresolved, there is nothing to do. -/
theorem still_of_unresolved (hc : e.calls = []) (hd : e.isCompleted = false)
    (hw : ∀ w ∈ e.watchers, w.result = none) (hi : e.inbox = []) : Still e := by
  refine ⟨hc, ?_, ?_, ?_, ?_⟩
  · intro i
    cases hf : e.watcher? i with
    | none => simp [step, hc, hf]
    | some w =>
      obtain ⟨j, r⟩ := w
      obtain rfl : r = none := hw _ (List.mem_of_find?_eq_some hf)
      simp [step, hc, hf]
  · intro i
    cases hf : e.watcher? i <;> simp [step, hc, hf, hd]
  · simp [step, hc, hi]
  · cases hr : e.driver <;> simp [step, hc, hr, hd]

/-- Without an outcome and with no call in progress, some sub query has not succeeded. -/
theorem succeeded_lt_of_open (ht : Trace step e₀ ms e events) (hc : Collected e₀ [] [])
    (hz : e₀.succeeded = 0) (h : e.calls = []) (hd : e.isCompleted = false) (hn : 0 < e.total) :
    e.succeeded < e.total := by
  have hs := length_admitted ht hz
  cases collected_of_trace ht hc hz with
  | filling _ _ missing _ _ => exact hs ▸ missing hn
  | full _ _ _ _ _ merging =>
    exfalso
    apply merging hd
    simp [h, combines]

/-- Whatever the window, and in whatever order handles resolve: when an execution has been
started, has no outcome and nothing is left to do in it, some handle has not resolved. All others
have resolved with a value, and all of these have been counted. -/
theorem waits_for_handle {id : ExecutionId} {q : Query} {subs : List Query} {w : Nat}
    {merger : Merger V} (h : (new id q subs w merger).run ms = some (e, events))
    (hn : subs ≠ []) (hs : .start ∈ ms) (hm : ∀ m ∈ ms, m.isReport = false)
    (hq : Still e) (hd : e.isCompleted = false) :
    let handles := along step handle? (new id q subs w merger) ms
    let resolved := along step resolved? (new id q subs w merger) ms
    (∃ i ∈ handles, i ∉ resolved.map Prod.fst) ∧
      (resolved.map Prod.fst).Nodup ∧ resolved.map Prod.fst ⊆ handles ∧
      (∀ p ∈ resolved, ∃ v, p.2 = .ok v) ∧ e.succeeded = resolved.length := by
  intro handles resolved
  have ht := Trace.of_run h
  have h₀ := lined_new id q subs w merger
  have hp := piped_new id q subs w merger
  have hc := collected_new id q subs w merger
  have ho := orderly_of_trace ht h₀ hp hm
  have hlen : 0 < subs.length := List.length_pos_iff.2 hn
  have htotal : e.total = subs.length := total_of_plan (plan_of_trace ht)
  have hall : (along step report? (new id q subs w merger) ms).Perm resolved :=
    reported_of_still ht h₀ hp rfl hs hm hq hd
  have hkeys : (reports (new id q subs w merger) ms).Perm (resolved.map Prod.fst) :=
    hall.map Prod.fst
  have haccepted := accepted_of_open ht h₀ hc rfl ho hd
  obtain ⟨hdistinct, hsub⟩ := reports_of_orderly ht ho
  have hhandles : dispatches events ⊆ handles :=
    launched_subset_handles (hooked_of_trace ht h₀ (hooked_new id q subs w merger)) hq.calls
  refine ⟨?_, hkeys.nodup_iff.1 hdistinct, ?_, ?_, ?_⟩
  · have hlt := succeeded_lt_of_open ht hc rfl hq.calls hd (htotal ▸ hlen)
    have hwait := length_unanswered_of_filled ht ho hs hq.calls hd
    have hearly := early_lt_window ht ho hlen
    have hpos : 0 < (unanswered (new id q subs w merger) ms events).length := by omega
    obtain ⟨i, hi⟩ := List.exists_mem_of_length_pos hpos
    simp only [unanswered, List.mem_filter, decide_eq_true_eq, haccepted] at hi
    exact ⟨i, hhandles hi.1, fun hx => hi.2 (hkeys.mem_iff.2 hx)⟩
  · intro i hi
    exact hhandles (hsub (hkeys.mem_iff.2 hi))
  · intro p hp
    exact ok_of_mem_along ht hd p (hall.mem_iff.2 hp)
  · have := succeeded_of_trace ht rfl
    rw [this, haccepted, reports, List.length_map, hall.length_eq]

/-- The first handle comes back resolved, the second one resolves later, the third one never. -/
def patient : List (Move Nat) :=
  [.start, .resume, .resume, .handed (some (.ok 5)), .resume, .resume, .handed none, .resume,
    .forward 0, .receive, .resume, .handed none, .resolve 1 (.ok 7), .forward 1, .receive]

theorem waits_for_handle_patient : ∃ e events, sample.run patient = some (e, events) ∧
    (∃ i ∈ along step handle? sample patient,
      i ∉ (along step resolved? sample patient).map Prod.fst) ∧
      along step resolved? sample patient = [(0, .ok 5), (1, .ok 7)] ∧ e.succeeded = 2 := by
  obtain ⟨⟨e, events⟩, h⟩ : ∃ t, sample.run patient = some t := ⟨_, rfl⟩
  have he : e.isCompleted = false ∧ e.calls = [] ∧ e.watchers = [⟨2, none⟩] ∧ e.inbox = [] := by
    cases h
    exact ⟨rfl, rfl, rfl, rfl⟩
  obtain ⟨hd, hc, hw, hi⟩ := he
  have hq : Still e := still_of_unresolved hc hd (by simp [hw]) hi
  obtain ⟨hw, _, _, _, hs⟩ :=
    waits_for_handle h (List.cons_ne_nil _ _) (List.mem_cons_self ..) (by decide) hq hd
  exact ⟨e, events, h, hw, rfl, hs⟩

end Execution
end ScatterGather
