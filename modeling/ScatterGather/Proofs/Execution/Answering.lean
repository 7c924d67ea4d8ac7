import ScatterGather.Proofs.Execution.Quiescence

/-! Runs in which every sub query comes to its answer, a value or an error, whenever that is: which
outcomes there can be, and that one is reached. -/
namespace ScatterGather

variable {V : Type}

def Frame.halting? : Frame V → Option Nat
  | .stop i => some i
  | .stopping i => some i
  | _ => none

/-- Sub queries whose cancel hook is about to be called, or at work. -/
def halting (fs : List (Frame V)) : List Nat := fs.filterMap Frame.halting?

namespace Execution

variable {a : Nat → SubResult V} {c : Prop} {e e' e₀ : Execution V} {m : Move V}
  {ms : List (Move V)} {events : List (Event V)} {launched : List Nat}

/-- What may happen while the sub queries come to the answers `a` and the merger does its work:
handles resolve to nothing else before there is an outcome, only the driver reports, and nobody
cancels unless `c`. -/
def Answers (a : Nat → SubResult V) (c : Prop) (e : Execution V) : Move V → Prop
  | .handed r => ∀ i s, e.calls = .dispatching i :: s → r = none ∨ r = some (a i)
  | .resolve i r => e.isCompleted = true ∨ r = a i
  | .combined result => ∀ rs s, e.calls = .merging rs :: s → result = e.merger.merge rs
  | .cancel => c
  | .success _ _ | .failure _ _ => False
  | _ => True

theorem isReport_of_answers (h : Answers a c e m) : m.isReport = false := by
  cases m with
  | success | failure => cases h
  | _ => rfl

theorem isReport_of_follows (h : Trace step e₀ ms e events)
    (hf : Follows step (Answers a c) e₀ ms) :
    ∀ m ∈ ms, m.isReport = false := by
  induction h with
  | refl => exact nofun
  | snoc ht hs ih =>
    obtain ⟨hf, ha⟩ := (ht.follows_snoc hs).1 hf
    intro m hm
    rcases List.mem_append.1 hm with hm | hm
    · exact ih hf m hm
    · rw [List.mem_singleton.1 hm]
      exact isReport_of_answers ha

/-- The outcomes that the answers `a` can lead to. -/
inductive Comes (a : Nat → SubResult V) (c : Prop) (e : Execution V) : Outcome V → Prop
  | merged {rs} (h : rs.map .ok = (List.range e.total).map a) :
      Comes a c e (sequential e.merger e.query.order rs)
  | failed {i error} (hi : i < e.total) (h : a i = .error error) :
      Comes a c e (.error (.subQuery i e.query.order error))
  | cancelled (h : c) : Comes a c e (.error (.cancelled e.query.order (.requested e.id)))

theorem comes_of_plan {o : Outcome V} (hp : e'.plan = e.plan) (h : Comes a c e o) :
    Comes a c e' o := by
  have hi : e'.id = e.id := congrArg Prod.fst hp
  have ht := total_of_plan hp
  cases h with
  | merged h =>
    rw [← merger_of_plan hp, ← query_of_plan hp]
    exact .merged (ht ▸ h)
  | failed hi h =>
    rw [← query_of_plan hp]
    exact .failed (ht ▸ hi) h
  | cancelled h =>
    rw [← query_of_plan hp, ← hi]
    exact .cancelled h

theorem isCompleted_stopWith (error : ShardingError) (e : Execution V) :
    (e.stopWith error).1.isCompleted = true := by
  rw [stopWith_fst]
  rfl

theorem isCompleted_fail (i : Nat) (error : QueryError) (e : Execution V) :
    (e.fail i error).1.isCompleted = true := by
  rcases fail_cases i error e with ⟨hd, h⟩ | ⟨_, h⟩
  · rw [h]
    exact hd
  · rw [h]
    exact isCompleted_stopWith ..

/-- Without an outcome no cancel hook is called. -/
theorem halting_step (h : halting e.calls = []) (hs : e.step m = some (e', events))
    (hd : e'.isCompleted = false) : halting e'.calls = [] := by
  have hopen := open_of_step hs hd
  cases transition_of_step hs with
  | cancel hy => simp [cancel, isCompleted_stopWith] at hd
  | failure hy => simp [isCompleted_fail] at hd
  | combined hc => simp [deliver_fst, isCompleted] at hd
  | success hy => exact (filterMap_calls_succeed (fun _ => rfl) (fun _ => rfl) ..).trans h
  | fill hc => exact (filterMap_calls_fillNext (fun _ => rfl) rfl hc).trans h
  | skip hc hx => simp [hopen] at hx
  | launch hc | combine hc =>
    rw [hc] at h
    exact h
  | stop hc | stopped hc => simp [hc, halting, Frame.halting?] at h
  | handed hc =>
    rw [hc] at h
    rw [attach_eq, hopen, hc]
    exact h
  | @receive i r rest hc hr hi =>
    cases r with
    | ok v => exact (filterMap_calls_succeed (fun _ => rfl) (fun _ => rfl) ..).trans h
    | error error => simp [complete, isCompleted_fail] at hd
  | start | resolve | abandon | forward | retire | halt => exact h

theorem halting_of_trace (h : Trace step e₀ ms e events) (h₀ : halting e₀.calls = [])
    (hd : e.isCompleted = false) : halting e.calls = [] := by
  induction h with
  | refl => exact h₀
  | snoc ht hs ih => exact halting_step (ih (open_of_step hs hd)) hs hd

theorem passes_of_answers (h : Answers a c e m) (hd : e.isCompleted = false) : Passes a e m := by
  cases m with
  | handed => exact h
  | resolve => exact h.resolve_left (by simp [hd])
  | _ => exact trivial

theorem honest_of_trace (h : Trace step e₀ ms e events) (hf : Follows step (Answers a c) e₀ ms)
    (h₀ : Honest a e₀) (hd : e.isCompleted = false) : Honest a e := by
  induction h with
  | refl => exact h₀
  | snoc ht hs ih =>
    obtain ⟨hf, ha⟩ := (ht.follows_snoc hs).1 hf
    have hd := open_of_step hs hd
    exact honest_step (ih hf hd) (passes_of_answers ha hd) hs

/-- The driver reports the answers. -/
theorem answer_of_report {i : Nat} {r : SubResult V} (h : Honest a e) (hm : m.isReport = false)
    (hr : e.report? m = some (i, r)) : r = a i := by
  cases m with
  | success | failure => cases hm
  | receive => exact h.inbox (i, r) (List.mem_of_mem_head? hr)
  | _ => cases hr

theorem answer_of_admitted (h : Trace step e₀ ms e events) (hf : Follows step (Answers a c) e₀ ms)
    (h₀ : Honest a e₀) : ∀ p ∈ along step admitted? e₀ ms, a p.1 = .ok p.2 := by
  induction h with
  | refl => exact nofun
  | @snoc ms e es m e' es' ht hs ih =>
    obtain ⟨hf, ha⟩ := (ht.follows_snoc hs).1 hf
    rw [ht.along_snoc hs]
    intro p hp
    rcases List.mem_append.1 hp with hp | hp
    · exact ih hf p hp
    · rw [Option.mem_toList, admitted?] at hp
      split at hp
      · rename_i i v hr
        obtain ⟨⟨hd, _⟩, hp⟩ := Option.ite_none_right_eq_some.1 hp
        obtain rfl := Option.some.inj hp
        exact (answer_of_report (honest_of_trace ht hf h₀ hd) (isReport_of_answers ha) hr).symm
      · cases hp

theorem combines_of_same (h : combines e'.calls = combines e.calls) :
    combines e'.calls ⊆ combines e.calls ++ unmerged e'.calls :=
  h ▸ List.subset_append_left ..

theorem combines_stopWith (error : ShardingError) (e : Execution V) :
    combines (e.stopWith error).1.calls = combines e.calls :=
  filterMap_calls_stopWith_of (fun _ => rfl) error e

theorem combines_succeed (i : Nat) (v : V) (e : Execution V) :
    combines (e.succeed i v).calls ⊆ combines e.calls ++ unmerged (e.succeed i v).calls := by
  rcases succeed_cases i v e with hs | ⟨_, _, hs⟩
  · exact combines_of_same (by rw [hs])
  · have hr : combines (e.succeed i v).calls = combines (e.record i v).collect.calls :=
      hs ▸ filterMap_calls_refill (fun _ => rfl) _
    have hu : unmerged (e.succeed i v).calls = unmerged (e.record i v).collect.calls :=
      hs ▸ filterMap_calls_refill (fun _ => rfl) _
    rw [hr, hu]
    rcases collect_cases (e.record i v) with ⟨_, hc⟩ | ⟨_, hc⟩
    · rw [hc]
      intro rs hrs
      rcases List.mem_cons.1 hrs with rfl | hrs
      · exact List.mem_append_right _ (List.mem_cons_self ..)
      · exact List.mem_append_left _ hrs
    · rw [hc]
      exact combines_of_same rfl

theorem combines_complete (i : Nat) (r : SubResult V) (e : Execution V) :
    combines (e.complete i r).1.calls ⊆ combines e.calls ++ unmerged (e.complete i r).1.calls := by
  cases r with
  | ok v => exact combines_succeed i v e
  | error error =>
    apply combines_of_same
    change combines (e.fail i error).1.calls = _
    rcases fail_cases i error e with ⟨_, hs⟩ | ⟨_, hs⟩
    · rw [hs]
    · rw [hs, combines_stopWith]

/-- Results that are being merged were waiting for it. -/
theorem combines_step (hs : e.step m = some (e', events)) :
    combines e'.calls ⊆ combines e.calls ++ unmerged e'.calls := by
  cases transition_of_step hs with
  | @success i v hy => exact combines_succeed i v e
  | @failure i error hy => exact combines_complete i (.error error) e
  | @receive i r rest hc hr hi => exact combines_complete i r { e with inbox := rest }
  | cancel hy => exact combines_of_same (combines_stopWith ..)
  | fill hc => exact combines_of_same (filterMap_calls_fillNext (fun _ => rfl) rfl hc)
  | combined hc =>
    rw [deliver_fst, hc]
    intro rs hrs
    apply List.mem_append_left
    change rs ∈ combines e.pop.calls at hrs
    rw [calls_pop hc] at hrs
    exact List.mem_cons_of_mem _ hrs
  | skip hc | stopped hc => exact combines_of_same (filterMap_calls_pop hc rfl)
  | launch hc | combine hc | stop hc => exact combines_of_same (by rw [hc]; rfl)
  | handed hc =>
    exact combines_of_same (filterMap_calls_attach (fun _ => rfl) (fun _ => rfl) _ hc)
  | start | resolve | abandon | forward | retire | halt => exact combines_of_same rfl

/-- Results that wait for the merger are those of all sub queries. -/
theorem answers_of_unmerged {done : List (Nat × V)} {merged : List (List V)} {rs : List V}
    (h : Collected e done merged) (hx : ∀ p ∈ done, a p.1 = .ok p.2)
    (hrs : rs ∈ unmerged e.calls) : rs.map .ok = (List.range e.total).map a := by
  cases h with
  | filling _ _ _ _ handed =>
    rw [(List.append_eq_nil_iff.1 handed).1] at hrs
    cases hrs
  | full _ _ rs' handed values _ =>
    obtain rfl : rs = rs' := by
      have := List.mem_append_left merged hrs
      rw [handed] at this
      exact List.mem_singleton.1 this
    have hlen : rs.length = e.total := by
      have := congrArg List.length values
      simpa [firsts] using this
    apply List.ext_getElem?
    intro i
    rw [List.getElem?_map, List.getElem?_map]
    by_cases hi : i < e.total
    · obtain ⟨v, hl, hv⟩ := getElem?_of_firsts values hi
      obtain ⟨l, l', rfl, _⟩ := List.lookup_eq_some_iff.1 hl
      rw [hv, List.getElem?_range hi]
      exact congrArg some (hx (i, v) (by simp)).symm
    · rw [List.getElem?_eq_none (by omega), List.getElem?_eq_none (by simpa using hi)]
      rfl

theorem answers_of_combines (h : Trace step e₀ ms e events) (hf : Follows step (Answers a c) e₀ ms)
    (h₀ : Honest a e₀) (hc : Collected e₀ [] []) (hz : e₀.succeeded = 0) (hn : e₀.calls = []) :
    ∀ rs ∈ combines e.calls, rs.map .ok = (List.range e.total).map a := by
  induction h with
  | refl => simp [hn, combines]
  | @snoc ms e es m e' es' ht hs ih =>
    have ht' := ht.snoc hs
    intro rs hrs
    rcases List.mem_append.1 (combines_step hs hrs) with hrs | hrs
    · rw [total_of_plan (plan_step hs)]
      exact ih ((ht.follows_snoc hs).1 hf).1 rs hrs
    · exact answers_of_unmerged (collected_of_trace ht' hc hz) (answer_of_admitted ht' hf h₀) hrs

/-- An outcome that a move asks for comes from the answers. -/
theorem comes_of_trigger {reported : List Nat} {o : Outcome V} (ha : Answers a c e m)
    (hs : e.step m = some (e', events)) (ho : e.trigger? m = some o) (h : Honest a e)
    (hl : Lined e launched) (hp : Piped e launched reported)
    (hm : ∀ rs ∈ combines e.calls, rs.map .ok = (List.range e.total).map a) : Comes a c e o := by
  have reportable {i : Nat} {r : SubResult V} (hr : e.report? m = some (i, r)) :
      i < e.total ∧ r = a i :=
    ⟨lt_total_of_mem hl (reportable hp (dispatches_nodup hl) (isReport_of_answers ha) hr).1,
      answer_of_report h (isReport_of_answers ha) hr⟩
  cases transition_of_step hs with
  | success | failure => cases ha
  | cancel hy =>
    cases ho
    exact .cancelled ha
  | @combined rs result s hc =>
    obtain rfl : result = e.merger.merge rs := ha rs s hc
    have hx : Comes a c e (sequential e.merger e.query.order rs) :=
      .merged (hm rs (by rw [hc]; exact List.mem_cons_self ..))
    unfold sequential at hx
    split at hx <;> simp_all [trigger?]
  | @receive i r rest hc hr hi =>
    have hx := report?_receive hi
    obtain ⟨hlt, hr⟩ := reportable hx
    cases r with
    | ok v => simp [trigger?, hx] at ho
    | error error =>
      have ho : some (.error (.subQuery i e.query.order error)) = some o := by
        simpa [trigger?, hx] using ho
      obtain rfl := Option.some.inj ho
      exact .failed hlt hr.symm
  | start | fill | skip | launch | combine | stop | handed | stopped | resolve | abandon | forward
    | retire | halt => cases ho

section

variable {id : ExecutionId} {q : Query} {subs : List Query} {w : Nat} {merger : Merger V}

theorem honest_new : Honest a (new id q subs w merger) := ⟨nofun, nofun⟩

theorem comes_of_trace (h : Trace step (new id q subs w merger) ms e events)
    (hf : Follows step (Answers a c) (new id q subs w merger) ms) :
    ∀ o, e.outcome = some o → Comes a c e o := by
  induction h with
  | refl => exact nofun
  | @snoc ms e es m e' es' ht hs ih =>
    obtain ⟨hf, ha⟩ := (ht.follows_snoc hs).1 hf
    intro o ho
    apply comes_of_plan (plan_step hs)
    rw [(delivers_step hs).1, Option.or_eq_some_iff] at ho
    rcases ho with ho | ⟨hn, ho⟩
    · exact ih hf o ho
    · have hd := isCompleted_eq_false_iff.2 hn
      exact comes_of_trigger ha hs ho (honest_of_trace ht hf honest_new hd)
        (lined_of_trace ht (lined_new ..))
        (piped_of_trace ht (piped_new ..) (isReport_of_follows ht hf))
        (answers_of_combines ht hf honest_new (collected_new ..) rfl rfl)

/-- Once everything that was dispatched has been reported and no call is in progress, there is an
outcome. -/
theorem isCompleted_of_quiet (ht : Trace step (new id q subs w merger) ms e events) (hn : subs ≠ [])
    (hs : .start ∈ ms) (hm : ∀ m ∈ ms, m.isReport = false) (hc : e.calls = [])
    (hw : e.watchers = []) (hi : e.inbox = []) : e.isCompleted = true := by
  by_contra hx
  have hd : e.isCompleted = false := Bool.eq_false_iff.2 hx
  have h₀ := lined_new id q subs w merger
  have hcol := collected_new id q subs w merger
  have hpiped := piped_of_trace ht (piped_new id q subs w merger) hm
  have ho := orderly_of_trace ht h₀ (piped_new id q subs w merger) hm
  have hlen : 0 < subs.length := List.length_pos_iff.2 hn
  have htotal : e.total = subs.length := total_of_plan (plan_of_trace ht)
  have hpending : e.pending = [] := by simp [pending, underway, hc, hw, hi]
  have hperm : (reports (new id q subs w merger) ms).Perm (dispatches events) := by
    rw [List.perm_iff_count]
    intro i
    have := hpiped.exact hd i
    simpa [hpending] using this
  have hnone : unanswered (new id q subs w merger) ms events = [] := by
    rw [unanswered, accepted_of_open ht h₀ hcol rfl ho hd, List.filter_eq_nil_iff]
    intro i hi
    simpa using hperm.mem_iff.2 hi
  have hwait := length_unanswered_of_filled ht ho hs hc hd
  have hearly := early_lt_window ht ho hlen
  have hlt := succeeded_lt_of_open ht hcol rfl hc hd (htotal ▸ hlen)
  rw [hnone, List.length_nil] at hwait
  omega

end

end Execution
end ScatterGather
