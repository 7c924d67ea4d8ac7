import Mathlib.Data.List.Perm.Subperm
import ScatterGather.Proofs.Execution.Window

/-! Runs in which the downstream executor answers every sub query, and the merger does its work. -/
namespace ScatterGather

variable {V : Type}

def Frame.combined? : Frame V → Option (List V)
  | .combine rs => some rs
  | .merging rs => some rs
  | _ => none

/-- The results that are being merged. -/
def combines (fs : List (Frame V)) : List (List V) := fs.filterMap Frame.combined?

/-- The outcome of merging all results, one after the other. -/
def sequential (merger : Merger V) (order : UInt32) (parts : List V) : Outcome V :=
  match merger.merge parts with
  | .value v => .ok v
  | .failure error => .error (.merge order error)
  | .panic => .error (.merge order (.merge s!"merger '{merger.strategy}' panicked"))

theorem mapError_result (merger : Merger V) (order : UInt32) (parts : List V) :
    ((merger.merge parts).result merger.strategy).mapError (.merge order) =
      sequential merger order parts := by
  unfold sequential
  cases merger.merge parts <;> rfl

namespace Execution

variable {f : Nat → V} {a : Nat → SubResult V} {e e' e₀ : Execution V} {m : Move V}
  {ms : List (Move V)} {events : List (Event V)} {launched done : List Nat}

/-- What may happen while the sub queries are answered with `f`: a handle comes back resolved or
not, and resolves to nothing else. Nobody calls in or lets go of the execution. -/
def Serves (f : Nat → V) (e : Execution V) : Move V → Prop
  | .handed r => ∀ i s, e.calls = .dispatching i :: s → r = none ∨ r = some (.ok (f i))
  | .resolve i r => r = .ok (f i)
  | .combined result => ∀ rs s, e.calls = .merging rs :: s → result = e.merger.merge rs
  | .start | .cancel | .abandon | .success _ _ | .failure _ _ => False
  | _ => True

theorem isReport_of_serves (h : Serves f e m) : m.isReport = false := by
  cases m with
  | success | failure => cases h
  | _ => rfl

/-- What a handle comes back with, and what it resolves to, is the answer of its sub query. -/
def Passes (a : Nat → SubResult V) (e : Execution V) : Move V → Prop
  | .handed r => ∀ i s, e.calls = .dispatching i :: s → r = none ∨ r = some (a i)
  | .resolve i r => r = a i
  | _ => True

/-- Watchers and inbox hold nothing but the answers. -/
structure Honest (a : Nat → SubResult V) (e : Execution V) : Prop where
  inbox : ∀ p ∈ e.inbox, p.2 = a p.1
  watchers : ∀ w ∈ e.watchers, ∀ r, w.result = some r → r = a w.index

theorem Honest.of_shared (h : Honest a e) (ht : e'.shared = e.shared) : Honest a e' := by
  simp only [shared, Prod.mk.injEq] at ht
  obtain ⟨_, hi, hw, _⟩ := ht
  constructor
  · rw [hi]
    exact h.inbox
  · rw [hw]
    exact h.watchers

theorem mem_of_mem_settle {i : Nat} {r : SubResult V} {w : Watcher V} {ws : List (Watcher V)}
    (h : w ∈ settle i r ws) : w ∈ ws ∨ w.index = i ∧ w.result = some r := by
  induction ws with
  | nil => cases h
  | cons w' ws ih =>
    unfold settle at h
    split at h
    · rename_i hi
      rcases List.mem_cons.1 h with rfl | h
      · split
        · exact .inr ⟨hi, rfl⟩
        · exact .inl (List.mem_cons_self ..)
      · exact .inl (List.mem_cons_of_mem _ h)
    · rcases List.mem_cons.1 h with rfl | h
      · exact .inl (List.mem_cons_self ..)
      · rcases ih h with h | h
        · exact .inl (List.mem_cons_of_mem _ h)
        · exact .inr h

theorem honest_step (h : Honest a e) (hp : Passes a e m) (hs : e.step m = some (e', events)) :
    Honest a e' := by
  cases transition_of_step hs with
  | cancel hy => exact h.of_shared (shared_stopWith ..)
  | @success i v hy => exact h.of_shared (shared_complete i (.ok v) e)
  | @failure i error hy => exact h.of_shared (shared_complete i (.error error) e)
  | fill hc => exact h.of_shared (shared_fillNext e)
  | combined hc => exact h.of_shared (by rw [deliver_fst]; rfl)
  | @handed i r s hc =>
    rw [attach_eq]
    refine ⟨h.inbox, ?_⟩
    intro w hw r' hr'
    rcases List.mem_append.1 hw with hw | hw
    · exact h.watchers w hw r' hr'
    · obtain rfl := List.mem_singleton.1 hw
      rcases hp i s hc with rfl | rfl
      · cases hr'
      · exact (Option.some.inj hr').symm
  | @resolve i r hy hl =>
    refine ⟨h.inbox, ?_⟩
    intro w hw r' hr'
    rcases mem_of_mem_settle hw with hw | ⟨hi, hr⟩
    · exact h.watchers w hw r' hr'
    · obtain rfl := Option.some.inj (hr.symm.trans hr')
      rw [hi]
      exact hp
  | @forward i j r hc hw =>
    have hi : j = i := index_of_watcher? hw
    have hr : r = a i := hi ▸ h.watchers _ (List.mem_of_find?_eq_some hw) r rfl
    refine ⟨?_, fun w hx => h.watchers w (List.mem_of_mem_eraseP hx)⟩
    intro p hp
    change p ∈ (if e.driver = .finished then e.inbox else e.inbox ++ [(i, r)]) at hp
    split at hp
    · exact h.inbox p hp
    · rcases List.mem_append.1 hp with hp | hp
      · exact h.inbox p hp
      · obtain rfl := List.mem_singleton.1 hp
        exact hr
  | retire hc hw hd => exact ⟨h.inbox, fun w hx => h.watchers w (List.mem_of_mem_eraseP hx)⟩
  | @receive i r rest hc hr hi =>
    have he : Honest a { e with inbox := rest } :=
      ⟨fun p hp => h.inbox p (hi ▸ List.mem_cons_of_mem _ hp), h.watchers⟩
    exact he.of_shared (shared_complete i r _)
  | halt hc hr hd => exact ⟨nofun, h.watchers⟩
  | start | skip | launch | combine | stop | stopped | abandon => exact ⟨h.inbox, h.watchers⟩

/-- The driver has been started and the caller waits. -/
def Attended (e : Execution V) : Prop := e.driver ≠ .idle ∧ e.awaited = true

theorem Attended.of_shared (h : Attended e) (ht : e'.shared = e.shared) : Attended e' := by
  simp only [shared, Prod.mk.injEq] at ht
  obtain ⟨hd, _, _, ha⟩ := ht
  rwa [Attended, hd, ha]

theorem attended_step (h : Attended e) (ha : Serves f e m) (hs : e.step m = some (e', events)) :
    Attended e' := by
  cases transition_of_step hs with
  | start | cancel | abandon | success | failure => cases ha
  | fill hc => exact h.of_shared (shared_fillNext e)
  | combined hc => exact h.of_shared (by rw [deliver_fst]; rfl)
  | handed hc =>
    rw [attach_eq]
    exact h
  | @receive i r rest hc hr hi =>
    have he : Attended { e with inbox := rest } := h
    exact he.of_shared (shared_complete i r _)
  | halt => exact ⟨nofun, h.2⟩
  | skip | launch | combine | stop | stopped | resolve | forward | retire => exact h

/-- The driver has been started and the caller waits. Watchers and inbox hold nothing but the
answers. -/
structure Faithful (f : Nat → V) (e : Execution V) : Prop where
  driver : e.driver ≠ .idle
  inbox : ∀ p ∈ e.inbox, p.2 = .ok (f p.1)
  watchers : ∀ w ∈ e.watchers, ∀ r, w.result = some r → r = .ok (f w.index)
  awaited : e.awaited = true

theorem passes_of_serves (h : Serves f e m) : Passes (fun i => .ok (f i)) e m := by
  cases m with
  | handed | resolve => exact h
  | _ => exact trivial

theorem faithful_step (h : Faithful f e) (ha : Serves f e m)
    (hs : e.step m = some (e', events)) : Faithful f e' := by
  have hh : Honest (fun i => .ok (f i)) e' :=
    honest_step ⟨h.inbox, h.watchers⟩ (passes_of_serves ha) hs
  have hw : Attended e' := attended_step ⟨h.driver, h.awaited⟩ ha hs
  exact ⟨hw.1, hh.inbox, hh.watchers, hw.2⟩

/-- Until there is an outcome the results are kept in their places, and merged when the last one
has come in. -/
structure Gathered (f : Nat → V) (e : Execution V) (done : List Nat) : Prop where
  merges : ∀ rs ∈ combines e.calls, rs = (List.range e.total).map f
  outcome : ∀ o, e.outcome = some o →
    o = sequential e.merger e.query.order ((List.range e.total).map f)
  counted : e.isCompleted = false → e.succeeded = done.length
  results : e.isCompleted = false → e.succeeded < e.total →
    e.results = (List.range e.total).map fun i => if i ∈ done then some (f i) else none
  merging : e.isCompleted = false → e.succeeded = e.total → combines e.calls ≠ []

theorem Gathered.of_same (h : Gathered f e done) (hp : e'.plan = e.plan)
    (hc : combines e'.calls = combines e.calls) (ho : e'.outcome = e.outcome)
    (hs : e'.succeeded = e.succeeded) (hr : e'.results = e.results) : Gathered f e' done := by
  have ht := total_of_plan hp
  have hm := merger_of_plan hp
  have hq := query_of_plan hp
  have hd : e'.isCompleted = e.isCompleted := congrArg Option.isSome ho
  constructor
  · rw [hc, ht]
    exact h.merges
  · rw [ho, hm, hq, ht]
    exact h.outcome
  · rw [hd, hs]
    exact h.counted
  · rw [hd, hs, ht, hr]
    exact h.results
  · rw [hd, hs, ht, hc]
    exact h.merging

/-- Once there is the right outcome nothing else counts. -/
theorem gathered_of_completed (hd : e.isCompleted = true)
    (hm : ∀ rs ∈ combines e.calls, rs = (List.range e.total).map f)
    (ho : ∀ o, e.outcome = some o →
      o = sequential e.merger e.query.order ((List.range e.total).map f)) :
    Gathered f e done := by
  constructor
  · exact hm
  · exact ho
  all_goals
    intro hx
    rw [hd] at hx
    cases hx

theorem subperm_range {n : Nat} (hn : done.Nodup) (hlt : ∀ j ∈ done, j < n) :
    done.Subperm (List.range n) :=
  hn.subperm fun j hj => List.mem_range.2 (hlt j hj)

/-- The results that are there once the sub queries `done` have succeeded. -/
def gathering (f : Nat → V) (n : Nat) (done : List Nat) : List (Option V) :=
  (List.range n).map fun i => if i ∈ done then some (f i) else none

theorem gathering_set {n i : Nat} (done : List Nat) :
    (gathering f n done).set i (some (f i)) = gathering f n (done ++ [i]) := by
  apply List.ext_getElem?
  intro j
  rw [List.getElem?_set]
  by_cases hij : i = j
  · subst j
    by_cases hi : i < n <;> simp [gathering, hi]
  · have hji : ¬ j = i := fun h => hij h.symm
    by_cases hj : j < n <;> simp [gathering, hij, hji, hj]

theorem gathering_full {n : Nat} (hn : done.Nodup) (hlt : ∀ j ∈ done, j < n)
    (hl : done.length = n) :
    (gathering f n done).filterMap (fun r => r) = (List.range n).map f := by
  have hle : (List.range n).length ≤ done.length := by simp [hl]
  have hp := (subperm_range hn hlt).perm_of_length_le hle
  have hm : gathering f n done = (List.range n).map fun i => some (f i) := by
    apply List.map_congr_left
    intro i hi
    exact if_pos (hp.mem_iff.2 hi)
  rw [hm, List.filterMap_map]
  exact congrFun List.filterMap_eq_map _

theorem lacks_of_gathering {i : Nat} (hr : e.results = gathering f e.total done)
    (hi : i < e.total) (hx : i ∉ done) : e.lacks i = true := by
  have hn : e.results[i]? = some none := by simp [hr, gathering, hi, hx]
  rw [lacks, hn]

theorem gathered_refill (h : Gathered f e done) : Gathered f e.refill done :=
  h.of_same (by rw [refill_frame]; rfl) (filterMap_calls_refill (fun _ => rfl) e)
    (by rw [refill_frame]) (by rw [refill_frame]) (by rw [refill_frame])

/-- A result with the last one among those before it is enough to merge. -/
theorem gathered_collect {i : Nat} (h : Gathered f e done) (hd : e.isCompleted = false)
    (hr : e.results = gathering f e.total done) (hn : (done ++ [i]).Nodup)
    (hlt : ∀ j ∈ done ++ [i], j < e.total) :
    Gathered f (e.record i (f i)).collect (done ++ [i]) := by
  have hs : (e.record i (f i)).succeeded = (done ++ [i]).length := by
    rw [List.length_append, ← h.counted hd]
    rfl
  have hset : (e.record i (f i)).results = gathering f e.total (done ++ [i]) := by
    change e.results.set i (some (f i)) = _
    rw [hr, gathering_set]
  rcases collect_cases (e.record i (f i)) with ⟨hf, hc⟩ | ⟨hf, hc⟩
  · rw [hc]
    constructor
    · intro rs hrs
      rcases List.mem_cons.1 hrs with rfl | hrs
      · rw [hset]
        exact gathering_full hn hlt (hs.symm.trans hf)
      · exact h.merges rs hrs
    · exact h.outcome
    · intro _
      exact hs
    · intro _ hlt
      exact (Nat.ne_of_lt hlt hf).elim
    · intro _ _
      exact List.cons_ne_nil _ _
  · rw [hc]
    constructor
    · exact h.merges
    · exact h.outcome
    · intro _
      exact hs
    · intro _ _
      exact hset
    · intro _ hx
      exact (hf hx).elim

theorem gathered_succeed {i : Nat} (h : Gathered f e done) (hn : (done ++ [i]).Nodup)
    (hlt : ∀ j ∈ done ++ [i], j < e.total) : Gathered f (e.succeed i (f i)) (done ++ [i]) := by
  cases hd : e.isCompleted with
  | true =>
    rw [succeed, if_pos hd]
    exact gathered_of_completed hd h.merges h.outcome
  | false =>
    have hlen := (subperm_range hn hlt).length_le
    rw [List.length_append, List.length_singleton, List.length_range, ← h.counted hd] at hlen
    have hr : e.results = gathering f e.total done := h.results hd hlen
    have hx : i ∉ done := by
      intro hm
      exact (List.nodup_append.1 hn).2.2 i hm i (List.mem_singleton_self i) rfl
    have hl := lacks_of_gathering hr (hlt i (by simp)) hx
    rw [succeed, if_neg (by simp [hd]), if_pos hl]
    exact gathered_refill (gathered_collect h hd hr hn hlt)

theorem gathered_step (h : Gathered f e done) (hf : Faithful f e) (ha : Serves f e m)
    (hn : (done ++ (e.report? m).toList.map Prod.fst).Nodup)
    (hlt : ∀ j ∈ done ++ (e.report? m).toList.map Prod.fst, j < e.total)
    (hs : e.step m = some (e', events)) :
    Gathered f e' (done ++ (e.report? m).toList.map Prod.fst) := by
  have quiet {e' : Execution V} (hr : e.report? m = none) (he : Gathered f e' done) :
      Gathered f e' (done ++ (e.report? m).toList.map Prod.fst) := by
    rw [hr, Option.toList_none, List.map_nil, List.append_nil]
    exact he
  cases transition_of_step hs with
  | start | cancel | abandon | success | failure => cases ha
  | fill hc =>
    exact quiet rfl (h.of_same (plan_fillNext e) (filterMap_calls_fillNext (fun _ => rfl) rfl hc)
      (outcome_fillNext e) (by rw [fillNext_frame]) (by rw [fillNext_frame]))
  | skip hc | stopped hc =>
    exact quiet rfl (h.of_same rfl (filterMap_calls_pop hc rfl) rfl rfl rfl)
  | launch hc | combine hc | stop hc =>
    refine quiet rfl (h.of_same rfl ?_ rfl rfl rfl)
    rw [hc]
    rfl
  | @handed i r s hc =>
    have hm := filterMap_calls_attach (φ := Frame.combined?) (fun _ => rfl) (fun _ => rfl) r hc
    rw [attach_eq] at hm ⊢
    exact quiet rfl (h.of_same rfl hm rfl rfl rfl)
  | @combined rs result s hc =>
    refine quiet rfl ?_
    have hrs : rs = (List.range e.total).map f := by
      apply h.merges
      rw [hc]
      exact List.mem_cons_self ..
    have hres : result = e.merger.merge ((List.range e.total).map f) := hrs ▸ ha rs s hc
    rw [deliver_fst]
    apply gathered_of_completed rfl
    · intro rs' hx
      apply h.merges
      rw [hc]
      rw [pop, hc] at hx
      exact List.mem_cons_of_mem _ hx
    · intro o ho
      have hx : e.outcome.getD _ = o := Option.some.inj ho
      cases hd : e.outcome with
      | some o' =>
        rw [hd] at hx
        exact h.outcome o (hd.trans (congrArg some hx))
      | none =>
        rw [hd] at hx
        rw [← hx, hres]
        exact mapError_result ..
  | @receive i r rest hc hr hi =>
    have hx := report?_receive hi
    obtain rfl : r = .ok (f i) := hf.inbox (i, r) (hi ▸ List.mem_cons_self ..)
    have he : Gathered f { e with inbox := rest } done := h.of_same rfl rfl rfl rfl rfl
    rw [hx] at hn hlt ⊢
    exact gathered_succeed he hn hlt
  | resolve | forward | retire | halt => exact quiet rfl (h.of_same rfl rfl rfl rfl rfl)

end Execution
end ScatterGather
