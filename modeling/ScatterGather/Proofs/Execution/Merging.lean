import ScatterGather.Proofs.Execution.Serving

/-! The merger is called once at most, with the first result accepted for each sub query. -/
namespace ScatterGather

variable {V : Type}

def Event.merged? : Event V → Option (List V)
  | .merged rs => some rs
  | _ => none

/-- The lists of results that were handed to the merger. -/
def merges (events : List (Event V)) : List (List V) := events.filterMap Event.merged?

@[simp] theorem merges_append (es fs : List (Event V)) :
    merges (es ++ fs) = merges es ++ merges fs := List.filterMap_append

def Frame.combine? : Frame V → Option (List V)
  | .combine rs => some rs
  | _ => none

/-- The lists of results that are about to be handed to the merger. -/
def unmerged (fs : List (Frame V)) : List (List V) := fs.filterMap Frame.combine?

/-- For each of the `n` sub queries the first value in `done`. -/
def firsts (n : Nat) (done : List (Nat × V)) : List (Option V) :=
  (List.range n).map fun i => done.lookup i

section

variable {n i : Nat} {v : V} {done : List (Nat × V)}

theorem lookup_eq_none : done.lookup i = none ↔ i ∉ done.map Prod.fst := by
  rw [List.lookup_eq_none_iff]
  constructor
  · rintro h hi
    obtain ⟨p, hp, rfl⟩ := List.mem_map.1 hi
    simpa using h p hp
  · rintro h p hp
    have : i ≠ p.1 := fun hi => h (List.mem_map.2 ⟨p, hp, hi.symm⟩)
    exact bne_iff_ne.2 this

theorem firsts_set (h : done.lookup i = none) :
    (firsts n done).set i (some v) = firsts n (done ++ [(i, v)]) := by
  apply List.ext_getElem?
  intro j
  rw [List.getElem?_set]
  by_cases hij : i = j
  · subst j
    by_cases hi : i < n <;> simp [firsts, hi, h, List.lookup_append, List.lookup_cons]
  · have hji : (j == i) = false := by simpa using fun h => hij h.symm
    by_cases hj : j < n <;> simp [firsts, hij, hj, List.lookup_append, List.lookup_cons, hji]

/-- Later values do not count. -/
theorem firsts_append (h : ∀ i < n, i ∈ done.map Prod.fst) (more : List (Nat × V)) :
    firsts n (done ++ more) = firsts n done := by
  apply List.map_congr_left
  intro i hi
  have hs : (done.lookup i).isSome := by
    by_contra hn
    exact lookup_eq_none.1 (Option.not_isSome_iff_eq_none.1 hn) (h i (List.mem_range.1 hi))
  obtain ⟨v, hv⟩ := Option.isSome_iff_exists.1 hs
  rw [List.lookup_append, hv]
  rfl

theorem map_some_filterMap {α : Type} {l : List (Option α)} (h : none ∉ l) :
    (l.filterMap fun r => r).map some = l := by
  induction l with
  | nil => rfl
  | cons r l ih =>
    obtain ⟨hr, hl⟩ := not_or.1 (fun hx => h (List.mem_cons.2 hx))
    obtain ⟨a, rfl⟩ := Option.ne_none_iff_exists'.1 (fun hx => hr hx.symm)
    exact congrArg (some a :: ·) (ih hl)

theorem firsts_complete (h : ∀ i < n, i ∈ done.map Prod.fst) :
    ((firsts n done).filterMap fun r => r).map some = firsts n done := by
  apply map_some_filterMap
  intro hn
  obtain ⟨i, hi, hx⟩ := List.mem_map.1 hn
  exact lookup_eq_none.1 hx (h i (List.mem_range.1 hi))

theorem mem_of_full (hn : (done.map Prod.fst).Nodup) (hlt : ∀ j ∈ done.map Prod.fst, j < n)
    (hl : done.length = n) : ∀ i < n, i ∈ done.map Prod.fst := by
  intro i hi
  have hle : (List.range n).length ≤ (done.map Prod.fst).length := by simp [hl]
  exact ((Execution.subperm_range hn hlt).perm_of_length_le hle).mem_iff.2 (List.mem_range.2 hi)

end

namespace Execution

variable {e e' e₀ : Execution V} {m : Move V} {ms : List (Move V)} {events : List (Event V)}
  {done : List (Nat × V)} {merged : List (List V)}

/-- The success that a move applies, with its value. -/
def admitted? (e : Execution V) (m : Move V) : Option (Nat × V) :=
  match e.report? m with
  | some (i, .ok v) => if e.isCompleted = false ∧ e.lacks i = true then some (i, v) else none
  | _ => none

theorem map_admitted? (e : Execution V) (m : Move V) :
    (e.admitted? m).map Prod.fst = e.accepted? m := by
  unfold admitted?
  split
  · rename_i i v hr
    rw [accepted?_of_ok hr]
    split <;> rfl
  · rename_i hr
    unfold accepted?
    split
    · exact (hr _ _ ‹_›).elim
    · rfl

/-- While results are missing, those that are there are the first of each sub query. The last one
hands them all to the merger; whatever is accepted after that goes nowhere. -/
inductive Collected (e : Execution V) (done : List (Nat × V)) (merged : List (List V)) : Prop
  | filling (distinct : (done.map Prod.fst).Nodup) (bound : ∀ i ∈ done.map Prod.fst, i < e.total)
      (missing : 0 < e.total → done.length < e.total) (results : e.results = firsts e.total done)
      (handed : unmerged e.calls ++ merged = [])
  | full (complete : ∀ i < e.total, i ∈ done.map Prod.fst) (count : e.total ≤ done.length)
      (rs : List V) (handed : unmerged e.calls ++ merged = [rs])
      (values : rs.map some = firsts e.total done)
      (merging : e.isCompleted = false → combines e.calls ≠ [])

theorem collected_new (id : ExecutionId) (q : Query) (subs : List Query) (w : Nat)
    (merger : Merger V) : Collected (new id q subs w merger) [] [] := by
  refine .filling .nil nofun (fun hp => hp) ?_ rfl
  change List.replicate subs.length none = (List.range subs.length).map _
  simp [List.map_const']

/-- A step that brings no result. -/
theorem Collected.of_same {merged' : List (List V)} (h : Collected e done merged)
    (ht : e'.total = e.total) (hr : e'.results = e.results)
    (hu : (unmerged e'.calls ++ merged').Perm (unmerged e.calls ++ merged))
    (hc : e'.isCompleted = false → e.isCompleted = false ∧ combines e'.calls = combines e.calls) :
    Collected e' done merged' := by
  cases h with
  | filling distinct bound missing results handed =>
    refine .filling distinct (ht ▸ bound) (ht ▸ missing) (by rw [hr, ht, results]) ?_
    exact List.perm_nil.1 (handed ▸ hu)
  | full complete count rs handed values merging =>
    refine .full (ht ▸ complete) (ht ▸ count) rs (List.perm_singleton.1 (handed ▸ hu))
      (ht ▸ values) fun hd => ?_
    obtain ⟨hd, hx⟩ := hc hd
    rw [hx]
    exact merging hd

theorem lacks_iff {i : Nat} : e.lacks i = true ↔ e.results[i]? = some none := by
  unfold lacks
  split <;> simp_all

theorem lacks_of_results {i : Nat} (h : e.results = firsts e.total done) :
    e.lacks i = true ↔ i < e.total ∧ i ∉ done.map Prod.fst := by
  rw [lacks_iff, h, ← lookup_eq_none]
  by_cases hi : i < e.total <;> simp [firsts, hi]

theorem collected_refill (h : Collected e done merged) : Collected e.refill done merged := by
  have hu : unmerged e.refill.calls = unmerged e.calls := filterMap_calls_refill (fun _ => rfl) e
  have hc : combines e.refill.calls = combines e.calls := filterMap_calls_refill (fun _ => rfl) e
  refine h.of_same ?_ ?_ (hu ▸ .refl _) fun hd => ⟨?_, hc⟩
  · rw [refill_frame]
    rfl
  · rw [refill_frame]
  · rw [refill_frame] at hd
    exact hd

/-- The result that is accepted is missing before the last one has come in, and is the last one or
leaves others missing. -/
theorem collected_collect {i : Nat} {v : V} (h : Collected e done merged)
    (hn : e.succeeded = done.length) (hl : e.lacks i = true) :
    Collected (e.record i v).collect (done ++ [(i, v)]) merged := by
  have hkeys : (done ++ [(i, v)]).map Prod.fst = done.map Prod.fst ++ [i] := by simp
  cases h with
  | filling distinct bound missing results handed =>
    obtain ⟨hi, hx⟩ := (lacks_of_results results).1 hl
    have hlt := missing (by omega)
    have hset : (e.record i v).results = firsts e.total (done ++ [(i, v)]) := by
      rw [← firsts_set (lookup_eq_none.2 hx), ← results]
      rfl
    have hdistinct : ((done ++ [(i, v)]).map Prod.fst).Nodup := by
      rw [hkeys]
      exact distinct.append (List.nodup_singleton i) (by simpa using hx)
    have hbound : ∀ j ∈ (done ++ [(i, v)]).map Prod.fst, j < e.total := by
      intro j hj
      rw [hkeys] at hj
      rcases List.mem_append.1 hj with hj | hj
      · exact bound j hj
      · rwa [List.mem_singleton.1 hj]
    rcases collect_cases (e.record i v) with ⟨hf, hc⟩ | ⟨hf, hc⟩
    · have hlen : (done ++ [(i, v)]).length = e.total := by
        change e.succeeded + 1 = e.total at hf
        simp only [List.length_append, List.length_singleton]
        omega
      have hall := mem_of_full hdistinct hbound hlen
      rw [hc]
      refine .full hall (Nat.le_of_eq hlen.symm) _ (congrArg (_ :: ·) handed) ?_ ?_
      · rw [hset]
        exact firsts_complete hall
      · intro _
        exact List.cons_ne_nil _ _
    · rw [hc]
      refine .filling hdistinct hbound ?_ hset handed
      intro _
      change e.succeeded + 1 ≠ e.total at hf
      rw [List.length_append, List.length_singleton]
      change done.length + 1 < e.total
      omega
  | full complete count rs handed values merging =>
    rcases collect_cases (e.record i v) with ⟨hf, hc⟩ | ⟨hf, hc⟩
    · change e.succeeded + 1 = e.total at hf
      omega
    · rw [hc]
      refine .full ?_ ?_ rs handed ?_ merging
      · intro j hj
        rw [hkeys]
        exact List.mem_append_left _ (complete j hj)
      · exact Nat.le_trans count (by simp)
      · exact values.trans (firsts_append complete _).symm

theorem collected_succeed {i : Nat} {v : V} {e₁ : Execution V} (h : Collected e done merged)
    (hn : e.succeeded = done.length) (hr : e.report? m = some (i, .ok v))
    (h₁ : e₁ = { e with inbox := e₁.inbox }) :
    Collected (e₁.succeed i v) (done ++ (e.admitted? m).toList) merged := by
  have he₁ : Collected e₁ done merged := by
    rw [h₁]
    exact h.of_same rfl rfl (.refl _) fun hd => ⟨hd, rfl⟩
  have ha : e.admitted? m =
      if e₁.isCompleted = false ∧ e₁.lacks i = true then some (i, v) else none := by
    rw [admitted?, hr, h₁]
    rfl
  by_cases hx : e₁.isCompleted = false ∧ e₁.lacks i = true
  · rw [ha, if_pos hx, succeed, if_neg (by simp [hx.1]), if_pos hx.2]
    have hn₁ : e₁.succeeded = done.length := by
      rw [h₁]
      exact hn
    exact collected_refill (collected_collect he₁ hn₁ hx.2)
  · have hs : e₁.succeed i v = e₁ := by
      rcases succeed_cases i v e₁ with hs | ⟨hd, hl, _⟩
      · exact hs
      · exact (hx ⟨hd, hl⟩).elim
    rw [ha, if_neg hx, hs, Option.toList_none, List.append_nil]
    exact he₁

/-- A step in which no result has its turn. -/
theorem Collected.silent (h : Collected e done merged) (ha : e₀.admitted? m = none)
    (hm : merges events = []) :
    Collected e (done ++ (e₀.admitted? m).toList) (merged ++ merges events) := by
  rw [ha, hm]
  simpa using h

theorem unmerged_stopWith (error : ShardingError) (e : Execution V) :
    unmerged (e.stopWith error).1.calls = unmerged e.calls :=
  filterMap_calls_stopWith_of (fun _ => rfl) error e

theorem collected_stopWith (error : ShardingError) (h : Collected e done merged) :
    Collected (e.stopWith error).1 done merged := by
  refine h.of_same ?_ ?_ ?_ ?_
  · rw [stopWith_fst]
    rfl
  · rw [stopWith_fst]
  · rw [unmerged_stopWith]
  · intro hd
    rw [stopWith_fst] at hd
    cases hd

theorem collected_fail (i : Nat) (error : QueryError) (h : Collected e done merged) :
    Collected (e.fail i error).1 done merged := by
  rcases fail_cases i error e with ⟨_, hs⟩ | ⟨_, hs⟩
  · rwa [hs]
  · rw [hs]
    exact collected_stopWith _ h

theorem merges_deliver (o : Outcome V) (e : Execution V) : merges (e.deliver o).2 = [] :=
  filterMap_events_deliver (fun _ => rfl) o e

theorem merges_stopWith (error : ShardingError) (e : Execution V) :
    merges (e.stopWith error).2 = [] :=
  filterMap_events_stopWith (fun _ => rfl) rfl error e

theorem merges_complete (i : Nat) (r : SubResult V) (e : Execution V) :
    merges (e.complete i r).2 = [] :=
  filterMap_events_complete (fun _ => rfl) rfl i r e

theorem admitted?_of_error {i : Nat} {error : QueryError}
    (h : e.report? m = some (i, .error error)) : e.admitted? m = none := by
  rw [admitted?, h]

theorem collected_step (h : Collected e done merged) (hn : e.succeeded = done.length)
    (hs : e.step m = some (e', events)) :
    Collected e' (done ++ (e.admitted? m).toList) (merged ++ merges events) := by
  cases transition_of_step hs with
  | @success i v hy =>
    change Collected _ _ (merged ++ [])
    rw [List.append_nil]
    exact collected_succeed h hn rfl rfl
  | @receive i r rest hc hr hi =>
    have hx := report?_receive hi
    rw [merges_complete, List.append_nil]
    cases r with
    | ok v => exact collected_succeed h hn hx rfl
    | error error =>
      rw [admitted?_of_error hx, Option.toList_none, List.append_nil]
      exact collected_fail i error (h.of_same rfl rfl (.refl _) fun hd => ⟨hd, rfl⟩)
  | @combine rs s hc =>
    change Collected _ (done ++ []) (merged ++ [rs])
    rw [List.append_nil]
    refine h.of_same rfl rfl ?_ fun hd => ⟨hd, ?_⟩
    · rw [hc]
      change (unmerged s ++ (merged ++ [rs])).Perm (rs :: unmerged s ++ merged)
      rw [← List.append_assoc]
      exact List.perm_append_singleton ..
    · rw [hc]
      rfl
  | combined hc =>
    refine Collected.silent ?_ rfl (merges_deliver ..)
    rw [deliver_fst]
    exact h.of_same rfl rfl (.of_eq (congrArg (· ++ merged) (filterMap_calls_pop hc rfl))) nofun
  | cancel hy => exact (collected_stopWith _ h).silent rfl (merges_stopWith ..)
  | @failure i error hy =>
    exact (collected_fail i error h).silent rfl (merges_complete i (.error error) e)
  | fill hc =>
    refine Collected.silent (h.of_same (total_of_plan (plan_fillNext e)) ?_ ?_ ?_) rfl rfl
    · rw [fillNext_frame]
    · exact .of_eq (congrArg (· ++ merged) (filterMap_calls_fillNext (fun _ => rfl) rfl hc))
    · intro hd
      refine ⟨?_, filterMap_calls_fillNext (fun _ => rfl) rfl hc⟩
      rw [fillNext_frame] at hd
      exact hd
  | skip hc | stopped hc =>
    have hu := filterMap_calls_pop (φ := Frame.combine?) hc rfl
    have hx := filterMap_calls_pop (φ := Frame.combined?) hc rfl
    exact Collected.silent
      (h.of_same rfl rfl (.of_eq (congrArg (· ++ merged) hu)) fun hd => ⟨hd, hx⟩) rfl rfl
  | launch hc | stop hc =>
    refine Collected.silent (h.of_same rfl rfl ?_ fun hd => ⟨hd, ?_⟩) rfl rfl
    · rw [hc]
      exact .refl _
    · rw [hc]
      rfl
  | @handed i r s hc =>
    have hu := filterMap_calls_attach (φ := Frame.combine?) (fun _ => rfl) (fun _ => rfl) r hc
    have hx := filterMap_calls_attach (φ := Frame.combined?) (fun _ => rfl) (fun _ => rfl) r hc
    rw [attach_eq] at hu hx ⊢
    exact Collected.silent
      (h.of_same rfl rfl (.of_eq (congrArg (· ++ merged) hu)) fun hd => ⟨hd, hx⟩) rfl rfl
  | start | resolve | abandon | forward | retire | halt =>
    exact Collected.silent (h.of_same rfl rfl (.refl _) fun hd => ⟨hd, rfl⟩) rfl rfl

theorem map_along_admitted? (h : Trace step e₀ ms e events) :
    (along step admitted? e₀ ms).map Prod.fst = along step accepted? e₀ ms := by
  induction h with
  | refl => rfl
  | snoc ht hs ih =>
    rw [ht.along_snoc hs, ht.along_snoc hs, List.map_append, ih, ← map_admitted?]
    cases admitted? _ _ <;> rfl

theorem length_admitted (h : Trace step e₀ ms e events) (hz : e₀.succeeded = 0) :
    (along step admitted? e₀ ms).length = e.succeeded := by
  rw [succeeded_of_trace h hz, ← map_along_admitted? h, List.length_map]

theorem collected_of_trace (h : Trace step e₀ ms e events) (h₀ : Collected e₀ [] [])
    (hz : e₀.succeeded = 0) : Collected e (along step admitted? e₀ ms) (merges events) := by
  induction h with
  | refl => exact h₀
  | @snoc ms e es m e' es' ht hs ih =>
    rw [merges_append, ht.along_snoc hs]
    exact collected_step ih (length_admitted ht hz).symm hs

/-- What the merger is called with was waiting for it. -/
theorem mem_unmerged_of_merged {rs : List V} (hs : e.step m = some (e', events))
    (hm : .merged rs ∈ events) : rs ∈ unmerged e.calls := by
  have hr : rs ∈ merges events := List.mem_filterMap.2 ⟨_, hm, rfl⟩
  cases transition_of_step hs with
  | combine hc =>
    obtain rfl : rs = _ := by simpa using hm
    rw [hc]
    exact List.mem_cons_self ..
  | cancel hy => simp [merges_stopWith, cancel] at hr
  | @failure i error hy =>
    have hn := merges_complete i (.error error) e
    change merges (e.fail i error).2 = [] at hn
    simp [hn] at hr
  | combined hc => simp [merges_deliver] at hr
  | receive hc hx hi => simp [merges_complete] at hr
  | start | success | fill | skip | launch | stop | handed | stopped | resolve | abandon | forward
    | retire | halt => simp at hm

theorem getElem?_of_firsts {n i : Nat} {rs : List V} (h : rs.map some = firsts n done)
    (hi : i < n) : ∃ v, done.lookup i = some v ∧ rs[i]? = some v := by
  have hx : (rs.map some)[i]? = some (done.lookup i) := by
    rw [h]
    simp [firsts, hi]
  obtain ⟨v, hv, hl⟩ := Option.map_eq_some_iff.1 (List.getElem?_map.symm.trans hx)
  exact ⟨v, hl.symm, hv⟩

section

variable {id : ExecutionId} {q : Query} {subs : List Query} {w : Nat} {merger : Merger V}

/-- In any run, whatever is reported and whenever, the merger is called once at most. Every sub
query has had a result accepted by then, and the merger gets the first one of each, in order. Once
every sub query has had a result accepted and no call is in progress, the merger has been called. -/
theorem merges_first_accepted (h : (new id q subs w merger).run ms = some (e, events)) :
    (merges events).length ≤ 1 ∧
      Throughout step (fun before e₁ _ m => ∀ e₂ es rs, e₁.step m = some (e₂, es) →
          .merged rs ∈ es → rs.length = subs.length ∧ ∀ i < subs.length, ∃ v,
            (along step admitted? (new id q subs w merger) before).lookup i = some v ∧
              rs[i]? = some v)
        (new id q subs w merger) ms ∧
      (e.calls = [] → 0 < subs.length →
        (∀ i < subs.length, i ∈ along step accepted? (new id q subs w merger) ms) →
        (merges events).length = 1) := by
  have h₀ := collected_new id q subs w merger
  have ht := Trace.of_run h
  have htotal : e.total = subs.length := total_of_plan (plan_of_trace ht)
  have hall := collected_of_trace ht h₀ rfl
  refine ⟨?_, ?_, ?_⟩
  · cases hall with
    | filling _ _ _ _ handed => simp [List.append_eq_nil_iff.1 handed]
    | full _ _ rs handed _ _ =>
      have := congrArg List.length handed
      simp only [List.length_append, List.length_singleton] at this
      omega
  · intro before m after e₁ es₁ _ hb e₂ es rs hs hm
    have ht₁ := Trace.of_run hb
    have htotal₁ : e₁.total = subs.length := total_of_plan (plan_of_trace ht₁)
    have hr := mem_unmerged_of_merged hs hm
    cases collected_of_trace ht₁ h₀ rfl with
    | filling _ _ _ _ handed =>
      rw [(List.append_eq_nil_iff.1 handed).1] at hr
      cases hr
    | full _ _ rs' handed values _ =>
      obtain rfl : rs = rs' := by
        have := List.mem_append_left (merges es₁) hr
        rw [handed] at this
        exact List.mem_singleton.1 this
      rw [htotal₁] at values
      refine ⟨?_, fun i hi => getElem?_of_firsts values hi⟩
      have := congrArg List.length values
      simpa [firsts] using this
  · intro hc hn hx
    cases hall with
    | filling distinct _ missing _ _ =>
      have hsub : (List.range subs.length).Subperm
          ((along step admitted? (new id q subs w merger) ms).map Prod.fst) := by
        apply List.nodup_range.subperm
        intro i hi
        rw [map_along_admitted? ht]
        exact hx i (List.mem_range.1 hi)
      have hle := hsub.length_le
      have hlt := missing (htotal ▸ hn)
      rw [List.length_range, List.length_map] at hle
      omega
    | full _ _ rs handed _ _ =>
      rw [hc] at handed
      exact congrArg List.length handed

end

/-- Two results come in twice, one of them while the merger is at work. -/
def repeating : List (Move Nat) :=
  [.start, .resume, .resume, .handed none, .resume, .resume, .handed none, .resume, .success 1 7,
    .resume, .handed none, .success 0 5, .success 0 6, .success 2 9, .resume, .success 1 8,
    .combined (.value 21)]

theorem merges_first_accepted_repeating : ∃ e events, sample.run repeating = some (e, events) ∧
    (merges events).length = 1 ∧ merges events = [[5, 7, 9]] := by
  obtain ⟨⟨e, events⟩, h⟩ : ∃ t, sample.run repeating = some t := ⟨_, rfl⟩
  obtain ⟨_, _, hm⟩ := merges_first_accepted h
  have he : e.calls = [] ∧ merges events = [[5, 7, 9]] := by
    cases h
    exact ⟨rfl, rfl⟩
  have ha : along step accepted? sample repeating = [1, 0, 2, 1] := rfl
  refine ⟨e, events, h, hm he.1 (by decide) ?_, he.2⟩
  intro i hi
  change i < 3 at hi
  change i ∈ along step accepted? sample repeating
  rw [ha]
  simp
  omega

end Execution
end ScatterGather
