import ScatterGather.Proofs.Execution.Filling
import ScatterGather.Proofs.Execution.Merging

/-! Which successes count. A success finds its place empty before the first one for its sub query,
and once more when the results have been taken out for the merger. -/
namespace ScatterGather

/-- Of the entries that come in, those since the first `n` were taken out. -/
def recent {α : Type} (n : Nat) (l : List α) : List α := if l.length < n then l else l.drop n

section

variable {α β : Type} {n : Nat} {l : List α}

theorem map_recent (f : α → β) : (recent n l).map f = recent n (l.map f) := by
  unfold recent
  rw [List.length_map]
  split
  · rfl
  · exact List.map_drop

theorem recent_concat (h : l.length + 1 ≠ n) (a : α) : recent n (l ++ [a]) = recent n l ++ [a] := by
  unfold recent
  rw [List.length_append, List.length_singleton]
  by_cases hl : l.length < n
  · rw [if_pos hl, if_pos (by omega)]
  · rw [if_neg hl, if_neg (by omega), List.drop_append_of_le_length (by omega)]

theorem recent_of_length_eq (h : l.length = n) : recent n l = [] := by
  rw [recent, if_neg (by omega), ← h, List.drop_length]

end

/-- Numbers below `n` of which none comes twice among the first `n`, and none twice after them. -/
structure Batched (n : Nat) (l : List Nat) : Prop where
  first : (l.take n).Nodup
  rest : (l.drop n).Nodup
  bound : ∀ i ∈ l, i < n

section

variable {n i : Nat} {l : List Nat}

theorem batched_concat (h : Batched n l) (hi : i < n) (hx : i ∉ recent n l) :
    Batched n (l ++ [i]) := by
  have hbound : ∀ j ∈ l ++ [i], j < n := by
    intro j hj
    rcases List.mem_append.1 hj with hj | hj
    · exact h.bound j hj
    · rwa [List.mem_singleton.1 hj]
  have hone : [i].Nodup := List.nodup_singleton i
  by_cases hl : l.length < n
  · rw [recent, if_pos hl] at hx
    have hfirst := h.first
    rw [List.take_of_length_le (Nat.le_of_lt hl)] at hfirst
    refine ⟨?_, ?_, hbound⟩
    · rw [List.take_of_length_le (by simp; omega)]
      exact hfirst.append hone (by simpa using hx)
    · rw [List.drop_of_length_le (by simp; omega)]
      exact .nil
  · rw [recent, if_neg hl] at hx
    have hle : n ≤ l.length := Nat.le_of_not_lt hl
    refine ⟨?_, ?_, hbound⟩
    · rw [List.take_append_of_le_length hle]
      exact h.first
    · rw [List.drop_append_of_le_length hle]
      exact h.rest.append hone (by simpa using hx)

theorem Batched.length_le (h : Batched n l) : l.length ≤ 2 * n := by
  have htake := (Execution.subperm_range h.first fun j hj =>
    h.bound j (List.mem_of_mem_take hj)).length_le
  have hdrop := (Execution.subperm_range h.rest fun j hj =>
    h.bound j (List.mem_of_mem_drop hj)).length_le
  have hboth := congrArg List.length (List.take_append_drop n l)
  rw [List.length_append] at hboth
  rw [List.length_range] at htake hdrop
  omega

theorem Batched.nodup_iff (h : Batched n l) : l.Nodup ↔ l.length ≤ n := by
  constructor
  · intro hn
    have := (Execution.subperm_range hn h.bound).length_le
    rwa [List.length_range] at this
  · intro hle
    have hfirst := h.first
    rwa [List.take_of_length_le hle] at hfirst

end

namespace Execution

variable {V : Type} {e e' e₀ : Execution V} {m : Move V} {ms : List (Move V)}
  {events : List (Event V)} {launched : List Nat} {done : List (Nat × V)} {i : Nat} {v : V}

/-- The execution once the report that a move brings is out of the inbox. -/
def taken (e : Execution V) : Move V → Execution V
  | .receive => { e with inbox := e.inbox.tail }
  | _ => e

theorem taken_frame (e : Execution V) (m : Move V) :
    e.taken m = { e with inbox := (e.taken m).inbox } := by cases m <;> rfl

theorem isCompleted_taken (e : Execution V) (m : Move V) :
    (e.taken m).isCompleted = e.isCompleted := by
  rw [taken_frame]
  rfl

theorem lacks_taken (e : Execution V) (m : Move V) (i : Nat) :
    (e.taken m).lacks i = e.lacks i := by
  rw [taken_frame]
  rfl

/-- What a success does, from wherever it is reported. -/
theorem step_of_success (hr : e.report? m = some (i, .ok v)) (hs : e.step m = some (e', events)) :
    e' = (e.taken m).succeed i v ∧ events = [] := by
  cases transition_of_step hs with
  | success hy =>
    cases hr
    exact ⟨rfl, rfl⟩
  | receive hc hd hi =>
    rw [report?_receive hi] at hr
    cases hr
    simp [taken, hi, complete]
  | failure | start | cancel | fill | skip | launch | combine | stop | handed | stopped | combined
    | resolve | abandon | forward | retire | halt => cases hr

theorem succeed_eq_self_iff : e.succeed i v = e ↔ e.isCompleted = true ∨ e.lacks i = false := by
  constructor
  · intro h
    by_contra hx
    have hn := succeeded_succeed i v e
    rw [h, if_pos (by simpa using hx)] at hn
    omega
  · intro h
    rcases succeed_cases i v e with hs | ⟨hd, hl, _⟩
    · exact hs
    · simp [hd, hl] at h

/-- The places that are taken are those of the recent successes. -/
structure Stored (e : Execution V) (done : List (Nat × V)) : Prop where
  results : e.results = firsts e.total (recent e.total done)
  batches : Batched e.total (done.map Prod.fst)

theorem stored_new (id : ExecutionId) (q : Query) (subs : List Query) (w : Nat)
    (merger : Merger V) : Stored (new id q subs w merger) [] where
  results := by
    change List.replicate subs.length none = firsts _ (recent _ [])
    simp [firsts, recent, List.map_const']
    rfl
  batches := ⟨by simp, by simp, nofun⟩

theorem Stored.of_same (h : Stored e done) (ht : e'.total = e.total)
    (hr : e'.results = e.results) : Stored e' done :=
  ⟨by rw [hr, ht, h.results], ht ▸ h.batches⟩

theorem lacks_of_stored (h : Stored e done) :
    e.lacks i = true ↔ i < e.total ∧ i ∉ recent e.total (done.map Prod.fst) := by
  rw [lacks_of_results h.results, map_recent]

theorem results_refill (e : Execution V) : e.refill.results = e.results := by rw [refill_frame]

/-- A success that counts takes a place that is free. The one that takes the last place frees them
all. -/
theorem stored_record (h : Stored e done) (hn : e.succeeded = done.length)
    (hl : e.lacks i = true) :
    Stored (e.record i v).collect.refill (done ++ [(i, v)]) := by
  obtain ⟨hi, hx⟩ := (lacks_of_stored h).1 hl
  have htotal : (e.record i v).collect.refill.total = e.total := by
    rw [refill_frame, collect_frame]
    rfl
  constructor
  · rw [htotal, results_refill]
    rcases collect_cases (e.record i v) with ⟨hf, hc⟩ | ⟨hf, hc⟩
    · change e.succeeded + 1 = e.total at hf
      rw [hc, recent_of_length_eq (by simp; omega)]
      change (e.results.set i (some v)).map (fun _ => none) = firsts e.total []
      have hlen : e.results.length = e.total := by simp [h.results, firsts]
      simp [firsts, hlen, List.map_const']
    · change e.succeeded + 1 ≠ e.total at hf
      rw [← map_recent, ← lookup_eq_none] at hx
      rw [hc, recent_concat (by omega), ← firsts_set hx, ← h.results]
      rfl
  · rw [htotal, List.map_append]
    exact batched_concat h.batches hi hx

theorem stored_success (h : Stored e done) (hn : e.succeeded = done.length)
    (hr : e.report? m = some (i, .ok v)) :
    Stored ((e.taken m).succeed i v) (done ++ (e.admitted? m).toList) := by
  have htaken : Stored (e.taken m) done := by
    rw [taken_frame]
    exact h.of_same rfl rfl
  have hn' : (e.taken m).succeeded = done.length := by
    rw [taken_frame]
    exact hn
  have ha : e.admitted? m =
      if (e.taken m).isCompleted = false ∧ (e.taken m).lacks i = true then some (i, v)
      else none := by
    rw [admitted?, hr, isCompleted_taken, lacks_taken]
  rcases succeed_cases i v (e.taken m) with hs | ⟨hd, hl, hs⟩
  · have hx := succeed_eq_self_iff.1 hs
    rw [ha, if_neg (by rintro ⟨hd, hl⟩; simp [hd, hl] at hx), hs]
    simpa using htaken
  · rw [ha, if_pos ⟨hd, hl⟩, hs]
    exact stored_record htaken hn' hl

theorem stored_step (h : Stored e done) (hn : e.succeeded = done.length)
    (hs : e.step m = some (e', events)) : Stored e' (done ++ (e.admitted? m).toList) := by
  have quiet (ha : e.admitted? m = none) (hr : e'.results = e.results) :
      Stored e' (done ++ (e.admitted? m).toList) := by
    rw [ha, Option.toList_none, List.append_nil]
    exact h.of_same (total_of_plan (plan_step hs)) hr
  cases transition_of_step hs with
  | @success i v hy => exact stored_success (m := .success i v) h hn rfl
  | @receive i r rest hc hr hi =>
    have hx := report?_receive hi
    cases r with
    | ok v =>
      obtain ⟨he, _⟩ := step_of_success hx hs
      rw [he]
      exact stored_success h hn hx
    | error error =>
      apply quiet (admitted?_of_error hx)
      change (fail i error { e with inbox := rest }).1.results = e.results
      rw [fail_frame]
  | failure hy => exact quiet rfl (by rw [fail_frame])
  | cancel hy => exact quiet rfl (by rw [cancel, stopWith_fst])
  | fill hc => exact quiet rfl (by rw [fillNext_frame])
  | handed hc => exact quiet rfl (by rw [attach_eq])
  | combined hc => exact quiet rfl (by rw [deliver_fst]; rfl)
  | start | skip | launch | combine | stop | stopped | resolve | abandon | forward | retire
    | halt => exact quiet rfl rfl

theorem stored_of_trace (h : Trace step e₀ ms e events) (h₀ : Stored e₀ [])
    (hz : e₀.succeeded = 0) : Stored e (along step admitted? e₀ ms) := by
  induction h with
  | refl => exact h₀
  | snoc ht hs ih =>
    rw [ht.along_snoc hs]
    exact stored_step ih (length_admitted ht hz).symm hs

/-- Without an outcome, a success is ignored when its place is taken or does not exist. -/
theorem ignored_iff (h : Stored e done) (hd : e.isCompleted = false)
    (hr : e.report? m = some (i, .ok v)) (hs : e.step m = some (e', events)) :
    (e', events) = (e.taken m, []) ↔
      e.total ≤ i ∨ i ∈ recent e.total (done.map Prod.fst) := by
  obtain ⟨rfl, rfl⟩ := step_of_success hr hs
  rw [Prod.mk.injEq, eq_self_iff_true, and_true, succeed_eq_self_iff, isCompleted_taken, hd,
    lacks_taken, ← Bool.not_eq_true (e.lacks i), lacks_of_stored h]
  simp only [Bool.false_eq_true, false_or, not_and, Decidable.not_not]
  constructor
  · intro hx
    by_cases hi : i < e.total
    · exact .inr (hx hi)
    · exact .inl (Nat.le_of_not_lt hi)
  · rintro (hi | hi) hlt
    · omega
    · exact hi

/-- A success that is not ignored is applied. -/
theorem accepted_or_ignored (hd : e.isCompleted = false) (hr : e.report? m = some (i, .ok v))
    (hs : e.step m = some (e', events)) :
    e.accepted? m = some i ∨ (e', events) = (e.taken m, []) := by
  obtain ⟨rfl, rfl⟩ := step_of_success hr hs
  cases hl : e.lacks i with
  | true => exact .inl (by rw [accepted?_of_ok hr, if_pos ⟨hd, hl⟩])
  | false => exact .inr (by rw [succeed_eq_self_iff.2 (.inr ((lacks_taken e m i).trans hl))])

/-- Each success that counts brings the next sub query, as long as there is one. -/
def Matched (e : Execution V) : Prop := min e.succeeded e.total ≤ e.dispatched

theorem counters_success (hl : Lined e launched) (ha : e.accepted? m = some i)
    (hs : e.step m = some (e', events)) :
    e'.counters = (min (e.dispatched + 1) e.total, e.succeeded + 1) := by
  obtain ⟨_, _, hd, _⟩ := report?_of_accepted? ha
  have hn := nextIndex_of_open hl hd
  have hle := hl.le_total
  cases tally_of_step hs with
  | success _ hc =>
    rw [hc, hn]
    split <;> simp <;> omega
  | same hx | fill hx | full hx =>
    rw [ha] at hx
    cases hx

theorem matched_step (h : Matched e) (hl : Lined e launched)
    (hs : e.step m = some (e', events)) : Matched e' := by
  have ht := total_of_plan (plan_step hs)
  unfold Matched at h ⊢
  cases tally_of_step hs with
  | same _ hc | full _ hc =>
    obtain ⟨hdisp, hsucc⟩ := Prod.mk.inj hc
    rwa [ht, hdisp, hsucc]
  | fill _ _ hc =>
    obtain ⟨hdisp, hsucc⟩ := Prod.mk.inj hc
    rw [ht, hdisp, hsucc]
    omega
  | success ha hc =>
    obtain ⟨hdisp, hsucc⟩ := Prod.mk.inj (counters_success hl ha hs)
    rw [ht, hdisp, hsucc]
    omega

theorem matched_of_trace (h : Trace step e₀ ms e events) (h₀ : Lined e₀ []) (hm : Matched e₀) :
    Matched e := by
  induction h with
  | refl => exact hm
  | snoc ht hs ih => exact matched_step ih (lined_of_trace ht h₀) hs

/-- While there is no outcome, a success is ignored exactly if there is no such sub query, or if one
was applied for it since results were last handed to the merger. Any other is applied, also one for
a sub query that was never passed on, and a second one while the merger is at work. So no more than
two successes count for each sub query. There are more successes than dispatches exactly if two
were applied for the same sub query. -/
theorem success_ignored_iff {id : ExecutionId} {q : Query} {subs : List Query} {w : Nat}
    {merger : Merger V} (h : (new id q subs w merger).run ms = some (e, events)) :
    let accepted := along step accepted? (new id q subs w merger) ms
    (∀ i v, e.yields = true → (e.step (.success i v)).isSome = true) ∧
      (∀ m i v t, e.isCompleted = false → e.report? m = some (i, .ok v) → e.step m = some t →
        (t = (e.taken m, []) ↔ subs.length ≤ i ∨ i ∈ recent subs.length accepted) ∧
        (t ≠ (e.taken m, []) → t.2 = [] ∧
          t.1.counters = (min (e.dispatched + 1) subs.length, e.succeeded + 1))) ∧
      e.succeeded = accepted.length ∧ min e.succeeded subs.length ≤ e.dispatched ∧
      e.dispatched ≤ subs.length ∧ e.succeeded ≤ 2 * subs.length ∧
      (e.succeeded ≤ e.dispatched ↔ accepted.Nodup) := by
  intro accepted
  have ht := Trace.of_run h
  have h₀ := lined_new id q subs w merger
  have hl := lined_of_trace ht h₀
  have htotal : e.total = subs.length := total_of_plan (plan_of_trace ht)
  have hstored := stored_of_trace ht (stored_new id q subs w merger) rfl
  have hkeys : (along step admitted? (new id q subs w merger) ms).map Prod.fst = accepted :=
    map_along_admitted? ht
  have hbatched : Batched subs.length accepted := by
    have := hstored.batches
    rwa [hkeys, htotal] at this
  have hsucc : e.succeeded = accepted.length := succeeded_of_trace ht rfl
  have hmatched : Matched e := matched_of_trace ht h₀ (Nat.zero_le _)
  have hle := hl.le_total
  rw [Matched, htotal] at hmatched
  rw [htotal] at hle
  refine ⟨?_, ?_, hsucc, hmatched, hle, hsucc ▸ hbatched.length_le, ?_⟩
  · intro i v hy
    simp [step, hy]
  · rintro m i v ⟨e', es⟩ hd hr hs
    have hiff := ignored_iff hstored hd hr hs
    rw [hkeys, htotal] at hiff
    refine ⟨hiff, fun hx => ⟨(step_of_success hr hs).2, ?_⟩⟩
    rw [← htotal]
    exact counters_success hl ((accepted_or_ignored hd hr hs).resolve_right hx) hs
  · rw [hbatched.nodup_iff]
    omega

/-- The window of two is filled. -/
def filling : List (Move Nat) :=
  [.start, .resume, .resume, .handed none, .resume, .resume, .handed none, .resume]

/-- The first sub query succeeds, and what it brings is passed on. A second success for it is
ignored, and so is one for a sub query that there is not. -/
theorem success_ignored_iff_repeated : ∃ e events,
    sample.run (filling ++ [.success 0 5, .resume, .handed none]) = some (e, events) ∧
      e.step (.success 0 6) = some (e, []) ∧ e.step (.success 7 6) = some (e, []) ∧
      e.succeeded ≤ e.dispatched := by
  obtain ⟨⟨e, events⟩, h⟩ : ∃ t,
    sample.run (filling ++ [.success 0 5, .resume, .handed none]) = some t := ⟨_, rfl⟩
  obtain ⟨hsome, hignored, _, _, _, _, hle⟩ := success_ignored_iff h
  have he : e.yields = true ∧ e.isCompleted = false := by
    cases h
    exact ⟨rfl, rfl⟩
  obtain ⟨hy, hd⟩ := he
  have ha : along step accepted? sample (filling ++ [.success 0 5, .resume, .handed none]) = [0] :=
    rfl
  obtain ⟨t₁, h₁⟩ := Option.isSome_iff_exists.1 (hsome 0 6 hy)
  obtain ⟨t₂, h₂⟩ := Option.isSome_iff_exists.1 (hsome 7 6 hy)
  refine ⟨e, events, h, ?_, ?_, hle.2 ?_⟩
  · rw [h₁, (hignored _ 0 6 t₁ hd rfl h₁).1.2 (.inr (ha ▸ List.mem_singleton_self _))]
    rfl
  · rw [h₂, (hignored _ 7 6 t₂ hd rfl h₂).1.2 (.inl (by decide))]
    rfl
  · exact ha ▸ List.nodup_singleton 0

/-- The last of three sub queries succeeds before it is passed on. Once all three have succeeded, a
second success for one of them is applied while the merger is at work. -/
theorem unexpected_success_counts : ∃ e₁ events₁ e₂ e₃ events₃,
    sample.run filling = some (e₁, events₁) ∧ e₁.isCompleted = false ∧
      2 ∉ dispatches events₁ ∧ e₁.step (.success 2 9) = some (e₂, []) ∧
      e₂.succeeded = e₁.succeeded + 1 ∧
      e₂.run [.resume, .handed none, .success 0 5, .success 1 7, .resume, .success 1 8] =
        some (e₃, events₃) ∧ e₃.isCompleted = false ∧ e₃.dispatched = 3 ∧ e₃.succeeded = 4 :=
  ⟨_, _, _, _, _, rfl, rfl, by decide, rfl, rfl, rfl, rfl, rfl, rfl⟩

end Execution
end ScatterGather
