import ScatterGather.Proofs.Execution.Merging

/-! An outcome that is a merged result is what the merger of the execution makes of results that it
was called with. -/
namespace ScatterGather

variable {V : Type}

/-- A value, or an error of the merger. -/
def IsMerged : Outcome V → Prop
  | .ok _ => True
  | .error (.merge _ _) => True
  | _ => False

namespace Execution

variable {e e' e₀ : Execution V} {m : Move V} {ms : List (Move V)} {events : List (Event V)}
  {o : Outcome V}

/-- A call of the merger comes back with what the merger makes of the results. -/
def Merges (e : Execution V) : Move V → Prop
  | .combined result => ∀ rs s, e.calls = .merging rs :: s → result = e.merger.merge rs
  | _ => True

theorem mergings_stopWith (error : ShardingError) (e : Execution V) :
    mergings (e.stopWith error).1.calls = mergings e.calls :=
  filterMap_calls_stopWith_of (fun _ => rfl) error e

theorem mergings_complete (i : Nat) (r : SubResult V) (e : Execution V) :
    mergings (e.complete i r).1.calls = mergings e.calls :=
  filterMap_calls_complete (fun _ => rfl) (fun _ => rfl) (fun _ => rfl) i r e

/-- The merger is at work on nothing but what it was called with. -/
theorem mergings_step (hs : e.step m = some (e', events)) :
    mergings e'.calls ⊆ mergings e.calls ++ merges events := by
  have same {fs : List (Frame V)} {es : List (Event V)} (h : mergings fs = mergings e.calls) :
      mergings fs ⊆ mergings e.calls ++ merges es := h ▸ List.subset_append_left ..
  cases transition_of_step hs with
  | combine hc =>
    intro rs hrs
    rw [hc]
    rcases List.mem_cons.1 hrs with rfl | hrs
    · exact List.mem_append_right _ (List.mem_cons_self ..)
    · exact List.mem_append_left _ hrs
  | combined hc =>
    intro rs hrs
    rw [deliver_fst] at hrs
    change rs ∈ mergings e.pop.calls at hrs
    rw [calls_pop hc] at hrs
    rw [hc]
    exact List.mem_append_left _ (List.mem_cons_of_mem _ hrs)
  | cancel hy => exact same (mergings_stopWith ..)
  | @success i v hy => exact same (mergings_complete i (.ok v) e)
  | @failure i error hy => exact same (mergings_complete i (.error error) e)
  | @receive i r rest hc hr hi => exact same (mergings_complete i r { e with inbox := rest })
  | fill hc => exact same (filterMap_calls_fillNext (fun _ => rfl) rfl hc)
  | skip hc | stopped hc => exact same (filterMap_calls_pop hc rfl)
  | launch hc | stop hc => exact same (by rw [hc]; rfl)
  | handed hc => exact same (filterMap_calls_attach (fun _ => rfl) (fun _ => rfl) _ hc)
  | start | resolve | abandon | forward | retire | halt => exact same rfl

theorem mergings_of_trace (h : Trace step e₀ ms e events) (h₀ : mergings e₀.calls = []) :
    mergings e.calls ⊆ merges events := by
  induction h with
  | refl => simp [h₀]
  | snoc _ hs ih =>
    rw [merges_append]
    refine List.Subset.trans (mergings_step hs) (List.append_subset.2 ⟨?_, ?_⟩)
    · exact List.Subset.trans ih (List.subset_append_left ..)
    · exact List.subset_append_right ..

theorem trigger?_combined (e : Execution V) (result : Merged V) : e.trigger? (.combined result) =
    some ((result.result e.merger.strategy).mapError (.merge e.query.order)) := by
  cases result <;> rfl

/-- Only a call of the merger that comes back leads to such an outcome. -/
theorem exists_merging_of_step (hs : e.step m = some (e', events)) (hw : Merges e m)
    (ho : o ∈ deliveries events) (hm : IsMerged o) :
    ∃ rs ∈ mergings e.calls, o = sequential e.merger e.query.order rs := by
  have ht : e.trigger? m = some o := by
    rw [(delivers_step hs).2] at ho
    split at ho
    · cases ho
    · exact Option.mem_toList.1 ho
  cases m with
  | combined result =>
    cases transition_of_step hs with
    | @combined rs _ s hc =>
      refine ⟨rs, by simp [hc, mergings, Frame.merging?], ?_⟩
      rw [trigger?_combined, hw rs s hc, mapError_result] at ht
      exact (Option.some.inj ht).symm
  | cancel =>
    cases ht
    cases hm
  | _ =>
    simp only [trigger?] at ht
    split at ht
    · cases ht
      cases hm
    · cases ht

theorem exists_merges_of_trace (h : Trace step e₀ ms e events) (hw : Follows step Merges e₀ ms)
    (h₀ : mergings e₀.calls = []) (hm : IsMerged o) (ho : o ∈ deliveries events) :
    ∃ rs ∈ merges events, o = sequential e₀.merger e₀.query.order rs := by
  induction h with
  | refl => cases ho
  | snoc ht hs ih =>
    obtain ⟨hf, hw⟩ := (ht.follows_snoc hs).1 hw
    rw [merges_append]
    rw [deliveries_append] at ho
    rcases List.mem_append.1 ho with ho | ho
    · obtain ⟨rs, hrs, hx⟩ := ih hf ho
      exact ⟨rs, List.mem_append_left _ hrs, hx⟩
    · obtain ⟨rs, hrs, hx⟩ := exists_merging_of_step hs hw ho hm
      have hp := plan_of_trace ht
      rw [merger_of_plan hp, query_of_plan hp] at hx
      exact ⟨rs, List.mem_append_left _ (mergings_of_trace ht h₀ hrs), hx⟩

end Execution
end ScatterGather
