import ScatterGather.Fleet
import ScatterGather.Execution.Work
/-!
The work left in a fleet: that of its executions, and two units for each execution that a sweep has
still to cancel.
-/
namespace ScatterGather.Fleet

variable {V : Type} {f f' : Fleet V} {x : Nat} {events : List (Event V)}

def work (f : Fleet V) : Nat :=
  (f.executions.map Execution.work).sum + 2 * (f.sweeps.map List.length).sum

/-- A step of one execution changes the work by what it changes there. -/
theorem exists_of_on {m : ScatterGather.Move V} (h : f.on x m = some (f', events)) :
    ∃ e e', f.executions[x]? = some e ∧ e.step m = some (e', events) ∧
      f'.work + e.work = f.work + e'.work := by
  unfold on at h
  split at h
  · cases h
  · rename_i e he
    cases hs : e.step m with
    | none => simp [hs] at h
    | some t =>
      obtain ⟨e', evs⟩ := t
      simp only [hs, Option.map_some, Option.some.injEq, Prod.mk.injEq] at h
      obtain ⟨rfl, rfl⟩ := h
      refine ⟨e, e', he, hs, ?_⟩
      have := sum_map_set Execution.work e' he
      simp only [work]
      omega

theorem work_on_lt {m : ScatterGather.Move V} (h : f.on x m = some (f', events)) (c : Nat)
    (hm : ∀ (e e' : Execution V) es, e.step m = some (e', es) → es = events →
      e'.work + c < e.work) :
    f'.work + c < f.work := by
  obtain ⟨e, e', _, hs, hw⟩ := exists_of_on h
  have := hm e e' events hs rfl
  omega

theorem work_on_eq {m : ScatterGather.Move V} (h : f.on x m = some (f', events))
    (hm : ∀ (e e' : Execution V) es, e.step m = some (e', es) → e'.work = e.work) :
    f'.work = f.work := by
  obtain ⟨e, e', _, hs, hw⟩ := exists_of_on h
  have := hm e e' events hs
  omega

theorem work_sweepNext {labelled : List (Nat × Event V)}
    (h : f.step .sweepNext = some (f', labelled)) :
    f'.work + cost (labelled.map Prod.snd) + 1 < f.work := by
  simp only [step] at h
  split at h
  · rename_i x rest s hs
    cases ho : on { f with sweeps := rest :: s } x .cancel with
    | none => simp [ho] at h
    | some t =>
      obtain ⟨g, evs⟩ := t
      simp only [ho, Option.map_some, Option.some.injEq, Prod.mk.injEq] at h
      obtain ⟨rfl, rfl⟩ := h
      obtain ⟨e, e', _, he, hw⟩ := exists_of_on ho
      have hle : e'.work + cost evs ≤ e.work := by
        have := e.work_cancel_le
        simp only [Execution.step] at he
        split at he
        · injection he with he
          simp only [he] at this
          exact this
        · cases he
      have hl : (label x evs).map Prod.snd = evs := by simp [label, Function.comp_def]
      simp only [work, hs, hl, List.map_cons, List.sum_cons, List.length_cons] at *
      omega
  · cases h

theorem work_sweepEnd {labelled : List (Nat × Event V)}
    (h : f.step .sweepEnd = some (f', labelled)) : f'.work = f.work := by
  simp only [step] at h
  split at h
  · rename_i s hs
    cases h
    simp [work, hs]
  · cases h

end ScatterGather.Fleet
