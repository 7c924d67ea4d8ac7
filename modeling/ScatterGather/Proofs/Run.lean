import Mathlib.Data.List.Induction
import ScatterGather.Run

/-! Runs taken apart at their first and last steps, and what can be read along them. -/
namespace ScatterGather

variable {S M E α : Type}

/-- A run that grows at its end. -/
inductive Trace (step : S → M → Option (S × List E)) (s₀ : S) : List M → S → List E → Prop
  | refl : Trace step s₀ [] s₀ []
  | snoc {ms s events m s' events'} : Trace step s₀ ms s events →
      step s m = some (s', events') → Trace step s₀ (ms ++ [m]) s' (events ++ events')

variable {step : S → M → Option (S × List E)} {s s' s₀ : S} {m : M} {ms ns : List M}
  {events events' : List E}

theorem run_nil_eq_some : runFrom step s₀ [] = some (s, events) ↔ s₀ = s ∧ [] = events := by
  simp [runFrom]

theorem run_singleton : runFrom step s₀ [m] = step s₀ m := by
  rw [runFrom]
  cases step s₀ m with
  | none => rfl
  | some t => simp [runFrom]

theorem run_singleton_eq_some :
    runFrom step s₀ [m] = some (s, events) ↔ step s₀ m = some (s, events) := by
  rw [run_singleton]

theorem run_append : runFrom step s₀ (ms ++ ns) =
    (runFrom step s₀ ms).bind fun t => (runFrom step t.1 ns).map fun u => (u.1, t.2 ++ u.2) := by
  induction ms generalizing s₀ with
  | nil => simp [runFrom]
  | cons m ms ih =>
    rw [List.cons_append, runFrom, runFrom]
    cases step s₀ m with
    | none => rfl
    | some t => simp [ih, Option.map_bind, Option.bind_map, Function.comp_def]

theorem run_append_eq_some : runFrom step s₀ (ms ++ ns) = some (s, events) ↔
    ∃ s₁ es₁ es₂, runFrom step s₀ ms = some (s₁, es₁) ∧ runFrom step s₁ ns = some (s, es₂) ∧
      events = es₁ ++ es₂ := by
  rw [run_append, Option.bind_eq_some_iff]
  constructor
  · rintro ⟨⟨s₁, es₁⟩, h₁, h⟩
    obtain ⟨⟨s₂, es₂⟩, h₂, ht⟩ := Option.map_eq_some_iff.1 h
    cases ht
    exact ⟨s₁, es₁, es₂, h₁, h₂, rfl⟩
  · rintro ⟨s₁, es₁, es₂, h₁, h₂, rfl⟩
    exact ⟨(s₁, es₁), h₁, Option.map_eq_some_iff.2 ⟨(s, es₂), h₂, rfl⟩⟩

theorem run_cons_eq_some : runFrom step s₀ (m :: ms) = some (s, events) ↔
    ∃ s₁ es₁ es₂, step s₀ m = some (s₁, es₁) ∧ runFrom step s₁ ms = some (s, es₂) ∧
      events = es₁ ++ es₂ := by
  rw [← List.singleton_append, run_append_eq_some, run_singleton]

namespace Trace

theorem run (h : Trace step s₀ ms s events) : runFrom step s₀ ms = some (s, events) := by
  induction h with
  | refl => rfl
  | snoc _ hs ih => exact run_append_eq_some.2 ⟨_, _, _, ih, run_singleton_eq_some.2 hs, rfl⟩

theorem of_run (h : runFrom step s₀ ms = some (s, events)) : Trace step s₀ ms s events := by
  induction ms using List.reverseRecOn generalizing s events with
  | nil =>
    obtain ⟨rfl, rfl⟩ := run_nil_eq_some.1 h
    exact .refl
  | append_singleton ms m ih =>
    obtain ⟨s₁, es₁, es₂, h₁, h₂, rfl⟩ := run_append_eq_some.1 h
    exact .snoc (ih h₁) (run_singleton_eq_some.1 h₂)

/-- What every move of a run keeps is kept by the run. -/
theorem keeps {P : S → Prop} (h : Trace step s₀ ms s events)
    (hs : ∀ {s m s' es}, m ∈ ms → P s → step s m = some (s', es) → P s') (h₀ : P s₀) : P s := by
  induction h with
  | refl => exact h₀
  | snoc _ hst ih =>
    exact hs (by simp) (ih fun hm hp hst => hs (List.mem_append_left _ hm) hp hst) hst

end Trace

/-- What `read` finds at the steps of a run, in order. -/
def along (step : S → M → Option (S × List E)) (read : S → M → Option α) (s : S) :
    List M → List α
  | [] => []
  | m :: ms =>
    match step s m with
    | none => []
    | some (s', _) => (read s m).toList ++ along step read s' ms

theorem along_append {read : S → M → Option α} (h : runFrom step s₀ ms = some (s, events)) :
    along step read s₀ (ms ++ ns) = along step read s₀ ms ++ along step read s ns := by
  induction ms generalizing s₀ events with
  | nil =>
    obtain ⟨rfl, rfl⟩ := run_nil_eq_some.1 h
    rfl
  | cons m ms ih =>
    obtain ⟨s₁, es₁, es₂, hs, hr, rfl⟩ := run_cons_eq_some.1 h
    simp only [List.cons_append, along, hs, ih hr, List.append_assoc]

theorem Trace.along_snoc {read : S → M → Option α} (h : Trace step s₀ ms s events)
    (hs : step s m = some (s', events')) :
    along step read s₀ (ms ++ [m]) = along step read s₀ ms ++ (read s m).toList := by
  rw [along_append h.run]
  simp [along, hs]

/-- Every step of a run is one that `allowed` permits. -/
def Follows (step : S → M → Option (S × List E)) (allowed : S → M → Prop) (s : S) :
    List M → Prop
  | [] => True
  | m :: ms =>
    allowed s m ∧
      match step s m with
      | none => True
      | some (s', _) => Follows step allowed s' ms

theorem follows_append {allowed : S → M → Prop} (h : runFrom step s₀ ms = some (s, events)) :
    Follows step allowed s₀ (ms ++ ns) ↔
      Follows step allowed s₀ ms ∧ Follows step allowed s ns := by
  induction ms generalizing s₀ events with
  | nil =>
    obtain ⟨rfl, rfl⟩ := run_nil_eq_some.1 h
    simp [Follows]
  | cons m ms ih =>
    obtain ⟨s₁, es₁, es₂, hs, hr, rfl⟩ := run_cons_eq_some.1 h
    simp only [List.cons_append, Follows, hs, ih hr, and_assoc]

theorem Trace.follows_snoc {allowed : S → M → Prop} (h : Trace step s₀ ms s events)
    (hs : step s m = some (s', events')) :
    Follows step allowed s₀ (ms ++ [m]) ↔ Follows step allowed s₀ ms ∧ allowed s m := by
  rw [follows_append h.run]
  simp [Follows, hs]

/-- Before every move of a run, `P` holds of the moves so far, the state, what happened so far and
the move. -/
def Throughout (step : S → M → Option (S × List E)) (P : List M → S → List E → M → Prop) (s₀ : S)
    (ms : List M) : Prop :=
  ∀ before m after s events, ms = before ++ m :: after →
    runFrom step s₀ before = some (s, events) → P before s events m

theorem throughout_nil (P : List M → S → List E → M → Prop) (s₀ : S) :
    Throughout step P s₀ [] := by
  intro before m after s events hm
  simp at hm

theorem Trace.throughout_snoc {P : List M → S → List E → M → Prop}
    (h : Trace step s₀ ms s events) :
    Throughout step P s₀ (ms ++ [m]) ↔ Throughout step P s₀ ms ∧ P ms s events m := by
  constructor
  · intro ho
    constructor
    · intro before m' after s' es hm
      exact ho before m' (after ++ [m]) s' es (by simp [hm])
    · exact ho ms m [] s events rfl h.run
  · rintro ⟨ho, hl⟩ before m' after s' es hm hr
    rcases List.eq_nil_or_concat after with rfl | ⟨after, m'', rfl⟩
    · obtain ⟨rfl, hm⟩ := List.append_inj' hm rfl
      obtain rfl : m = m' := by simpa using hm
      obtain ⟨rfl, rfl⟩ : s = s' ∧ events = es := by simpa [h.run] using hr
      exact hl
    · have hm' : ms ++ [m] = (before ++ m' :: after) ++ [m''] := by simpa using hm
      exact ho before m' after s' es (List.append_inj' hm' rfl).1 hr

end ScatterGather
