import ScatterGather.Fleet
import ScatterGather.Proofs.Run

/-! Every way in which a step of a fleet can go, and what a run is for one of the executions. -/
namespace ScatterGather.Fleet

variable {V : Type}

/-- The fleet after a step of execution `x` from `e` to `e'`. -/
def put (g : Fleet V) (x : Nat) (e e' : Execution V) (events : List (Event V)) : Fleet V :=
  { g with
    executions := g.executions.set x e'
    outstanding :=
      if events.any isDeregistration then g.outstanding.deregister e.id else g.outstanding }

/-- A step with what it needs: an execution joins or moves, a sweep begins, cancels one
execution, or ends. -/
inductive Transition (g : Fleet V) : Move V → Fleet V → List (Nat × Event V) → Prop
  | add {e registered} : Transition g (.add e registered) (g.add e registered) []
  | on {x m e e' events} (he : g.executions[x]? = some e) (hs : e.step m = some (e', events)) :
      Transition g (.on x m) (g.put x e e' events) (label x events)
  | sweep {order} (ho : order.Perm g.registered) :
      Transition g (.sweep order) { g with sweeps := order :: g.sweeps } []
  | sweepNext {x rest s e e' events} (hw : g.sweeps = (x :: rest) :: s)
      (he : g.executions[x]? = some e) (hs : e.step .cancel = some (e', events)) :
      Transition g .sweepNext ({ g with sweeps := rest :: s }.put x e e' events) (label x events)
  | sweepEnd {s} (hw : g.sweeps = [] :: s) : Transition g .sweepEnd { g with sweeps := s } []

variable {g g' : Fleet V} {x y : Nat} {e : Execution V}

theorem exists_put_of_on {m : ScatterGather.Move V} {events : List (Event V)}
    (h : g.on x m = some (g', events)) :
    ∃ e e', g.executions[x]? = some e ∧ e.step m = some (e', events) ∧
      g' = g.put x e e' events := by
  unfold on at h
  split at h
  · cases h
  · rename_i e he
    obtain ⟨⟨e', es⟩, hs, ht⟩ := Option.map_eq_some_iff.1 h
    cases ht
    exact ⟨e, e', he, hs, rfl⟩

theorem step_on {e' : Execution V} {m : ScatterGather.Move V} {events : List (Event V)}
    (he : g.executions[x]? = some e) (hs : e.step m = some (e', events)) :
    g.step (.on x m) = some (g.put x e e' events, label x events) := by
  simp only [step, on, he, hs, Option.map_some]
  rfl

theorem transition_of_step {m : Move V} {events : List (Nat × Event V)}
    (h : g.step m = some (g', events)) : Transition g m g' events := by
  cases m with
  | add e registered =>
    cases h
    exact .add
  | on x m =>
    obtain ⟨⟨g₁, es⟩, ho, ht⟩ := Option.map_eq_some_iff.1 h
    cases ht
    obtain ⟨e, e', he, hs, rfl⟩ := exists_put_of_on ho
    exact .on he hs
  | sweep order =>
    obtain ⟨hp, ht⟩ := Option.ite_none_right_eq_some.1 h
    cases ht
    exact .sweep (List.isPerm_iff.1 hp)
  | sweepNext =>
    simp only [step] at h
    split at h
    · obtain ⟨⟨g₁, es⟩, ho, ht⟩ := Option.map_eq_some_iff.1 h
      cases ht
      obtain ⟨e, e', he, hs, rfl⟩ := exists_put_of_on ho
      exact .sweepNext ‹_› he hs
    · cases h
  | sweepEnd =>
    simp only [step] at h
    split at h
    · cases h
      exact .sweepEnd ‹_›
    · cases h

/-- The move on execution `x`, if any. A sweep that comes to it cancels it. -/
def moveOn? (g : Fleet V) (x : Nat) : Move V → Option (ScatterGather.Move V)
  | .on y m => if y = x then some m else none
  | .sweepNext =>
    match g.sweeps with
    | (y :: _) :: _ => if y = x then some .cancel else none
    | _ => none
  | _ => none

/-- The moves on execution `x`, in order. -/
def movesOn (g : Fleet V) (x : Nat) (ms : List (Move V)) : List (ScatterGather.Move V) :=
  along step (fun g => g.moveOn? x) g ms

/-- What happens outside in the name of `x`. -/
def eventsOf (x : Nat) (events : List (Nat × Event V)) : List (Event V) :=
  (events.filter fun p => p.1 = x).map (·.2)

@[simp] theorem eventsOf_append (es fs : List (Nat × Event V)) :
    eventsOf x (es ++ fs) = eventsOf x es ++ eventsOf x fs := by
  simp [eventsOf]

theorem eventsOf_label (y : Nat) (es : List (Event V)) :
    eventsOf x (label y es) = if y = x then es else [] := by
  by_cases hy : y = x
  · simp [eventsOf, label, hy, List.filter_map, Function.comp_def]
  · simp [eventsOf, label, hy, List.filter_map, Function.comp_def]

theorem own_put {e₁ e₂ : Execution V} {m : ScatterGather.Move V} {events : List (Event V)}
    (hy : g.executions[y]? = some e₁) (hs : e₁.step m = some (e₂, events))
    (he : g.executions[x]? = some e) :
    ∃ e', e.run (if y = x then some m else none).toList =
        some (e', eventsOf x (label y events)) ∧
      (g.put y e₁ e₂ events).executions[x]? = some e' := by
  rw [eventsOf_label]
  by_cases hyx : y = x
  · subst y
    obtain rfl : e = e₁ := Option.some.inj (he.symm.trans hy)
    have hx := (List.getElem?_eq_some_iff.1 he).1
    exact ⟨e₂, by simpa using run_singleton_eq_some.2 hs, by simp [put, hx]⟩
  · exact ⟨e, by simp [hyx, runFrom], by simpa [put, hyx] using he⟩

theorem own_step {m : Move V} {events : List (Nat × Event V)}
    (h : g.step m = some (g', events)) (he : g.executions[x]? = some e) :
    ∃ e', e.run (g.moveOn? x m).toList = some (e', eventsOf x events) ∧
      g'.executions[x]? = some e' := by
  cases transition_of_step h with
  | add =>
    have hx := (List.getElem?_eq_some_iff.1 he).1
    exact ⟨e, rfl, (List.getElem?_append_left hx).trans he⟩
  | on hy hs => exact own_put hy hs he
  | sweep ho => exact ⟨e, rfl, he⟩
  | sweepNext hw hy hs =>
    simp only [moveOn?, hw]
    exact own_put (g := { g with sweeps := _ }) hy hs he
  | sweepEnd hw => exact ⟨e, rfl, he⟩

theorem execution_step {m : Move V} {events : List (Nat × Event V)}
    (h : g.step m = some (g', events)) (he : g.executions[x]? = some e) :
    ∃ e' es, e.run (g.moveOn? x m).toList = some (e', es) ∧ g'.executions[x]? = some e' := by
  obtain ⟨e', hr, he'⟩ := own_step h he
  exact ⟨e', _, hr, he'⟩

variable {g₀ : Fleet V} {m : Move V} {ms : List (Move V)} {events events' : List (Nat × Event V)}

/-- What an execution does in a run is a run of its own. -/
theorem own_run (h : g.run ms = some (g', events)) (he : g.executions[x]? = some e) :
    ∃ e', e.run (g.movesOn x ms) = some (e', eventsOf x events) ∧
      g'.executions[x]? = some e' := by
  induction ms generalizing g e events with
  | nil =>
    cases h
    exact ⟨e, rfl, he⟩
  | cons m ms ih =>
    obtain ⟨g₁, es₁, es₂, hs, hr, rfl⟩ := run_cons_eq_some.1 h
    obtain ⟨e₁, hr₁, he₁⟩ := own_step hs he
    obtain ⟨e₂, hr₂, he₂⟩ := ih hr he₁
    refine ⟨e₂, ?_, he₂⟩
    simp only [movesOn, along, hs, eventsOf_append]
    exact run_append_eq_some.2 ⟨e₁, _, _, hr₁, hr₂, rfl⟩

theorem execution_run (h : g.run ms = some (g', events)) (he : g.executions[x]? = some e) :
    ∃ e' es, e.run (g.movesOn x ms) = some (e', es) ∧ g'.executions[x]? = some e' := by
  obtain ⟨e', hr, he'⟩ := own_run h he
  exact ⟨e', _, hr, he'⟩

end ScatterGather.Fleet
