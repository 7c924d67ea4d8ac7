import ScatterGather.Proofs.Execution.Opening
import ScatterGather.Proofs.Fleet.Sweep

/-! An execution is in the registry when it first calls the downstream executor, so that a sweep
from inside that call cancels it. -/
namespace ScatterGather.Fleet

variable {V : Type} {g g' g₀ : Fleet V} {x : Nat} {id : ExecutionId} {e e' e₀ : Execution V}
  {m : Move V} {ms : List (Move V)} {events : List (Nat × Event V)} {o : Outcome V}

/-- None of the executions that join is called `id`. -/
def Avoids (id : ExecutionId) (ms : List (Move V)) : Prop :=
  ∀ e registered, Move.add e registered ∈ ms → e.id ≠ id

theorem avoids_append {ns : List (Move V)} :
    Avoids id (ms ++ ns) ↔ Avoids id ms ∧ Avoids id ns := by
  simp only [Avoids, List.mem_append, or_imp, forall_and]

/-- Execution `x` alone is called `id`, and is in the registry as long as it is listed. -/
structure Entered (id : ExecutionId) (x : Nat) (g : Fleet V) : Prop where
  execution : ∃ e, g.executions[x]? = some e ∧ e.id = id
  unique : ∀ y e, g.executions[y]? = some e → e.id = id → y = x
  entry : ∀ e, g.executions[x]? = some e → e.Listed → (id, x) ∈ g.outstanding.entries

theorem entered_add (hid : ∀ e ∈ g.executions, e.id ≠ id) (hi : e.id = id) :
    Entered id g.executions.length (g.add e true) where
  execution := ⟨e, getElem?_add.2 (.inr ⟨rfl, rfl⟩), hi⟩
  unique := by
    intro y e₁ hy h₁
    rcases getElem?_add.1 hy with hy | ⟨rfl, _⟩
    · exact (hid e₁ (List.mem_of_getElem? hy) h₁).elim
    · rfl
  entry := by simp [add, Outstanding.register, hi]

theorem entered_put {y : Nat} {n : ScatterGather.Move V} {es : List (Event V)}
    (h : Entered id x g) (hy : g.executions[y]? = some e) (hs : e.step n = some (e', es)) :
    Entered id x (g.put y e e' es) := by
  obtain ⟨e₀, hx, hi⟩ := h.execution
  have hid : e'.id = e.id := congrArg Prod.fst (Execution.plan_step hs)
  have hlt := (List.getElem?_eq_some_iff.1 hy).1
  have hunique (z : Nat) (e₁ : Execution V) (hz : (g.put y e e' es).executions[z]? = some e₁)
      (h₁ : e₁.id = id) : z = x := by
    obtain ⟨e₂, hz, h₂⟩ := exists_before_put hy hs hz
    exact h.unique z e₂ hz (h₂.trans h₁)
  by_cases hyx : y = x
  · subst y
    obtain rfl : e = e₀ := Option.some.inj (hy.symm.trans hx)
    have hself : (g.put x e e' es).executions[x]? = some e' := by simp [put, hlt]
    refine ⟨⟨e', hself, hid.trans hi⟩, hunique, ?_⟩
    intro e₁ he₁ hl
    obtain rfl : e' = e₁ := Option.some.inj (hself.symm.trans he₁)
    obtain ⟨hl, hd⟩ := (Execution.announces_step hs).1 hl
    refine mem_entries_put.2 ⟨h.entry e hx hl, ?_⟩
    intro hd'
    simp [hd] at hd'
  · have hother : (g.put y e e' es).executions[x]? = g.executions[x]? := by simp [put, hyx]
    refine ⟨⟨e₀, hother.trans hx, hi⟩, hunique, ?_⟩
    intro e₁ he₁ hl
    refine mem_entries_put.2 ⟨h.entry e₁ (hother.symm.trans he₁) hl, ?_⟩
    rintro _ rfl
    exact hyx (h.unique y e hy rfl)

theorem Entered.of_sweeps {s : List (List Nat)} (h : Entered id x g) :
    Entered id x { g with sweeps := s } :=
  ⟨h.execution, h.unique, h.entry⟩

theorem entered_step (h : Entered id x g) (hm : Avoids id [m])
    (hs : g.step m = some (g', events)) : Entered id x g' := by
  cases transition_of_step hs with
  | @add e registered =>
    have hne : e.id ≠ id := hm e registered (List.mem_singleton_self _)
    obtain ⟨e₀, hx, hi⟩ := h.execution
    have hlt := (List.getElem?_eq_some_iff.1 hx).1
    refine ⟨⟨e₀, getElem?_add.2 (.inl hx), hi⟩, ?_, ?_⟩
    · intro y e₁ hy h₁
      rcases getElem?_add.1 hy with hy | ⟨_, rfl⟩
      · exact h.unique y e₁ hy h₁
      · exact (hne h₁).elim
    · intro e₁ he₁ hl
      obtain hx₁ | ⟨hx₁, _⟩ := getElem?_add.1 he₁
      · have hmem := h.entry e₁ hx₁ hl
        cases registered
        · exact hmem
        · simp [add, Outstanding.register, Outstanding.deregister, hmem, hne.symm]
      · exact (Nat.ne_of_lt hlt hx₁).elim
  | on hy hx => exact entered_put h hy hx
  | sweepNext hw hy hx => exact entered_put h.of_sweeps hy hx
  | sweep | sweepEnd => exact h.of_sweeps

theorem entered_of_trace (ht : Trace step g₀ ms g events) (hm : Avoids id ms)
    (h : Entered id x g₀) : Entered id x g := by
  induction ht with
  | refl => exact h
  | snoc _ hs ih =>
    obtain ⟨hm, hlast⟩ := avoids_append.1 hm
    exact entered_step (ih hm) hlast hs

theorem Entered.contains (h : Entered id x g) (he : g.executions[x]? = some e) (hl : e.Listed) :
    g.outstanding.contains id = true ∧ x ∈ g.registered :=
  ⟨Outstanding.contains_iff.2 ⟨x, h.entry e he hl⟩, List.mem_map_of_mem (h.entry e he hl)⟩

/-- An execution goes on in its fleet as it goes on by itself. -/
theorem exists_run_on {ns : List (ScatterGather.Move V)} {es : List (Event V)}
    (he : g.executions[x]? = some e) (hr : e.run ns = some (e', es)) :
    ∃ g', g.run (ns.map (.on x)) = some (g', label x es) ∧ g'.executions[x]? = some e' := by
  induction ns generalizing g e es with
  | nil =>
    obtain ⟨rfl, rfl⟩ := run_nil_eq_some.1 hr
    exact ⟨g, rfl, he⟩
  | cons n ns ih =>
    obtain ⟨e₁, es₁, es₂, hs, hr₁, rfl⟩ := run_cons_eq_some.1 hr
    have hlt := (List.getElem?_eq_some_iff.1 he).1
    have hput : (g.put x e e₁ es₁).executions[x]? = some e₁ := by simp [put, hlt]
    obtain ⟨g', hg, he'⟩ := ih hput hr₁
    exact ⟨g', run_cons_eq_some.2 ⟨_, _, _, step_on he hs, hg, List.map_append⟩, he'⟩

/-- Execution `x` was cancelled inside its first call of the downstream executor by a sweep that has
come to its end. -/
structure CutShort (x : Nat) (o : Outcome V) (g : Fleet V) : Prop where
  /-- When the call returns, the handle of the sub query is cancelled, nothing else is passed on,
  and the start returns. -/
  returns : ∀ r, ∃ g' e', g.run [.sweepEnd, .on x (.handed r), .on x .resume, .on x .stopped,
      .on x .resume] = some (g', [(x, .stopped 0)]) ∧
    g'.executions[x]? = some e' ∧ e'.calls = [] ∧ e'.received = some o
  /-- Whatever else happens. -/
  after : ∀ ms g' events, g.run ms = some (g', events) →
    dispatches (eventsOf x events) = [] ∧
      ∃ e', g'.executions[x]? = some e' ∧ e'.outcome = some o

/-- Every sweep from here comes to execution `x`, goes on when it has, and cuts it short. During the
sweep nothing but cancellations reaches `x`, which is inside a call. -/
def CutShortBySweep (x : Nat) (o : Outcome V) (g : Fleet V) : Prop :=
  ∀ order, order.Perm g.registered → x ∈ order ∧
    ∃ g₁, g.step (.sweep order) = some (g₁, []) ∧
      ∀ ms g₂ events, g₁.run ms = some (g₂, events) → StaysOpen g.sweeps.length g₁ ms →
        (∀ m ∈ g₁.movesOn x ms, m = .cancel) →
        (∀ rest, g₂.sweeps = (x :: rest) :: g.sweeps → (g₂.step .sweepNext).isSome = true) ∧
          (g₂.sweeps = [] :: g.sweeps → CutShort x o g₂)

theorem cutShort_of_opening {s : List (List Nat)} (he : g.executions[x]? = some e)
    (ho : Execution.Opening e) (hd : e.isCompleted = true) (hw : g.sweeps = [] :: s) :
    CutShort x e.cancellation g where
  returns := by
    intro r
    obtain ⟨e', hr, hc, hrec⟩ := ho.run_return hd r
    obtain ⟨g', hg, he'⟩ := exists_run_on (g := { g with sweeps := s }) he hr
    have hend : g.step .sweepEnd = some ({ g with sweeps := s }, []) := by simp [step, hw]
    refine ⟨g', e', run_cons_eq_some.2 ⟨_, _, _, hend, hg, rfl⟩, he', hc, ?_⟩
    rw [hrec, Execution.received, ho.awaited, if_pos rfl, ho.outcome_eq hd]
  after := by
    intro ms g' events hr
    obtain ⟨e', hrun, he'⟩ := own_run hr he
    have ht := Trace.of_run hrun
    obtain ⟨_, hsame⟩ := Execution.deliveries_eq_nil_of_completed ht hd
    exact ⟨Execution.dispatches_eq_nil_of_completed ht hd, e', he',
      hsame.trans (ho.outcome_eq hd)⟩

theorem cutShortBySweep_of_opening (he : g.executions[x]? = some e) (ho : Execution.Opening e)
    (hx : x ∈ g.registered) : CutShortBySweep x e.cancellation g := by
  intro order hord
  have hstep : g.step (.sweep order) = some ({ g with sweeps := order :: g.sweeps }, []) :=
    if_pos (List.isPerm_iff.2 hord)
  refine ⟨hord.mem_iff.2 hx, _, hstep, ?_⟩
  intro ms g₂ events hr hopen hcancel
  obtain ⟨e₂, hrun, he₂⟩ := own_run (g := { g with sweeps := order :: g.sweeps }) hr he
  have ht := Trace.of_run hrun
  have ho₂ := Execution.opening_of_trace ho ht hcancel
  constructor
  · intro rest hw
    exact isSome_step_sweepNext hw he₂ (by simp [Execution.yields, ho₂.calls])
  · intro hend
    obtain ⟨rest, hs⟩ := sweeping_of_trace (Trace.of_run hr) rfl hopen
    obtain ⟨done, hdone, hswept⟩ := hs.done
    have hmem : x ∈ done := by
      have hin := hord.mem_iff.2 hx
      rwa [hdone, ← rest_of_sweeping hs hend, List.append_nil] at hin
    obtain ⟨_, _, _, _, _, e₃, _, _, _, _, he₃, hout⟩ := hswept x hmem
    obtain rfl : e₂ = e₃ := Option.some.inj (he₂.symm.trans he₃)
    have hd : e₂.isCompleted = true := by simp [Execution.isCompleted, hout]
    rw [← Execution.cancellation_of_plan (Execution.plan_of_trace ht)]
    exact cutShort_of_opening he₂ ho₂ hd hend

/-- Execution `x` is in its first call of the downstream executor, has no outcome, and is in the
registry. -/
structure InFirstCall (id : ExecutionId) (x : Nat) (g : Fleet V) : Prop where
  execution : ∃ e, g.executions[x]? = some e ∧ e.calls = [.dispatching 0, .fill] ∧ e.outcome = none
  registered : g.outstanding.contains id = true

theorem inFirstCall_of_entered (h : Entered id x g) (hu : Execution.Unopened e₀)
    (he : g.executions[x]? = some e₀.opened) :
    InFirstCall id x g ∧ CutShortBySweep x e₀.cancellation g := by
  have hl : e₀.opened.Listed := ⟨by simp [Execution.isCompleted, Execution.opened,
    Execution.reserve, hu.outcome], rfl⟩
  obtain ⟨hc, hx⟩ := h.contains he hl
  have hcut : CutShortBySweep x e₀.opened.cancellation g :=
    cutShortBySweep_of_opening he hu.opening hx
  exact ⟨⟨⟨_, he, rfl, hu.outcome⟩, hc⟩, hcut⟩

/-- The first call that execution `x` makes downstream is for its first sub query. From then on, and
while nothing happens to `x`, it is in the registry, and a sweep cuts it short with outcome `o`. -/
def OpensInRegistry (id : ExecutionId) (x : Nat) (o : Outcome V) (g₀ : Fleet V) : Prop :=
  ∀ ms g events m g₁ later i, g₀.run ms = some (g, events) →
    dispatches (eventsOf x events) = [] → g.step m = some (g₁, later) →
    i ∈ dispatches (eventsOf x later) → Avoids id (ms ++ [m]) →
    i = 0 ∧ ∀ during g₂ es, g₁.run during = some (g₂, es) → g₁.movesOn x during = [] →
      Avoids id during → InFirstCall id x g₂ ∧ CutShortBySweep x o g₂

theorem opened_of_first_dispatch {g₁ : Fleet V} {later : List (Nat × Event V)} {i : Nat}
    (hu : Execution.Unopened e₀) (he : g₀.executions[x]? = some e₀)
    (hr : g₀.run ms = some (g, events)) (hn : dispatches (eventsOf x events) = [])
    (hs : g.step m = some (g₁, later)) (hi : i ∈ dispatches (eventsOf x later)) :
    i = 0 ∧ g₁.executions[x]? = some e₀.opened := by
  obtain ⟨e₁, h₁, he₁⟩ := own_run hr he
  obtain ⟨e₂, h₂, he₂⟩ := own_step hs he₁
  cases hx : g.moveOn? x m with
  | none =>
    rw [hx] at h₂
    obtain ⟨_, hnil⟩ := run_nil_eq_some.1 h₂
    rw [← hnil] at hi
    cases hi
  | some n =>
    rw [hx] at h₂
    have hstep := run_singleton_eq_some.1 h₂
    obtain ⟨hi, rfl⟩ :=
      Execution.opened_of_first_dispatch hu (Trace.of_run h₁) hn hstep hi
    exact ⟨hi, he₂⟩

theorem opensInRegistry_of_entered (h : Entered id x g₀) (hu : Execution.Unopened e₀)
    (he : g₀.executions[x]? = some e₀) : OpensInRegistry id x e₀.cancellation g₀ := by
  intro ms g events m g₁ later i hr hn hs hi hm
  obtain ⟨h₀, he₁⟩ := opened_of_first_dispatch hu he hr hn hs hi
  have hent : Entered id x g₁ := entered_of_trace ((Trace.of_run hr).snoc hs) hm h
  refine ⟨h₀, ?_⟩
  intro during g₂ es hd hsame ha
  obtain ⟨e₂, h₂, he₂⟩ := own_run hd he₁
  rw [hsame] at h₂
  obtain ⟨rfl, _⟩ := run_nil_eq_some.1 h₂
  exact inFirstCall_of_entered (entered_of_trace (Trace.of_run hd) ha hent) hu he₂

end ScatterGather.Fleet
