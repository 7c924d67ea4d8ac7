import ScatterGather.Proofs.Coordinator
import ScatterGather.Proofs.Fleet.Registry

/-! A sweep leaves an outcome in every execution that was registered when it began. -/
namespace ScatterGather.Fleet

variable {V : Type} {g g' g₀ : Fleet V} {x : Nat} {e e' : Execution V} {m : Move V}
  {ms : List (Move V)} {events events' : List (Nat × Event V)} {order rest : List Nat}
  {outer : List (List Nat)}

/-- In the run `ms` a sweep has come to execution `x`. The outcome of `x` is the one that it had by
then, or else its cancellation. -/
def SweptIn (g₀ : Fleet V) (ms : List (Move V)) (g : Fleet V) (x : Nat) : Prop :=
  ∃ before after g₁ es e e', ms = before ++ .sweepNext :: after ∧ g₀.run before = some (g₁, es) ∧
    g₁.moveOn? x .sweepNext = some .cancel ∧ g₁.executions[x]? = some e ∧
    g.executions[x]? = some e' ∧
    e'.outcome = some (e.outcome.getD (.error (.cancelled e.query.order (.requested e.id))))

/-- Throughout a run more than `n` sweeps are open. -/
def StaysOpen (n : Nat) (g₀ : Fleet V) (ms : List (Move V)) : Prop :=
  ∀ before after g es, ms = before ++ after → g₀.run before = some (g, es) → n < g.sweeps.length

/-- A sweep of `order` over the sweeps `outer` has `rest` to go. Others may be open inside it. -/
structure Sweeping (outer : List (List Nat)) (order : List Nat) (g₀ : Fleet V) (ms : List (Move V))
    (g : Fleet V) (rest : List Nat) : Prop where
  sweeps : ∃ inner, g.sweeps = inner ++ rest :: outer
  done : ∃ done, order = done ++ rest ∧ ∀ x ∈ done, SweptIn g₀ ms g x

/-- An outcome stays, whatever happens after the sweep has come by. -/
theorem SweptIn.snoc (h : SweptIn g₀ ms g x) (hs : g.step m = some (g', events)) :
    SweptIn g₀ (ms ++ [m]) g' x := by
  obtain ⟨before, after, g₁, es, e, e', rfl, hr, hx, he, he', ho⟩ := h
  obtain ⟨e'', es', hrun, he''⟩ := execution_step hs he'
  have hd : e'.isCompleted = true := by simp [Execution.isCompleted, ho]
  obtain ⟨_, hsame⟩ := Execution.deliveries_eq_nil_of_completed (Trace.of_run hrun) hd
  exact ⟨before, after ++ [m], g₁, es, e, e'', by simp, hr, hx, he, he'', hsame.trans ho⟩

/-- The execution that a sweep comes to. -/
theorem sweptIn_sweepNext {s : List (List Nat)} {es : List (Event V)}
    (hr : g₀.run ms = some (g, events)) (hw : g.sweeps = (x :: rest) :: s)
    (he : g.executions[x]? = some e) (hs : e.step .cancel = some (e', es)) :
    SweptIn g₀ (ms ++ [.sweepNext]) ({ g with sweeps := rest :: s }.put x e e' es) x := by
  have hx := (List.getElem?_eq_some_iff.1 he).1
  refine ⟨ms, [], g, events, e, e', rfl, hr, by simp [moveOn?, hw], he, by simp [put, hx], ?_⟩
  cases Execution.transition_of_step hs with
  | cancel hy =>
    simp only [Execution.cancel, Execution.stopWith_fst]

theorem sweeping_step (h : Sweeping outer order g₀ ms g rest) (hr : g₀.run ms = some (g, events))
    (hs : g.step m = some (g', events')) (ho : outer.length < g'.sweeps.length) :
    ∃ rest', Sweeping outer order g₀ (ms ++ [m]) g' rest' := by
  obtain ⟨inner, hw⟩ := h.sweeps
  obtain ⟨done, hord, hdone⟩ := h.done
  have hkeep : ∀ x ∈ done, SweptIn g₀ (ms ++ [m]) g' x := fun x hx => (hdone x hx).snoc hs
  cases transition_of_step hs with
  | add | on he hx => exact ⟨rest, ⟨inner, hw⟩, done, hord, hkeep⟩
  | @sweep order' hp => exact ⟨rest, ⟨order' :: inner, by simp [hw]⟩, done, hord, hkeep⟩
  | @sweepNext x next s e e' es hx he hc =>
    cases inner with
    | nil =>
      obtain ⟨rfl, rfl⟩ : x :: next = rest ∧ s = outer := by simpa [hx] using hw
      refine ⟨next, ⟨[], rfl⟩, done ++ [x], by simp [hord], ?_⟩
      intro y hy
      rcases List.mem_append.1 hy with hy | hy
      · exact hkeep y hy
      · obtain rfl := List.mem_singleton.1 hy
        exact sweptIn_sweepNext hr hx he hc
    | cons l inner =>
      obtain ⟨rfl, rfl⟩ : x :: next = l ∧ s = inner ++ rest :: outer := by simpa [hx] using hw
      exact ⟨rest, ⟨next :: inner, rfl⟩, done, hord, hkeep⟩
  | @sweepEnd s hx =>
    cases inner with
    | nil =>
      obtain ⟨rfl, rfl⟩ : [] = rest ∧ s = outer := by simpa [hx] using hw
      exact (Nat.lt_irrefl _ ho).elim
    | cons l inner =>
      obtain ⟨rfl, rfl⟩ : [] = l ∧ s = inner ++ rest :: outer := by simpa [hx] using hw
      exact ⟨rest, ⟨inner, rfl⟩, done, hord, hkeep⟩

theorem sweeping_of_trace (h : Trace step g₀ ms g events) (h₀ : g₀.sweeps = order :: outer)
    (ho : StaysOpen outer.length g₀ ms) : ∃ rest, Sweeping outer order g₀ ms g rest := by
  induction h with
  | refl => exact ⟨order, ⟨[], h₀⟩, [], rfl, nofun⟩
  | @snoc ms g es m g' es' ht hs ih =>
    obtain ⟨rest, hsw⟩ := ih fun before after g₁ es₁ hm =>
      ho before (after ++ [m]) g₁ es₁ (by simp [hm])
    exact sweeping_step hsw ht.run hs (ho _ [] g' _ (by simp) (ht.snoc hs).run)

/-- Whether the innermost sweep ends. -/
def Move.isSweepEnd : Move V → Bool
  | .sweepEnd => true
  | _ => false

theorem length_sweeps_of_trace (h : Trace step g₀ ms g events)
    (hm : ∀ m ∈ ms, m.isSweepEnd = false) : g₀.sweeps.length ≤ g.sweeps.length := by
  induction h with
  | refl => exact Nat.le_refl _
  | snoc ht hs ih =>
    have hle := ih fun m hx => hm m (List.mem_append_left _ hx)
    have hend := hm _ (List.mem_append_right _ (List.mem_singleton_self _))
    cases transition_of_step hs with
    | add | on => exact hle
    | sweep => exact Nat.le_succ_of_le hle
    | sweepNext hw => simpa [put, hw] using hle
    | sweepEnd => cases hend

/-- Sweeps end by nothing else. -/
theorem staysOpen_of_no_end {n : Nat} (hn : n < g₀.sweeps.length)
    (hm : ∀ m ∈ ms, m.isSweepEnd = false) : StaysOpen n g₀ ms := by
  intro before after g es hms hr
  have hle := length_sweeps_of_trace (Trace.of_run hr) fun m hx =>
    hm m (hms ▸ List.mem_append_left _ hx)
  exact Nat.lt_of_lt_of_le hn hle

/-- With no other sweep inside it, a sweep is the innermost one. -/
theorem rest_of_sweeping {l : List Nat} (h : Sweeping outer order g₀ ms g rest)
    (hw : g.sweeps = l :: outer) : l = rest := by
  obtain ⟨inner, hx⟩ := h.sweeps
  have hs : l :: outer = inner ++ rest :: outer := hw.symm.trans hx
  cases inner with
  | nil => exact (List.cons.inj hs).1
  | cons _ inner =>
    have hlen := congrArg List.length hs
    simp at hlen
    omega

/-- A sweep goes on as soon as the execution that it has come to yields. -/
theorem isSome_step_sweepNext {s : List (List Nat)} (hw : g.sweeps = (x :: rest) :: s)
    (he : g.executions[x]? = some e) (hy : e.yields = true) : (g.step .sweepNext).isSome := by
  simp [step, hw, on, he, Execution.step, hy]

/-- Whenever a sweep begins, it is of all executions that have been started and have no outcome, but
for those whose merger is at work. It goes on as soon as the execution that it has come to yields.
Once it is through with them, each has the outcome that it had got by the time the sweep came to it,
or else its cancellation. -/
theorem sweep_reaches_registered (hg : Coordinated g) (ho : order.Perm g.registered) :
    (∀ x e, g.executions[x]? = some e →
        (x ∈ order ↔ e.isCompleted = false ∧ mergings e.calls = [])) ∧
      order.Nodup ∧ order.length = g.outstanding.size ∧
      ∃ g₀, g.step (.sweep order) = some (g₀, []) ∧
        ∀ ms g₁ events, g₀.run ms = some (g₁, events) → StaysOpen g.sweeps.length g₀ ms →
          (∀ x rest, g₁.sweeps = (x :: rest) :: g.sweeps → ∃ e, g₁.executions[x]? = some e ∧
            (e.yields = true → (g₁.step .sweepNext).isSome)) ∧
          (g₁.sweeps = [] :: g.sweeps → ∀ x ∈ order, SweptIn g₀ ms g₁ x) := by
  have ht := tracked_of_coordinated hg
  have hmem (x : Nat) : x ∈ order ↔ ∃ e, g.executions[x]? = some e ∧ e.Listed :=
    ho.mem_iff.trans (mem_registered ht)
  have hstep : g.step (.sweep order) = some ({ g with sweeps := order :: g.sweeps }, []) :=
    if_pos (List.isPerm_iff.2 ho)
  refine ⟨?_, ho.nodup_iff.2 (registered_nodup ht), ?_, _, hstep, ?_⟩
  · intro x e he
    simp [hmem x, he, Execution.Listed]
  · simp [ho.length_eq, registered, Outstanding.size]
  · intro ms g₁ events hr hopen
    obtain ⟨rest, hs⟩ := sweeping_of_trace (Trace.of_run hr) rfl hopen
    obtain ⟨done, hord, hdone⟩ := hs.done
    constructor
    · intro x next hx
      have hx' : x ∈ order := by simp [hord, ← rest_of_sweeping hs hx]
      obtain ⟨e, he, _⟩ := (hmem x).1 hx'
      obtain ⟨e₁, _, _, he₁⟩ := execution_run hr (g := { g with sweeps := order :: g.sweeps }) he
      exact ⟨e₁, he₁, isSome_step_sweepNext hx he₁⟩
    · intro hend x hx
      apply hdone
      simpa [hord, ← rest_of_sweeping hs hend] using hx

/-- Two executions, each inside its first dispatch. -/
def opening : List (Move Nat) := [.on 0 .resume, .on 0 .resume, .on 1 .resume, .on 1 .resume]

/-- The first execution fails before the sweep comes to it. -/
def sweepingMoves : List (Move Nat) := [.sweepNext, .on 0 (.failure 0 .unfinished), .sweepNext]

def twin : Execution Nat := { pairStarted with id := ⟨.ofNat 10⟩ }

theorem coordinated_pair : Coordinated (Fleet.empty.add pairStarted true) := by
  have h := execute_byMetric (c := adding) (q := pair) rfl (by decide) (List.cons_ne_nil _ _)
    (fun i => ⟨.ofNat i⟩) ⟨.ofNat 9⟩ none .empty
  exact .execute .empty (by simp [empty]) h

theorem coordinated_twin : Coordinated ((Fleet.empty.add pairStarted true).add twin true) := by
  have h := execute_byMetric (c := adding) (q := pair) rfl (by decide) (List.cons_ne_nil _ _)
    (fun i => ⟨.ofNat i⟩) ⟨.ofNat 10⟩ none (Fleet.empty.add pairStarted true)
  refine .execute coordinated_pair ?_ h
  intro e he
  obtain rfl := List.mem_singleton.1 he
  decide

theorem sweep_reaches_registered_nested : ∃ (g g₀ g₁ : Fleet Nat) (events : List (Nat × Event Nat)),
    Coordinated g ∧ g.step (.sweep [1, 0]) = some (g₀, []) ∧
      g₀.run sweepingMoves = some (g₁, events) ∧
      (∀ x ∈ [1, 0], SweptIn g₀ sweepingMoves g₁ x) ∧
      g₁.executions.map (fun e => e.state) = [.failed, .cancelled] := by
  obtain ⟨⟨g, es⟩, h⟩ : ∃ t, ((Fleet.empty.add pairStarted true).add twin true).run opening =
    some t := ⟨_, rfl⟩
  have hg : Coordinated g := coordinated_of_trace (Trace.of_run h) coordinated_twin (by decide)
  have ho : [1, 0].Perm g.registered := by
    cases h
    exact .refl _
  obtain ⟨_, _, _, g₀, hs, hsweep⟩ := sweep_reaches_registered hg ho
  obtain ⟨⟨g₁, events⟩, hn, hr, hend, hstates⟩ : ∃ t, g.sweeps.length < g₀.sweeps.length ∧
      g₀.run sweepingMoves = some t ∧ t.1.sweeps = [] :: g.sweeps ∧
      t.1.executions.map (fun e => e.state) = [.failed, .cancelled] := by
    cases h
    cases hs
    exact ⟨_, by decide, rfl, rfl, rfl⟩
  have hopen : StaysOpen g.sweeps.length g₀ sweepingMoves := staysOpen_of_no_end hn (by decide)
  exact ⟨g, g₀, g₁, events, hg, hs, hr, (hsweep _ g₁ events hr hopen).2 hend, hstates⟩

/-- The moves of `pairMoves` up to the call of the merger. -/
def upToMerger : List (Move Nat) := (pairMoves.take 12).map (.on 0)

/-- A sweep from inside the merger finds nothing to cancel, and leaves the execution without an
outcome. -/
theorem sweep_misses_merging : ∃ (g g' : Fleet Nat) (e : Execution Nat),
    Coordinated g ∧ g.executions[0]? = some e ∧ mergings e.calls = [[5, 6]] ∧ e.yields = true ∧
      e.isCompleted = false ∧ g.registered = [] ∧
      g.run [.sweep [], .sweepEnd] = some (g', []) ∧ g'.executions[0]? = some e := by
  obtain ⟨⟨g, events⟩, h⟩ : ∃ t, (Fleet.empty.add pairStarted true).run upToMerger = some t :=
    ⟨_, rfl⟩
  have hg : Coordinated g :=
    coordinated_of_trace (Trace.of_run h) coordinated_pair (by decide)
  cases h
  exact ⟨_, _, _, hg, rfl, rfl, rfl, rfl, rfl, rfl, rfl⟩

end ScatterGather.Fleet
