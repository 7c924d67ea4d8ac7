import ScatterGather.Proofs.Fleet.Sweep

/-! Executions that share a registry do not see each other: each runs as it would run alone. -/
namespace ScatterGather

variable {V : Type}

/-- The moves of a fleet whose executions are all started by one coordinator. -/
inductive Coordinator.Starts (c : Coordinator V) : Fleet.Move V → Prop
  | execute {fresh : IdSupply} {id : ExecutionId} {q : Query} {override : Option ShardingConfig}
      {e : Execution V} (h : c.prepare fresh id q override = .ok e) : Starts c (.add e.start true)
  | other {m : Fleet.Move V} (hm : m.isAdd = false) : Starts c m

namespace Fleet

variable {c : Coordinator V} {g g' h : Fleet V} {x : Nat} {e : Execution V} {m : Move V}
  {ms : List (Move V)} {events events' : List (Nat × Event V)}

/-- The step that is left of a step when all executions but `x` are taken away. If `x` is cancelled
by a sweep, it is cancelled. -/
def own? (x : Nat) (g : Fleet V) : Move V → Option (Move V)
  | .add e registered => if g.executions.length = x then some (.add e registered) else none
  | m => (g.moveOn? x m).map (.on 0)

/-- A run without all executions but `x`. -/
def alone (x : Nat) (ms : List (Move V)) : List (Move V) := along step (own? x) .empty ms

/-- The execution that a sweep comes to. -/
def reached? (g : Fleet V) : Move V → Option Nat
  | .sweepNext =>
    match g.sweeps with
    | (x :: _) :: _ => some x
    | _ => none
  | _ => none

/-- The executions that are registered when a sweep begins. -/
def begun? (g : Fleet V) : Move V → Option (List Nat)
  | .sweep _ => some g.registered
  | _ => none

/-- All that `h` has is execution `x` of `g`. -/
structure Mirrors (x : Nat) (g h : Fleet V) : Prop where
  executions : h.executions = g.executions[x]?.toList
  sweeps : h.sweeps = []

theorem mirrors_empty : Mirrors (V := V) x .empty .empty := ⟨by simp [empty], rfl⟩

theorem mirrors_add (hm : Mirrors x g h) (e : Execution V) (registered : Bool) :
    ∃ h', h.run (own? x g (.add e registered)).toList = some (h', []) ∧
      Mirrors x (g.add e registered) h' := by
  by_cases hx : g.executions.length = x
  · have hnil : h.executions = [] := by
      rw [hm.executions, List.getElem?_eq_none (Nat.le_of_eq hx)]
      rfl
    refine ⟨h.add e registered, by simp [own?, hx, runFrom, step], ?_, hm.sweeps⟩
    rw [add, hnil]
    simp [add, ← hx]
  · refine ⟨h, by simp [own?, hx, runFrom], ?_, hm.sweeps⟩
    rw [hm.executions]
    rcases Nat.lt_or_gt_of_ne hx with hlt | hgt
    · rw [List.getElem?_eq_none (Nat.le_of_lt hlt), add, List.getElem?_eq_none]
      simpa using Nat.succ_le_of_lt hlt
    · rw [add, List.getElem?_append_left hgt]

/-- A step of execution `y`, and what it is for `x`. -/
theorem mirrors_put {y : Nat} {e' : Execution V} {m : ScatterGather.Move V} {es : List (Event V)}
    (hm : Mirrors x g h) (he : g.executions[y]? = some e) (hs : e.step m = some (e', es)) :
    ∃ h', h.run ((if y = x then some m else none).map (.on 0)).toList =
        some (h', label 0 (eventsOf x (label y es))) ∧ Mirrors x (g.put y e e' es) h' := by
  by_cases hy : y = x
  · subst y
    have hone : h.executions = [e] := by rw [hm.executions, he, Option.toList_some]
    have hx := (List.getElem?_eq_some_iff.1 he).1
    have hstep := step_on (g := h) (x := 0) (by rw [hone]; rfl) hs
    refine ⟨h.put 0 e e' es, ?_, ?_, hm.sweeps⟩
    · rw [eventsOf_label, if_pos rfl, if_pos rfl]
      exact run_cons_eq_some.2 ⟨_, _, [], hstep, rfl, (List.append_nil _).symm⟩
    · simp [put, hone, hx]
  · refine ⟨h, ?_, ?_, hm.sweeps⟩
    · rw [eventsOf_label, if_neg hy, if_neg hy]
      rfl
    · simpa [put, hy] using hm.executions

theorem mirrors_step (hm : Mirrors x g h) (hs : g.step m = some (g', events)) :
    ∃ h', h.run (own? x g m).toList = some (h', label 0 (eventsOf x events)) ∧
      Mirrors x g' h' := by
  cases transition_of_step hs with
  | @add e registered => exact mirrors_add hm e registered
  | on he hx => exact mirrors_put hm he hx
  | sweep | sweepEnd => exact ⟨h, rfl, hm.executions, hm.sweeps⟩
  | @sweepNext y rest s e e' es hw he hx =>
    have hm' : Mirrors x { g with sweeps := rest :: s } h := ⟨hm.executions, hm.sweeps⟩
    simpa [own?, moveOn?, hw] using mirrors_put hm' he hx

theorem mirrors_of_trace (ht : Trace step .empty ms g events) :
    ∃ h, Fleet.empty.run (alone x ms) = some (h, label 0 (eventsOf x events)) ∧
      Mirrors x g h := by
  induction ht with
  | refl => exact ⟨.empty, rfl, mirrors_empty⟩
  | @snoc ms g es m g' es' ht hs ih =>
    obtain ⟨h, hr, hm⟩ := ih
    obtain ⟨h', hr', hm'⟩ := mirrors_step hm hs
    refine ⟨h', ?_, hm'⟩
    rw [alone, ht.along_snoc hs, eventsOf_append, label, List.map_append]
    exact run_append_eq_some.2 ⟨h, _, _, hr, hr', rfl⟩

/-- Executions keep their identifiers, and others only join them at the end. -/
theorem ids_prefix_step (hs : g.step m = some (g', events)) :
    g.executions.map (·.id) <+: g'.executions.map (·.id) := by
  have hput {y : Nat} {e e' : Execution V} {n : ScatterGather.Move V} {es : List (Event V)}
      (he : g.executions[y]? = some e) (hx : e.step n = some (e', es)) :
      g.executions.map (·.id) <+: (g.executions.set y e').map (·.id) := by
    have hid : e'.id = e.id := congrArg Prod.fst (Execution.plan_step hx)
    obtain ⟨hy, rfl⟩ := List.getElem?_eq_some_iff.1 he
    have hy' : y < (g.executions.map (·.id)).length := by simpa using hy
    have hget : (g.executions.map (·.id))[y] = g.executions[y].id := List.getElem_map _
    have hsame : (g.executions.set y e').map (·.id) = g.executions.map (·.id) := by
      rw [List.map_set, hid, ← hget, List.set_getElem_self hy']
    exact ⟨[], by rw [List.append_nil, hsame]⟩
  cases transition_of_step hs with
  | @add e registered => exact ⟨[e.id], by simp [add]⟩
  | on he hx => exact hput he hx
  | sweepNext hw he hx => exact hput he hx
  | sweep | sweepEnd => exact List.prefix_rfl

/-- Executions that have identifiers of their own in the end have had them all along. -/
theorem coordinated_of_starts (ht : Trace step .empty ms g events) (hc : ∀ m ∈ ms, c.Starts m)
    (hid : (g.executions.map (·.id)).Nodup) :
    Coordinated g ∧ ∀ r ∈ along step begun? .empty ms, r.Nodup := by
  induction ht with
  | refl => exact ⟨.empty, nofun⟩
  | @snoc ms g es m g' es' ht hs ih =>
    obtain ⟨hg, hr⟩ := ih (fun m hm => hc m (List.mem_append_left _ hm))
      (hid.sublist (ids_prefix_step hs).sublist)
    constructor
    · cases hc m (by simp) with
      | other hm => exact .step hg hm hs
      | @execute fresh id q override e hp =>
        cases hs
        have hx : c.execute fresh id q override g = .ok (g.add e.start true) := by
          rw [Coordinator.execute, hp]
          rfl
        have hsame : e.start.id = id := by
          obtain ⟨subs, ha⟩ := exists_add_of_execute hx
          have hl : e.start =
              (Execution.new id q subs (c.windowFor override).toNat c.merger).start := by
            simpa [add] using congrArg Fleet.executions ha
          exact congrArg Execution.id hl
        simp only [add, List.map_append, List.nodup_append] at hid
        obtain ⟨_, _, hnew⟩ := hid
        refine .execute hg ?_ hx
        intro e₁ he₁
        rw [← hsame]
        exact hnew _ (List.mem_map_of_mem he₁) _ (by simp)
    · intro r hm
      rw [ht.along_snoc hs] at hm
      rcases List.mem_append.1 hm with hm | hm
      · exact hr r hm
      · cases m with
        | sweep order =>
          obtain rfl : r = g.registered := by simpa [begun?] using hm
          exact registered_nodup (tracked_of_coordinated hg)
        | add | on | sweepNext | sweepEnd => cases hm

theorem starts_of_own {n : Move V} (hm : c.Starts m) (hn : own? x g m = some n) :
    c.Starts n := by
  cases m with
  | add e registered =>
    obtain ⟨_, hn⟩ := Option.ite_none_right_eq_some.1 hn
    exact Option.some.inj hn ▸ hm
  | on | sweepNext =>
    obtain ⟨k, _, rfl⟩ := Option.map_eq_some_iff.1 hn
    exact .other rfl
  | sweep | sweepEnd => cases hn

theorem starts_of_mem_along {g₀ : Fleet V} {n : Move V} (hc : ∀ m ∈ ms, c.Starts m)
    (hn : n ∈ along step (own? x) g₀ ms) : c.Starts n := by
  induction ms generalizing g₀ with
  | nil => cases hn
  | cons m ms ih =>
    simp only [along] at hn
    split at hn
    · cases hn
    · rcases List.mem_append.1 hn with hm | hm
      · exact starts_of_own (hc m List.mem_cons_self) (Option.mem_toList.1 hm)
      · exact ih (fun m hm => hc m (List.mem_cons_of_mem _ hm)) hm

/-- The registry holds an execution exactly if it holds it when it is alone. -/
theorem Mirrors.contains_eq (hm : Mirrors x g h) (hg : Tracked g) (hh : Tracked h)
    (he : g.executions[x]? = some e) :
    h.outstanding.contains e.id = g.outstanding.contains e.id := by
  have he' : h.executions[0]? = some e := by
    rw [hm.executions, he]
    rfl
  rw [Bool.eq_iff_iff, contains_iff_listed hh he', contains_iff_listed hg he]

/-- Sweeps come to those executions that were registered when they began, each as often as it was,
but for those that they have not come to yet. -/
theorem reached_of_trace {g₀ : Fleet V} (ht : Trace step g₀ ms g events) :
    ((along step begun? g₀ ms).flatten ++ g₀.sweeps.flatten).Perm
      (along step reached? g₀ ms ++ g.sweeps.flatten) := by
  induction ht with
  | refl => exact .refl _
  | @snoc ms g es m g' es' ht hs ih =>
    rw [ht.along_snoc hs, ht.along_snoc hs]
    cases transition_of_step hs with
    | add | on => simpa [begun?, reached?, add, put] using ih
    | @sweep order ho =>
      rw [List.perm_iff_count] at ih ho ⊢
      intro y
      have hy := ih y
      have hy' := ho y
      simp only [begun?, reached?, Option.toList_some, Option.toList_none, List.flatten_append,
        List.flatten_cons, List.flatten_nil, List.append_nil, List.count_append] at hy ⊢
      omega
    | @sweepNext y rest s e e' es hw he hx =>
      simpa [begun?, reached?, hw, put] using ih
    | sweepEnd hw => simpa [begun?, reached?, hw] using ih

theorem count_flatten {ls : List (List Nat)} (hl : ∀ l ∈ ls, l.Nodup) :
    ls.flatten.count x = ls.countP (x ∈ ·) := by
  induction ls with
  | nil => rfl
  | cons l ls ih =>
    rw [List.flatten_cons, List.count_append, List.countP_cons,
      ih fun l hm => hl l (List.mem_cons_of_mem _ hm), (hl l List.mem_cons_self).count]
    simp [Nat.add_comm]

/-- No execution sees another one. Take all others away from a run: the one that is left makes the
same moves in the same order, nothing else happens outside in its name, it is the same in the end,
and is registered if it was. Sweeps cancel it, in whichever order they go, as often as one began
while it was registered. -/
theorem runs_as_alone (h : Fleet.empty.run ms = some (g, events)) (hc : ∀ m ∈ ms, c.Starts m)
    (he : g.executions[x]? = some e) :
    ∃ g₁, Fleet.empty.run (alone x ms) = some (g₁, label 0 (eventsOf x events)) ∧
      g₁.executions = [e] ∧ (∀ m ∈ alone x ms, c.Starts m) ∧
      ((g.executions.map (·.id)).Nodup →
        g₁.outstanding.contains e.id = g.outstanding.contains e.id ∧
        ∀ before after g₀ es, ms = before ++ after → Fleet.empty.run before = some (g₀, es) →
          g.sweeps = g₀.sweeps →
          (along step reached? g₀ after).count x =
            (along step begun? g₀ after).countP (x ∈ ·)) := by
  have ht := Trace.of_run h
  obtain ⟨g₁, hr, hm⟩ := mirrors_of_trace (x := x) ht
  have hone : g₁.executions = [e] := by rw [hm.executions, he, Option.toList_some]
  have hstarts : ∀ m ∈ alone x ms, c.Starts m := fun m hm => starts_of_mem_along hc hm
  refine ⟨g₁, hr, hone, hstarts, ?_⟩
  intro hid
  obtain ⟨hg, hn⟩ := coordinated_of_starts ht hc hid
  constructor
  · obtain ⟨hg₁, _⟩ := coordinated_of_starts (Trace.of_run hr) hstarts (by simp [hone])
    exact hm.contains_eq (tracked_of_coordinated hg) (tracked_of_coordinated hg₁) he
  · rintro before after g₀ es rfl hb hw
    obtain ⟨g₂, es₁, es₂, hb', ha, _⟩ := run_append_eq_some.1 h
    obtain ⟨rfl, rfl⟩ : g₀ = g₂ ∧ es = es₁ := by simpa [hb] using hb'
    have hp := (reached_of_trace (Trace.of_run ha)).count_eq x
    rw [List.count_append, List.count_append, hw, Nat.add_right_cancel_iff] at hp
    rw [along_append hb] at hn
    rw [← hp, count_flatten fun l hl => hn l (List.mem_append_right _ hl)]

/-- Two executions side by side. A sweep cancels the second one; the first one fails before. -/
def sideBySide : List (Move Nat) :=
  [.add pairStarted true, .add twin true] ++ opening ++ .sweep [1, 0] :: sweepingMoves ++
    [.sweepEnd]

theorem runs_as_alone_sideBySide : ∃ (g g₁ : Fleet Nat) (e : Execution Nat)
    (events : List (Nat × Event Nat)),
    Fleet.empty.run sideBySide = some (g, events) ∧ g.executions[1]? = some e ∧
      e.state = .cancelled ∧
      Fleet.empty.run [.add twin true, .on 0 .resume, .on 0 .resume, .on 0 .cancel] =
        some (g₁, label 0 (eventsOf 1 events)) ∧
      g₁.executions = [e] ∧ g₁.outstanding.contains e.id = g.outstanding.contains e.id := by
  obtain ⟨⟨g, events⟩, h, hid⟩ : ∃ t, Fleet.empty.run sideBySide = some t ∧
    (t.1.executions.map (·.id)).Nodup := ⟨_, rfl, by decide⟩
  obtain ⟨e, he, hs⟩ : ∃ e, g.executions[1]? = some e ∧ e.state = .cancelled := by
    cases h
    exact ⟨_, rfl, rfl⟩
  have hp (n : Nat) : adding.prepare (fun i => ⟨.ofNat i⟩) ⟨.ofNat n⟩ pair none =
      .ok (.new ⟨.ofNat n⟩ pair (pair.subQueries fun i => ⟨.ofNat i⟩) 1 adding.merger) := rfl
  have hc : ∀ m ∈ sideBySide, adding.Starts m := by
    refine List.forall_mem_cons.2 ⟨.execute (hp 9), List.forall_mem_cons.2 ⟨.execute (hp 10), ?_⟩⟩
    intro m hm
    exact .other ((by decide : ∀ m ∈ sideBySide.drop 2, m.isAdd = false) m hm)
  obtain ⟨g₁, hr, hone, _, hreg⟩ := runs_as_alone h hc he
  exact ⟨g, g₁, e, events, h, he, hs, hr, hone, (hreg hid).1⟩

end Fleet
end ScatterGather
