import ScatterGather.Proofs.Fleet.Aftermath
import ScatterGather.Proofs.Fleet.Isolation

/-! Whoever drops the handle of an execution changes nothing but that its outcome is not
received. -/
namespace ScatterGather

variable {V : Type}

namespace Execution

variable {e : Execution V}

/-- The execution with nobody at the receiving end of its outcome. -/
def unheard (e : Execution V) : Execution V := { e with awaited := false }

def unheardTurn (t : Turn V) : Turn V := (t.1.unheard, t.2)

theorem deliver_unheard (o : Outcome V) (e : Execution V) :
    e.unheard.deliver o = unheardTurn (e.deliver o) := by
  refine Prod.ext ?_ ?_
  · rw [unheardTurn, deliver_fst, deliver_fst]
    rfl
  · rw [unheardTurn, deliver_snd, deliver_snd]
    rfl

theorem stopWith_unheard (error : ShardingError) (e : Execution V) :
    e.unheard.stopWith error = unheardTurn (e.stopWith error) := by
  refine Prod.ext ?_ ?_
  · rw [unheardTurn, stopWith_fst, stopWith_fst]
    rfl
  · rw [unheardTurn, stopWith_snd, stopWith_snd, deliver_unheard]
    rfl

theorem fail_unheard (i : Nat) (error : QueryError) (e : Execution V) :
    e.unheard.fail i error = unheardTurn (e.fail i error) := by
  have hd : e.unheard.isCompleted = e.isCompleted := rfl
  rw [fail, fail, hd]
  split
  · rfl
  · exact stopWith_unheard _ e

theorem refill_unheard (e : Execution V) : e.unheard.refill = e.refill.unheard := by
  have hn : (e.unheard.nextIndex < e.unheard.total) = (e.nextIndex < e.total) := rfl
  simp only [refill, hn]
  split <;> rfl

theorem collect_unheard (e : Execution V) : e.unheard.collect = e.collect.unheard := by
  have hs : (e.unheard.succeeded = e.unheard.total) = (e.succeeded = e.total) := rfl
  simp only [collect, hs]
  split <;> rfl

theorem succeed_unheard (i : Nat) (v : V) (e : Execution V) :
    e.unheard.succeed i v = (e.succeed i v).unheard := by
  have hd : e.unheard.isCompleted = e.isCompleted := rfl
  have hl : e.unheard.lacks i = e.lacks i := rfl
  have hr : e.unheard.record i v = (e.record i v).unheard := rfl
  simp only [succeed, hd, hl, hr, collect_unheard, refill_unheard]
  split
  · rfl
  · split <;> rfl

theorem complete_unheard (i : Nat) (r : SubResult V) (e : Execution V) :
    e.unheard.complete i r = unheardTurn (e.complete i r) := by
  cases r with
  | ok v => exact congrArg (·, []) (succeed_unheard i v e)
  | error error => exact fail_unheard i error e

theorem fillNext_unheard (e : Execution V) : e.unheard.fillNext = e.fillNext.unheard := by
  have hd : e.unheard.isCompleted = e.isCompleted := rfl
  have hn : (e.unheard.nextIndex < min e.unheard.windowSize e.unheard.total) =
      (e.nextIndex < min e.windowSize e.total) := rfl
  simp only [fillNext, hd, hn]
  split
  · rfl
  · split <;> rfl

theorem attach_unheard (i : Nat) (r : Option (SubResult V)) (e : Execution V) :
    e.unheard.attach i r = (e.attach i r).unheard := by
  rw [attach_eq, attach_eq]
  rfl

theorem resume_unheard (e : Execution V) : e.unheard.resume = e.resume.map unheardTurn := by
  have hc : e.unheard.calls = e.calls := rfl
  have hd : e.unheard.isCompleted = e.isCompleted := rfl
  simp only [resume, hc, hd, fillNext_unheard]
  split
  · rfl
  · split <;> rfl
  · rfl
  · rfl
  · rfl

/-- No step looks at the receiving end: each goes, or does not go, as it would with somebody
there. -/
theorem step_unheard (e : Execution V) (m : Move V) :
    e.unheard.step m = (e.step m).map unheardTurn := by
  have hy : e.unheard.yields = e.yields := rfl
  have hc : e.unheard.calls = e.calls := rfl
  have hd : e.unheard.isCompleted = e.isCompleted := rfl
  have hw (i : Nat) : e.unheard.watcher? i = e.watcher? i := rfl
  cases m with
  | start | abandon =>
    simp only [step, hy]
    split <;> rfl
  | cancel =>
    simp only [step, hy]
    split
    · exact congrArg some (stopWith_unheard _ e)
    · rfl
  | success i v =>
    simp only [step, hy, succeed_unheard]
    split <;> rfl
  | failure i error =>
    simp only [step, hy, fail_unheard]
    split <;> rfl
  | resume => exact resume_unheard e
  | handed r =>
    simp only [step, hc, attach_unheard]
    split <;> rfl
  | stopped =>
    simp only [step, hc]
    split <;> rfl
  | combined result =>
    simp only [step, hc]
    split
    · exact congrArg some (deliver_unheard _ e.pop)
    · rfl
  | resolve i r =>
    have hl : e.unheard.listens i = e.listens i := rfl
    simp only [step, hy, hl]
    split <;> rfl
  | forward i =>
    simp only [step, hc, hw]
    split <;> rfl
  | retire i =>
    simp only [step, hc, hw, hd]
    split
    · split <;> rfl
    · rfl
  | receive =>
    have hr : e.unheard.driver = e.driver := rfl
    have hi : e.unheard.inbox = e.inbox := rfl
    simp only [step, hc, hr, hi]
    split
    · rename_i i r rest _ _ _
      exact congrArg some (complete_unheard i r { e with inbox := rest })
    · rfl
  | halt =>
    have hr : e.unheard.driver = e.driver := rfl
    simp only [step, hc, hr, hd]
    split
    · split <;> rfl
    · rfl

theorem still_unheard (e : Execution V) : e.unheard.Still ↔ e.Still := by
  have hnone (m : Move V) : e.unheard.step m = none ↔ e.step m = none := by
    rw [step_unheard, Option.map_eq_none_iff]
  constructor
  · rintro ⟨hc, hforward, hretire, hreceive, hhalt⟩
    exact ⟨hc, fun i => (hnone _).1 (hforward i), fun i => (hnone _).1 (hretire i),
      (hnone _).1 hreceive, (hnone _).1 hhalt⟩
  · rintro ⟨hc, hforward, hretire, hreceive, hhalt⟩
    exact ⟨hc, fun i => (hnone _).2 (hforward i), fun i => (hnone _).2 (hretire i),
      (hnone _).2 hreceive, (hnone _).2 hhalt⟩

end Execution

namespace Fleet

variable {g g₁ g' : Fleet V} {x : Nat} {e : Execution V} {events : List (Nat × Event V)}

/-- The fleet with nobody at the receiving end of execution `x`. -/
def unheard (x : Nat) (g : Fleet V) : Fleet V :=
  { g with executions := g.executions.modify x Execution.unheard }

def unheardTurn (x : Nat) (t : Fleet V × List (Nat × Event V)) : Fleet V × List (Nat × Event V) :=
  (t.1.unheard x, t.2)

theorem getElem?_unheard (x y : Nat) (g : Fleet V) :
    (g.unheard x).executions[y]? =
      g.executions[y]?.map fun e => if x = y then e.unheard else e :=
  List.getElem?_modify ..

theorem set_modify {α : Type} (f : α → α) (l : List α) (x y : Nat) (a : α) :
    (l.modify x f).set y (if x = y then f a else a) = (l.set y a).modify x f := by
  refine List.ext_getElem? fun i => ?_
  simp only [List.getElem?_modify, List.getElem?_set, List.length_modify]
  grind

theorem modify_append {α : Type} (f : α → α) {l : List α} (r : List α) {x : Nat}
    (hx : x < l.length) : (l ++ r).modify x f = l.modify x f ++ r := by
  refine List.ext_getElem? fun i => ?_
  simp only [List.getElem?_modify, List.getElem?_append, List.length_modify]
  grind

theorem on_unheard (x y : Nat) (g : Fleet V) (m : ScatterGather.Move V) :
    (g.unheard x).on y m = (g.on y m).map fun t => (t.1.unheard x, t.2) := by
  rw [on, on, getElem?_unheard]
  cases he : g.executions[y]? with
  | none => rfl
  | some e =>
    have hs : (if x = y then e.unheard else e).step m =
        (e.step m).map fun t => (if x = y then t.1.unheard else t.1, t.2) := by
      split
      · exact Execution.step_unheard e m
      · simp
    have hid : (if x = y then e.unheard else e).id = e.id := by split <;> rfl
    simp only [Option.map_some, hs, hid, Option.map_map]
    congr 1
    funext t
    simp only [Function.comp_apply, unheard, set_modify]

theorem step_unheard (hx : x < g.executions.length) (m : Move V) :
    (g.unheard x).step m = (g.step m).map (unheardTurn x) := by
  cases m with
  | add e registered =>
    simp [step, add, unheard, unheardTurn, modify_append Execution.unheard [e] hx]
  | on y m =>
    simp only [step, on_unheard, Option.map_map]
    rfl
  | sweep order =>
    have hr : (g.unheard x).registered = g.registered := rfl
    simp only [step, hr]
    split <;> rfl
  | sweepNext =>
    have hw : (g.unheard x).sweeps = g.sweeps := rfl
    simp only [step, hw]
    split
    · rename_i y rest s _
      change (on (unheard x { g with sweeps := rest :: s }) y .cancel).map _ = _
      rw [on_unheard, Option.map_map, Option.map_map]
      rfl
    · rfl
  | sweepEnd =>
    have hw : (g.unheard x).sweeps = g.sweeps := rfl
    simp only [step, hw]
    split <;> rfl

theorem lt_length_step {m : Move V} (hx : x < g.executions.length)
    (hs : g.step m = some (g', events)) : x < g'.executions.length := by
  have hle := (ids_prefix_step hs).length_le
  rw [List.length_map, List.length_map] at hle
  omega

theorem run_unheard (hx : x < g.executions.length) (ms : List (Move V)) :
    (g.unheard x).run ms = (g.run ms).map (unheardTurn x) := by
  induction ms generalizing g with
  | nil => rfl
  | cons m ms ih =>
    simp only [runFrom, step_unheard hx]
    cases hs : g.step m with
    | none => rfl
    | some t =>
      simp only [Option.map_some, unheardTurn, ih (lt_length_step hx hs), Option.map_map]
      rfl

/-- What a step finds of a fleet, but for who listens to `x`. The move that drops the handle of `x`
is passed over. -/
def sight? (x : Nat) (g : Fleet V) : Move V → Option (Fleet V)
  | .on y .abandon => if y = x then none else some (g.unheard x)
  | _ => some (g.unheard x)

theorem unheard_unheard (x : Nat) (g : Fleet V) : (g.unheard x).unheard x = g.unheard x := by
  simp only [unheard, List.modify_modify_eq]
  rfl

theorem sight?_unheard (x : Nat) (g : Fleet V) (m : Move V) :
    sight? x (g.unheard x) m = sight? x g m := by
  unfold sight?
  rw [unheard_unheard]

theorem along_unheard (hx : x < g.executions.length) (ms : List (Move V)) :
    along step (sight? x) (g.unheard x) ms = along step (sight? x) g ms := by
  induction ms generalizing g with
  | nil => rfl
  | cons m ms ih =>
    simp only [along, step_unheard hx, sight?_unheard]
    cases hs : g.step m with
    | none => rfl
    | some t => simp only [Option.map_some, unheardTurn, ih (lt_length_step hx hs)]

theorem step_abandon (he : g.executions[x]? = some e) (hy : e.yields = true) :
    g.step (.on x .abandon) = some (g.unheard x, []) := by
  have hs : e.step .abandon = some (e.unheard, []) := if_pos hy
  rw [step_on he hs, put, label, unheard, List.modify_eq_set_getElem?, he]
  rfl

/-- Drop the handle of an execution at any point of any run; where the world around it moves, a move
of its own does this. What comes after goes as it would have gone: the same events, and at each
point the same executions, sweeps and registry, but for who listens to `x`. So `x` shows the same,
holds the same cancel hooks, has as many tasks, which are at rest or not, and is as registered, with
the outcome that it would have had. Nobody receives that outcome. -/
theorem abandon_changes_nothing {before : List (Move V)} {es : List (Nat × Event V)}
    (h : g.run before = some (g₁, es)) (he : g₁.executions[x]? = some e) (after : List (Move V)) :
    ((g₁.unheard x).run after = (g₁.run after).map (fun t => (t.1.unheard x, t.2)) ∧
      along step (sight? x) (g₁.unheard x) after = along step (sight? x) g₁ after) ∧
      (e.yields = true →
        g.run (before ++ .on x .abandon :: after) =
          (g.run (before ++ after)).map (fun t => (t.1.unheard x, t.2)) ∧
        along step (sight? x) g (before ++ .on x .abandon :: after) =
          along step (sight? x) g (before ++ after)) ∧
      ∀ g' events, g.run (before ++ after) = some (g', events) →
        (g'.unheard x).outstanding = g'.outstanding ∧ (g'.unheard x).sweeps = g'.sweeps ∧
        (∀ y ≠ x, (g'.unheard x).executions[y]? = g'.executions[y]?) ∧
        ∃ e', g'.executions[x]? = some e' ∧ (g'.unheard x).executions[x]? = some e'.unheard ∧
          e'.unheard.face = e'.face ∧ e'.unheard.held = e'.held ∧
          e'.unheard.isCompleted = e'.isCompleted ∧ e'.unheard.alive = e'.alive ∧
          (e'.unheard.Still ↔ e'.Still) ∧ e'.unheard.received = none := by
  have hx : x < g₁.executions.length := (List.getElem?_eq_some_iff.1 he).1
  have hsame := run_unheard hx after
  have hseen := along_unheard hx after
  refine ⟨⟨hsame, hseen⟩, fun hy => ⟨?_, ?_⟩, ?_⟩
  · have hdropped : g₁.run (.on x .abandon :: after) = (g₁.run after).map (unheardTurn x) := by
      simp only [runFrom, step_abandon he hy, hsame]
      cases g₁.run after <;> rfl
    simp only [run_append, h, Option.bind_some, hdropped, Option.map_map]
    rfl
  · have hskip : sight? x g₁ (.on x .abandon) = none := if_pos rfl
    rw [along_append h, along_append h]
    simp only [along, step_abandon he hy, hskip, Option.toList_none, List.nil_append, hseen]
  · intro g' events hr
    obtain ⟨g₂, es₁, es₂, hb, ha, _⟩ := run_append_eq_some.1 hr
    obtain ⟨rfl, rfl⟩ : g₁ = g₂ ∧ es = es₁ := by simpa [h] using hb
    obtain ⟨e', _, he'⟩ := own_run ha he
    refine ⟨rfl, rfl, ?_, e', he', by simp [getElem?_unheard, he'], rfl, rfl, rfl, rfl, ?_, rfl⟩
    · intro y hy
      simp [getElem?_unheard, hy.symm]
    · exact e'.still_unheard

/-- The handle is dropped while the first sub query is being dispatched. All three succeed, and
their results are added up. -/
theorem abandon_changes_nothing_summed :
    ∃ (before after : List (Move Nat)) (g g' : Fleet Nat) (e e' : Execution Nat)
      (events : List (Nat × Event Nat)), before ++ after = summed.map (.on 0) ∧
      (Fleet.empty.add Execution.sample true).run (before ++ after) = some (g, events) ∧
      (Fleet.empty.add Execution.sample true).run (before ++ .on 0 .abandon :: after) =
        some (g', events) ∧
      g.executions[0]? = some e ∧ g'.executions[0]? = some e' ∧
      e.received = some (.ok 18) ∧ e'.received = none ∧ e'.face = e.face ∧
      g'.outstanding = g.outstanding := by
  obtain ⟨⟨g₁, es⟩, e₁, hb, he₁, hy⟩ : ∃ t e, (Fleet.empty.add Execution.sample true).run
      ((summed.take 3).map (.on 0)) = some t ∧ t.1.executions[0]? = some e ∧ e.yields = true :=
    ⟨_, _, rfl, rfl, rfl⟩
  obtain ⟨⟨g, events⟩, e, hr, he, ho⟩ : ∃ t e, (Fleet.empty.add Execution.sample true).run
      ((summed.take 3).map (.on 0) ++ (summed.drop 3).map (.on 0)) = some t ∧
      t.1.executions[0]? = some e ∧ e.received = some (.ok 18) := ⟨_, _, rfl, rfl, rfl⟩
  obtain ⟨_, hdrop, hsame⟩ := abandon_changes_nothing hb he₁ ((summed.drop 3).map (.on 0))
  obtain ⟨hrun, _⟩ := hdrop hy
  obtain ⟨hreg, _, _, e', he', hdropped, hface, _, _, _, _, hnone⟩ := hsame g events hr
  obtain rfl : e = e' := Option.some.inj (he.symm.trans he')
  rw [hr] at hrun
  exact ⟨_, _, g, g.unheard 0, e, e.unheard, events, rfl, hr, hrun, he, hdropped, ho, hnone, hface,
    hreg⟩

end Fleet
end ScatterGather
