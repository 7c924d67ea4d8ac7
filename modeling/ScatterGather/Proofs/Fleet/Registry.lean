import Mathlib.Data.List.Nodup
import ScatterGather.Coordinator
import ScatterGather.Proofs.Execution.Outcome
import ScatterGather.Proofs.Fleet

/-! The registry holds an execution from its start to its outcome, or until the merger is called. -/
namespace ScatterGather

variable {V : Type}

namespace Outstanding

variable {κ α : Type} [DecidableEq κ] {r : Outstanding κ α} {k : κ}

theorem contains_iff : r.contains k = true ↔ ∃ a, (k, a) ∈ r.entries := by
  rw [contains, decide_eq_true_iff]
  simp [keys]

theorem deregister_of_not_contains (h : r.contains k = false) : r.deregister k = r := by
  have hk : r.entries.filter (fun p => p.1 ≠ k) = r.entries := by
    rw [List.filter_eq_self]
    intro p hp
    rw [decide_eq_true_iff]
    rintro rfl
    rw [contains_iff.2 ⟨p.2, hp⟩] at h
    cases h
  cases r
  simp only [deregister, hk]

end Outstanding

namespace Execution

variable {e e' : Execution V} {m : Move V} {events : List (Event V)}

/-- Without an outcome, and not in the hands of the merger. -/
def Listed (e : Execution V) : Prop := e.isCompleted = false ∧ mergings e.calls = []

theorem listed_of_same (ho : e'.outcome = e.outcome) (hc : mergings e'.calls = mergings e.calls) :
    e'.Listed ↔ e.Listed := by
  simp only [Listed, isCompleted, ho, hc]

theorem not_listed_of_completed (hd : e.isCompleted = true) : ¬ e.Listed := by
  rintro ⟨hx, _⟩
  simp [hd] at hx

theorem listed_succeed (i : Nat) (v : V) (e : Execution V) : (e.succeed i v).Listed ↔ e.Listed :=
  listed_of_same (outcome_succeed i v e)
    (filterMap_calls_succeed (fun _ => rfl) (fun _ => rfl) i v e)

/-- A call takes an execution off the list exactly when it deregisters it, and puts none on. -/
def Announces (e : Execution V) (t : Turn V) : Prop :=
  t.1.Listed ↔ e.Listed ∧ t.2.any Fleet.isDeregistration = false

theorem announces_of_same (h : e'.Listed ↔ e.Listed)
    (hn : events.any Fleet.isDeregistration = false) : Announces e (e', events) := by
  simpa [Announces, hn] using h

theorem announces_stopWith (error : ShardingError) (e : Execution V) :
    Announces e (e.stopWith error) := by
  have hd : (e.stopWith error).1.isCompleted = true := by
    simp [stopWith_fst, isCompleted]
  have hr : (e.stopWith error).2.any Fleet.isDeregistration = true := by
    simp [stopWith_snd, Fleet.isDeregistration]
  simp [Announces, hr, not_listed_of_completed hd]

theorem announces_fail (i : Nat) (error : QueryError) (e : Execution V) :
    Announces e (e.fail i error) := by
  rcases fail_cases i error e with ⟨_, h⟩ | ⟨_, h⟩
  · rw [h]
    exact announces_of_same .rfl rfl
  · rw [h]
    exact announces_stopWith _ e

theorem announces_complete (i : Nat) (r : SubResult V) (e : Execution V) :
    Announces e (e.complete i r) := by
  cases r with
  | ok v => exact announces_of_same (listed_succeed i v e) rfl
  | error error => exact announces_fail i error e

theorem announces_step (hs : e.step m = some (e', events)) : Announces e (e', events) := by
  cases transition_of_step hs with
  | cancel hy => exact announces_stopWith _ e
  | @success i v hy => exact announces_of_same (listed_succeed i v e) rfl
  | @failure i error hy => exact announces_fail i error e
  | fill hc =>
    have hm := filterMap_calls_fillNext (φ := Frame.merging?) (fun _ => rfl) rfl hc
    exact announces_of_same (listed_of_same (outcome_fillNext e) hm) rfl
  | skip hc | stopped hc =>
    have hm := filterMap_calls_pop (φ := Frame.merging?) hc rfl
    exact announces_of_same (listed_of_same rfl hm) rfl
  | launch hc | stop hc =>
    refine announces_of_same (listed_of_same rfl ?_) rfl
    simp [mergings, hc, List.filterMap_cons, Frame.merging?]
  | combine hc =>
    simp [Announces, Listed, mergings, Frame.merging?, Fleet.isDeregistration]
  | handed hc =>
    refine announces_of_same (listed_of_same (outcome_attach ..) ?_) rfl
    cases hd : e.isCompleted <;>
      simp [attach_eq, mergings, hc, hd, List.filterMap_cons, Frame.merging?]
  | @combined rs result s hc =>
    have hl : ¬ e.Listed := by simp [Listed, mergings, hc, Frame.merging?]
    have hd : ¬ (e.pop.deliver ((result.result e.merger.strategy).mapError
        (.merge e.query.order))).1.Listed :=
      not_listed_of_completed (by simp [deliver_fst, isCompleted])
    simp [Announces, hl, hd]
  | @receive i r rest hc hr hi => exact announces_complete i r { e with inbox := rest }
  | start | resolve | abandon | forward | retire | halt =>
    exact announces_of_same (listed_of_same rfl rfl) rfl

end Execution

namespace Fleet

variable {g g' : Fleet V} {x : Nat} {e e' : Execution V} {c : Coordinator V} {fresh : IdSupply}
  {id : ExecutionId} {q : Query} {override : Option ShardingConfig}

/-- Whether an execution joins the fleet. -/
def Move.isAdd : Move V → Bool
  | .add _ _ => true
  | _ => false

/-- Fleets of executions that coordinators have started and put into one registry, each under an
identifier of its own. -/
inductive Coordinated : Fleet V → Prop
  | empty : Coordinated .empty
  | execute {g g' : Fleet V} {c : Coordinator V} {fresh : IdSupply} {id : ExecutionId} {q : Query}
      {override : Option ShardingConfig} (hg : Coordinated g)
      (hid : ∀ e ∈ g.executions, e.id ≠ id) (h : c.execute fresh id q override g = .ok g') :
      Coordinated g'
  | step {g g' : Fleet V} {m : Move V} {events : List (Nat × Event V)} (hg : Coordinated g)
      (hm : m.isAdd = false) (h : g.step m = some (g', events)) : Coordinated g'

/-- Fleets of executions that were put into the registry when they were made, each under an
identifier of its own, started or not. -/
inductive Enrolled : Fleet V → Prop
  | empty : Enrolled .empty
  | add {g : Fleet V} {id : ExecutionId} {q : Query} {subs : List Query} {w : Nat}
      {merger : Merger V} (hg : Enrolled g) (hid : ∀ e ∈ g.executions, e.id ≠ id) :
      Enrolled (g.add (.new id q subs w merger) true)
  | step {g g' : Fleet V} {m : Move V} {events : List (Nat × Event V)} (hg : Enrolled g)
      (hm : m.isAdd = false) (h : g.step m = some (g', events)) : Enrolled g'

/-- Identifiers are different, and the registry holds the listed executions under theirs. -/
structure Tracked (g : Fleet V) : Prop where
  ids : ∀ (x y : Nat) (e₁ e₂ : Execution V), g.executions[x]? = some e₁ →
    g.executions[y]? = some e₂ → e₁.id = e₂.id → x = y
  entries : ∀ id x, (id, x) ∈ g.outstanding.entries ↔
    ∃ e, g.executions[x]? = some e ∧ e.id = id ∧ e.Listed

theorem tracked_empty : Tracked (V := V) .empty where
  ids := by simp [empty]
  entries := by simp [empty, Outstanding.empty]

/-- A step leaves every identifier where it was. -/
theorem exists_before_put {m : ScatterGather.Move V} {events : List (Event V)} {y : Nat}
    {e₁ : Execution V} (he : g.executions[x]? = some e) (hs : e.step m = some (e', events))
    (hy : (g.put x e e' events).executions[y]? = some e₁) :
    ∃ e₀, g.executions[y]? = some e₀ ∧ e₀.id = e₁.id := by
  have hid : e'.id = e.id := congrArg Prod.fst (Execution.plan_step hs)
  by_cases hxy : x = y
  · subst y
    have hx := (List.getElem?_eq_some_iff.1 he).1
    obtain rfl : e' = e₁ := by simpa [put, hx] using hy
    exact ⟨e, he, hid.symm⟩
  · exact ⟨e₁, by simpa [put, hxy] using hy, rfl⟩

theorem mem_entries_put {events : List (Event V)} {id : ExecutionId} {y : Nat} :
    (id, y) ∈ (g.put x e e' events).outstanding.entries ↔
      (id, y) ∈ g.outstanding.entries ∧ (events.any isDeregistration = true → id ≠ e.id) := by
  cases hd : events.any isDeregistration <;> simp [put, hd, Outstanding.deregister]

theorem tracked_put {m : ScatterGather.Move V} {events : List (Event V)} (h : Tracked g)
    (he : g.executions[x]? = some e) (hs : e.step m = some (e', events)) :
    Tracked (g.put x e e' events) := by
  have hx := (List.getElem?_eq_some_iff.1 he).1
  have hid : e'.id = e.id := congrArg Prod.fst (Execution.plan_step hs)
  have hlisted : e'.Listed ↔ e.Listed ∧ events.any isDeregistration = false :=
    Execution.announces_step hs
  have hself : (g.put x e e' events).executions[x]? = some e' := by simp [put, hx]
  have hother (y : Nat) (hxy : x ≠ y) :
      (g.put x e e' events).executions[y]? = g.executions[y]? := by simp [put, hxy]
  constructor
  · intro y z e₁ e₂ hy hz hsame
    obtain ⟨e₃, hy, hid₁⟩ := exists_before_put he hs hy
    obtain ⟨e₄, hz, hid₂⟩ := exists_before_put he hs hz
    exact h.ids y z e₃ e₄ hy hz (hid₁.trans (hsame.trans hid₂.symm))
  · intro id y
    rw [mem_entries_put, h.entries id y]
    by_cases hxy : x = y
    · subst y
      constructor
      · rintro ⟨⟨e₁, hy, rfl, hl⟩, hne⟩
        obtain rfl : e = e₁ := Option.some.inj (he.symm.trans hy)
        have hd : events.any isDeregistration = false := Bool.eq_false_iff.2 fun hd => hne hd rfl
        exact ⟨e', hself, hid, hlisted.2 ⟨hl, hd⟩⟩
      · rintro ⟨e₁, hy, rfl, hl⟩
        obtain rfl : e' = e₁ := Option.some.inj (hself.symm.trans hy)
        obtain ⟨hl, hd⟩ := hlisted.1 hl
        refine ⟨⟨e, he, hid.symm, hl⟩, ?_⟩
        intro hx
        simp [hd] at hx
    · rw [hother y hxy]
      constructor
      · rintro ⟨hy, _⟩
        exact hy
      · rintro ⟨e₁, hy, rfl, hl⟩
        refine ⟨⟨e₁, hy, rfl, hl⟩, ?_⟩
        intro _ hsame
        exact hxy (h.ids x y e e₁ he hy hsame.symm)

theorem getElem?_add {registered : Bool} {e₁ : Execution V} :
    (g.add e registered).executions[x]? = some e₁ ↔
      g.executions[x]? = some e₁ ∨ x = g.executions.length ∧ e₁ = e := by
  rcases Nat.lt_trichotomy x g.executions.length with hx | rfl | hx
  · simp [add, List.getElem?_append_left hx, Nat.ne_of_lt hx]
  · simp [add, eq_comm]
  · have hn : g.executions[x]? = none := List.getElem?_eq_none (Nat.le_of_lt hx)
    have hn' : (g.executions ++ [e])[x]? = none :=
      List.getElem?_eq_none (by simpa using Nat.succ_le_of_lt hx)
    simp [add, hn, hn', Nat.ne_of_gt hx]

theorem tracked_add (h : Tracked g) (hid : ∀ e₁ ∈ g.executions, e₁.id ≠ e.id) (hl : e.Listed) :
    Tracked (g.add e true) := by
  have old (x : Nat) (e₁ : Execution V) (hx : g.executions[x]? = some e₁) :
      x < g.executions.length ∧ e₁.id ≠ e.id :=
    ⟨(List.getElem?_eq_some_iff.1 hx).1, hid e₁ (List.mem_of_getElem? hx)⟩
  constructor
  · intro x y e₁ e₂ hx hy hsame
    rcases getElem?_add.1 hx with hx | ⟨rfl, rfl⟩ <;> rcases getElem?_add.1 hy with hy | ⟨rfl, he⟩
    · exact h.ids x y e₁ e₂ hx hy hsame
    · exact ((old x e₁ hx).2 (he ▸ hsame)).elim
    · exact ((old y e₂ hy).2 hsame.symm).elim
    · rfl
  · intro id x
    have hout : (id, x) ∈ (g.add e true).outstanding.entries ↔
        id = e.id ∧ x = g.executions.length ∨ (id, x) ∈ g.outstanding.entries ∧ id ≠ e.id := by
      simp [add, Outstanding.register, Outstanding.deregister]
    rw [hout, h.entries id x]
    constructor
    · rintro (⟨rfl, rfl⟩ | ⟨⟨e₁, hx, hi, hl₁⟩, _⟩)
      · exact ⟨e, getElem?_add.2 (.inr ⟨rfl, rfl⟩), rfl, hl⟩
      · exact ⟨e₁, getElem?_add.2 (.inl hx), hi, hl₁⟩
    · rintro ⟨e₁, hx, rfl, hl₁⟩
      rcases getElem?_add.1 hx with hx | ⟨rfl, rfl⟩
      · exact .inr ⟨⟨e₁, hx, rfl, hl₁⟩, (old x e₁ hx).2⟩
      · exact .inl ⟨rfl, rfl⟩

/-- Opening and closing sweeps leaves the registry alone. -/
theorem Tracked.of_sweeps {s : List (List Nat)} (h : Tracked g) : Tracked { g with sweeps := s } :=
  ⟨h.ids, h.entries⟩

theorem tracked_step {m : Move V} {events : List (Nat × Event V)} (h : Tracked g)
    (hm : m.isAdd = false) (hs : g.step m = some (g', events)) : Tracked g' := by
  cases transition_of_step hs with
  | add => cases hm
  | on he hx => exact tracked_put h he hx
  | sweepNext hw he hx => exact tracked_put h.of_sweeps he hx
  | sweep | sweepEnd => exact h.of_sweeps

theorem exists_add_of_execute (h : c.execute fresh id q override g = .ok g') :
    ∃ subs, g' = g.add
      (Execution.new id q subs (c.windowFor override).toNat c.merger).start true := by
  cases hp : c.prepare fresh id q override with
  | error error => simp [Coordinator.execute, hp, Except.map] at h
  | ok e =>
    simp only [Coordinator.execute, hp, Except.map, Except.ok.injEq] at h
    subst h
    unfold Coordinator.prepare at hp
    split at hp
    · cases hp
    · cases hp
    · cases hp
      exact ⟨_, rfl⟩

theorem tracked_of_enrolled (h : Enrolled g) : Tracked g := by
  induction h with
  | empty => exact tracked_empty
  | add hg hid ih => exact tracked_add ih hid ⟨rfl, rfl⟩
  | step hg hm h ih => exact tracked_step ih hm h

/-- A coordinator makes an execution, puts it into the registry and starts it. -/
theorem enrolled_of_coordinated (h : Coordinated g) : Enrolled g := by
  induction h with
  | empty => exact .empty
  | @execute g g' c fresh id q override hg hid h ih =>
    obtain ⟨subs, rfl⟩ := exists_add_of_execute h
    let e : Execution V := .new id q subs (c.windowFor override).toNat c.merger
    have he : (g.add e true).executions[g.executions.length]? = some e := by simp [add]
    have hs : e.step .start = some (e.start, []) := rfl
    have hset : (g.executions ++ [e]).set g.executions.length e.start =
        g.executions ++ [e.start] := by simp
    have hput : (g.add e true).put g.executions.length e e.start [] = g.add e.start true := by
      simp only [put, add, hset]
      rfl
    exact .step (.add ih hid) rfl (hput ▸ step_on he hs)
  | step hg hm h ih => exact .step ih hm h

theorem tracked_of_coordinated (h : Coordinated g) : Tracked g :=
  tracked_of_enrolled (enrolled_of_coordinated h)

theorem coordinated_of_trace {ms : List (Move V)} {events : List (Nat × Event V)}
    (h : Trace step g ms g' events) (hg : Coordinated g)
    (hm : ∀ m ∈ ms, m.isAdd = false) : Coordinated g' :=
  h.keeps (fun hx hp hs => .step hp (hm _ hx) hs) hg

theorem enrolled_of_trace {ms : List (Move V)} {events : List (Nat × Event V)}
    (h : Trace step g ms g' events) (hg : Enrolled g) (hm : ∀ m ∈ ms, m.isAdd = false) :
    Enrolled g' :=
  h.keeps (fun hx hp hs => .step hp (hm _ hx) hs) hg

/-- The registered executions are the listed ones. -/
theorem mem_registered (h : Tracked g) :
    x ∈ g.registered ↔ ∃ e, g.executions[x]? = some e ∧ e.Listed := by
  simp only [registered, List.mem_map, Prod.exists, exists_eq_right, h.entries]
  constructor
  · rintro ⟨id, e, he, _, hl⟩
    exact ⟨e, he, hl⟩
  · rintro ⟨e, he, hl⟩
    exact ⟨e.id, e, he, rfl, hl⟩

theorem contains_iff_listed (h : Tracked g) (he : g.executions[x]? = some e) :
    g.outstanding.contains e.id = true ↔ e.Listed := by
  rw [Outstanding.contains_iff]
  constructor
  · rintro ⟨y, hy⟩
    obtain ⟨e₁, hy, hid, hl⟩ := (h.entries e.id y).1 hy
    obtain rfl := h.ids x y e e₁ he hy hid.symm
    obtain rfl : e = e₁ := Option.some.inj (he.symm.trans hy)
    exact hl
  · intro hl
    exact ⟨x, (h.entries e.id x).2 ⟨e, he, rfl, hl⟩⟩

theorem not_contains_of_completed (h : Tracked g) (he : g.executions[x]? = some e)
    (hd : e.isCompleted = true) : g.outstanding.contains e.id = false := by
  rw [Bool.eq_false_iff, ne_eq, contains_iff_listed h he]
  exact Execution.not_listed_of_completed hd

/-- No execution is registered twice. -/
theorem registered_nodup (h : Tracked g) : g.registered.Nodup := by
  refine List.Nodup.map_on ?_ (List.Nodup.of_map _ g.outstanding.nodup)
  rintro ⟨id, x⟩ hp ⟨id', x'⟩ hp' rfl
  obtain ⟨e, he, rfl, _⟩ := (h.entries id x).1 hp
  obtain ⟨e', he', rfl, _⟩ := (h.entries id' x).1 hp'
  obtain rfl : e = e' := Option.some.inj (he.symm.trans he')
  rfl

end Fleet
end ScatterGather
