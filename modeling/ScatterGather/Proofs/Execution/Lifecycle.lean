import ScatterGather.Proofs.Execution.Filling

/-! The states of an execution come in one order, and between calls the state tells whether all sub
queries have been dispatched. -/
namespace ScatterGather

namespace ExecutionState

variable {s t u : ExecutionState}

/-- How far on a state is. All outcomes come last. -/
def stage : ExecutionState → Nat
  | dispatching => 0
  | windowFull => 1
  | merging => 2
  | succeeded | failed | cancelled => 3

/-- The same state or one that is further on. An outcome leads to no other one. -/
def LeadsTo (s t : ExecutionState) : Prop := s = t ∨ s.stage < t.stage

theorem LeadsTo.refl (s : ExecutionState) : s.LeadsTo s := .inl rfl

theorem LeadsTo.trans (h : s.LeadsTo t) (h' : t.LeadsTo u) : s.LeadsTo u := by
  rcases h with rfl | h
  · exact h'
  · rcases h' with rfl | h'
    · exact .inr h
    · exact .inr (Nat.lt_trans h h')

theorem leadsTo_of_isTerminal (hs : s.isTerminal = false) (ht : t.isTerminal = true) :
    s.LeadsTo t := by
  cases s <;> cases t <;> simp_all [isTerminal, LeadsTo, stage]

theorem leadsTo_merging (hs : s.isTerminal = false) : s.LeadsTo merging := by
  cases s <;> simp_all [isTerminal, LeadsTo, stage]

theorem ne_dispatching_of_leadsTo (h : s.LeadsTo t) (hs : s ≠ dispatching) : t ≠ dispatching := by
  rintro rfl
  rcases h with rfl | h
  · exact hs rfl
  · exact Nat.not_lt_zero _ h

end ExecutionState

namespace Execution

open ExecutionState

variable {V : Type} {e e' e₀ : Execution V} {m : Move V} {ms : List (Move V)}
  {events : List (Event V)} {launched : List Nat}

theorem leadsTo_deliver (o : Outcome V) (h : Settled e) :
    e.state.LeadsTo (e.deliver o).1.state := by
  rw [deliver_fst]
  change e.state.LeadsTo (if e.isCompleted then e.state else stateOf o)
  split
  · exact .refl _
  · rename_i hd
    apply leadsTo_of_isTerminal _ (isTerminal_stateOf o)
    rw [isTerminal_of_settled h]
    exact Bool.eq_false_iff.2 hd

theorem leadsTo_stopWith (error : ShardingError) (h : Settled e) :
    e.state.LeadsTo (e.stopWith error).1.state := leadsTo_deliver (.error error) h

theorem leadsTo_fail (i : Nat) (error : QueryError) (h : Settled e) :
    e.state.LeadsTo (e.fail i error).1.state := by
  rcases fail_cases i error e with ⟨_, hs⟩ | ⟨_, hs⟩
  · rw [hs]
    exact .refl _
  · rw [hs]
    exact leadsTo_stopWith _ h

theorem leadsTo_reserve (e : Execution V) : e.state.LeadsTo e.reserve.state := by
  change e.state.LeadsTo (if _ then .merging else e.state)
  split
  · rename_i hc
    exact leadsTo_merging hc.2
  · exact .refl _

theorem leadsTo_refill (e : Execution V) : e.state.LeadsTo e.refill.state := by
  rcases refill_cases e with ⟨_, hr⟩ | ⟨_, hr⟩
  · rw [hr]
    exact leadsTo_reserve e
  · rw [hr]
    exact .refl _

theorem leadsTo_succeed (i : Nat) (v : V) (e : Execution V) :
    e.state.LeadsTo (e.succeed i v).state := by
  rcases succeed_cases i v e with hs | ⟨_, _, hs⟩
  · rw [hs]
    exact .refl _
  · have hr := leadsTo_refill (e.record i v).collect
    rw [collect_frame] at hr
    rw [hs, collect_frame]
    exact hr

theorem leadsTo_fillNext (e : Execution V) : e.state.LeadsTo e.fillNext.state := by
  rcases fillNext_cases e with ⟨_, hf⟩ | ⟨_, _, hf⟩ | ⟨_, _, hf⟩
  · rw [hf]
    exact .refl _
  · rw [hf]
    exact leadsTo_reserve e
  · rw [hf]
    change e.state.LeadsTo (if _ then .windowFull else e.state)
    split
    · rename_i hc
      rw [hc.2]
      exact .inr Nat.zero_lt_one
    · exact .refl _

theorem leadsTo_step (h : Settled e) (hs : e.step m = some (e', events)) :
    e.state.LeadsTo e'.state := by
  cases transition_of_step hs with
  | cancel hy => exact leadsTo_stopWith _ h
  | success hy => exact leadsTo_succeed ..
  | failure hy => exact leadsTo_fail _ _ h
  | fill hc => exact leadsTo_fillNext e
  | handed hc =>
    rw [attach_eq]
    exact .refl _
  | combined hc => exact leadsTo_deliver (e := e.pop) _ h
  | @receive i r rest hc hr hi =>
    cases r with
    | ok v => exact leadsTo_succeed i v { e with inbox := rest }
    | error error => exact leadsTo_fail (e := { e with inbox := rest }) i error h
  | start | skip | launch | combine | stop | stopped | resolve | abandon | forward | retire
    | halt => exact .refl _

theorem leadsTo_of_trace (h : Trace step e₀ ms e events) (h₀ : Settled e₀) :
    e₀.state.LeadsTo e.state := by
  induction h with
  | refl => exact .refl _
  | snoc ht hs ih => exact ih.trans (leadsTo_step (settled_of_trace ht h₀) hs)

/-- Without an outcome, the state is that of merging exactly if everything has been dispatched. -/
def Placed (e : Execution V) : Prop :=
  e.isCompleted = false → (e.state = .merging ↔ e.dispatched = e.total)

theorem placed_of_completed (hd : e.isCompleted = true) : Placed e := by
  intro hx
  rw [hd] at hx
  cases hx

theorem placed_reserve (h : Placed e) (hs : Settled e) (hl : Lined e launched)
    (hd : e.isCompleted = false) (hlt : e.nextIndex < e.total) : Placed e.reserve := by
  intro _
  have hn := nextIndex_of_open hl hd
  have ht : e.state.isTerminal = false := (isTerminal_of_settled hs).trans hd
  have hold := h hd
  change (if e.total ≤ e.nextIndex + 1 ∧ e.state.isTerminal = false then _ else e.state) = _ ↔
    e.dispatched + 1 = e.total
  by_cases hlast : e.total ≤ e.nextIndex + 1
  · rw [if_pos ⟨hlast, ht⟩]
    constructor
    · intro _
      omega
    · intro _
      rfl
  · rw [if_neg fun hx => hlast hx.1, hold]
    omega

theorem placed_succeed (i : Nat) (v : V) (h : Placed e) (hs : Settled e) (hl : Lined e launched) :
    Placed (e.succeed i v) := by
  rcases succeed_cases i v e with hx | ⟨hd, _, hx⟩
  · rwa [hx]
  · rw [hx]
    rcases refill_cases (e.record i v).collect with ⟨hlt, hr⟩ | ⟨_, hr⟩
    · rw [collect_frame] at hlt
      have hp : Placed e.reserve := placed_reserve h hs hl hd hlt
      rw [hr, collect_frame]
      exact hp
    · rw [hr, collect_frame]
      exact h

theorem placed_fail (i : Nat) (error : QueryError) (h : Placed e) :
    Placed (e.fail i error).1 := by
  rcases fail_cases i error e with ⟨_, hs⟩ | ⟨_, hs⟩
  · rwa [hs]
  · rw [hs, stopWith_fst]
    exact placed_of_completed rfl

theorem placed_fillNext (h : Placed e) (hs : Settled e) (hl : Lined e launched) :
    Placed e.fillNext := by
  rcases fillNext_cases e with ⟨hd, hf⟩ | ⟨hd, hlt, hf⟩ | ⟨hd, _, hf⟩
  · rw [hf]
    exact placed_of_completed hd
  · rw [hf]
    exact placed_reserve h hs hl hd (by omega)
  · have hn := nextIndex_of_open hl hd
    have hold := h hd
    rw [hf]
    intro _
    change (if e.nextIndex < e.total ∧ e.state = .dispatching then _ else e.state) = _ ↔
      e.dispatched = e.total
    split
    · rename_i hx
      rw [hx.2] at hold
      rw [← hold]
      exact ⟨nofun, nofun⟩
    · exact hold

theorem placed_step (h : Placed e) (hs : Settled e) (hl : Lined e launched)
    (hstep : e.step m = some (e', events)) : Placed e' := by
  cases transition_of_step hstep with
  | cancel hy =>
    rw [cancel, stopWith_fst]
    exact placed_of_completed rfl
  | success hy => exact placed_succeed _ _ h hs hl
  | failure hy => exact placed_fail _ _ h
  | fill hc => exact placed_fillNext h hs hl
  | handed hc =>
    rw [attach_eq]
    exact h
  | combined hc =>
    rw [deliver_fst]
    exact placed_of_completed rfl
  | @receive i r rest hc hr hi =>
    cases r with
    | ok v =>
      have hl' : Lined { e with inbox := rest } launched :=
        ⟨hl.dispatched, hl.top, hl.next, hl.le_total⟩
      exact placed_succeed (e := { e with inbox := rest }) i v h hs hl'
    | error error => exact placed_fail (e := { e with inbox := rest }) i error h
  | start | skip | launch | combine | stop | stopped | resolve | abandon | forward | retire
    | halt => exact h

theorem placed_of_trace (h : Trace step e₀ ms e events) (hs : Settled e₀) (hl : Lined e₀ [])
    (h₀ : Placed e₀) : Placed e := by
  induction h with
  | refl => exact h₀
  | snoc ht hst ih => exact placed_step ih (settled_of_trace ht hs) (lined_of_trace ht hl) hst

/-- A round of filling goes on with the window, or leaves the first state behind. -/
theorem opened_fillNext {s : List (Frame V)} (h : Placed e) (hl : Lined e launched)
    (hc : e.calls = .fill :: s) (hd : e.isCompleted = false) :
    .fill ∈ e.fillNext.calls ∨ e.fillNext.state ≠ .dispatching := by
  rcases fillNext_cases e with ⟨hx, _⟩ | ⟨_, _, hf⟩ | ⟨_, _, hf⟩
  · rw [hd] at hx
    cases hx
  · left
    rw [hf]
    exact List.mem_cons_of_mem _ (hc ▸ List.mem_cons_self ..)
  · right
    have hn := nextIndex_of_open hl hd
    have hle := hl.le_total
    rw [hf]
    change (if e.nextIndex < e.total ∧ e.state = .dispatching then _ else e.state) ≠ _
    split
    · exact nofun
    · rename_i hx
      intro hs
      have hall : e.dispatched = e.total := by
        have : ¬ e.nextIndex < e.total := fun hlt => hx ⟨hlt, hs⟩
        omega
      rw [(h hd).2 hall] at hs
      cases hs

/-- Once it was started, an execution without an outcome fills its window or has left the first
state behind. -/
theorem opened_step (h : e.isCompleted = false → .fill ∈ e.calls ∨ e.state ≠ .dispatching)
    (hp : Placed e) (hs : Settled e) (hl : Lined e launched)
    (hstep : e.step m = some (e', events)) (hd : e'.isCompleted = false) :
    .fill ∈ e'.calls ∨ e'.state ≠ .dispatching := by
  have hd₀ := open_of_step hstep hd
  rcases h hd₀ with hf | hx
  · by_cases hlast : m = .resume ∧ ∃ s, e.calls = .fill :: s
    · obtain ⟨rfl, s, hc⟩ := hlast
      have hr : e.step .resume = some (e.fillNext, []) := by simp [step, resume, hc]
      obtain ⟨rfl, rfl⟩ : e.fillNext = e' ∧ [] = events := by simpa [hr] using hstep
      exact opened_fillNext hp hl hc hd₀
    · left
      apply mem_fill_step hstep _ hf
      intro s hc hm
      exact hlast ⟨hm, s, hc⟩
  · exact .inr (ne_dispatching_of_leadsTo (leadsTo_step hs hstep) hx)

theorem opened_of_trace (h : Trace step e₀ ms e events) (hp : Placed e₀) (hs : Settled e₀)
    (hl : Lined e₀ []) (hm : .start ∈ ms) :
    e.isCompleted = false → .fill ∈ e.calls ∨ e.state ≠ .dispatching := by
  induction h with
  | refl => cases hm
  | @snoc ms e es m e' es' ht hst ih =>
    rcases List.mem_append.1 hm with hm | hm
    · exact opened_step (ih hm) (placed_of_trace ht hs hl hp) (settled_of_trace ht hs)
        (lined_of_trace ht hl) hst
    · obtain rfl := List.mem_singleton.1 hm
      intro _
      cases transition_of_step hst with
      | start hy => exact .inl (List.mem_cons_self ..)

section

variable {id : ExecutionId} {q : Query} {subs : List Query} {w : Nat} {merger : Merger V}

theorem placed_new (h : subs ≠ []) : Placed (new id q subs w merger) := by
  intro _
  have hlen := List.length_pos_iff.2 h
  change ExecutionState.dispatching = .merging ↔ 0 = subs.length
  constructor
  · exact nofun
  · omega

/-- In any run, with calls nested in each other and repeated as they may be, the state only moves
on, and never from one outcome to another. Between calls, once it was started and while it has no
outcome, the state is one of two, and tells whether all sub queries have been dispatched. -/
theorem state_moves_on (hn : subs ≠ [])
    (h : (new id q subs w merger).run ms = some (e, events)) :
    (∀ ns e' later, e.run ns = some (e', later) → e.state.LeadsTo e'.state) ∧
      (.start ∈ ms → e.calls = [] → e.isCompleted = false →
        (e.state = .windowFull ↔ e.dispatched < subs.length) ∧
        (e.state = .merging ↔ e.dispatched = subs.length) ∧ e.state ≠ .dispatching) := by
  have ht := Trace.of_run h
  have h₀ : Settled (new id q subs w merger) := settled_new ..
  have hl₀ : Lined (new id q subs w merger) [] := lined_new ..
  have hs := settled_of_trace ht h₀
  refine ⟨fun ns e' later hr => leadsTo_of_trace (Trace.of_run hr) hs, ?_⟩
  intro hstart hc hd
  have htotal : e.total = subs.length := total_of_plan (plan_of_trace ht)
  have hle := (lined_of_trace ht hl₀).le_total
  have hmerging := placed_of_trace ht h₀ hl₀ (placed_new hn) hd
  have hopen : e.state ≠ .dispatching := by
    rcases opened_of_trace ht (placed_new hn) h₀ hl₀ hstart hd with hf | hx
    · simp [hc] at hf
    · exact hx
  have hlive : e.state.isTerminal = false := (isTerminal_of_settled hs).trans hd
  rw [htotal] at hmerging hle
  refine ⟨?_, hmerging, hopen⟩
  cases hx : e.state <;> simp [hx, isTerminal] at hmerging hopen hlive ⊢ <;> omega

end

/-- The window of two is full, and a second start changes nothing. The first success launches the
last sub query. Then the execution is cancelled. -/
theorem state_moves_on_cancelled : ∃ e e' e'' events later last,
    sample.run [.start, .resume, .resume, .handed none, .resume, .resume, .handed none, .resume] =
        some (e, events) ∧
      e.run [.start, .resume, .success 0 5, .resume, .handed none] = some (e', later) ∧
      e'.run [.cancel] = some (e'', last) ∧
      e.state = .windowFull ∧ e.state.LeadsTo e'.state ∧ e'.state = .merging ∧
      e'.state.LeadsTo e''.state ∧ e''.state = .cancelled := by
  have hn : sample.subQueries ≠ [] := List.cons_ne_nil _ _
  obtain ⟨⟨e, events⟩, h⟩ : ∃ t, sample.run [.start, .resume, .resume, .handed none, .resume,
    .resume, .handed none, .resume] = some t := ⟨_, rfl⟩
  obtain ⟨⟨e', later⟩, hc, hd, hk, hr⟩ : ∃ t, e.calls = [] ∧ e.isCompleted = false ∧
      e.dispatched = 2 ∧ e.run [.start, .resume, .success 0 5, .resume, .handed none] = some t := by
    cases h
    exact ⟨_, rfl, rfl, rfl, rfl⟩
  obtain ⟨⟨e'', last⟩, hc', hd', hk', hr', hs⟩ : ∃ t, e'.calls = [] ∧ e'.isCompleted = false ∧
      e'.dispatched = 3 ∧ e'.run [.cancel] = some t ∧ t.1.state = .cancelled := by
    cases h
    cases hr
    exact ⟨_, rfl, rfl, rfl, rfl, rfl⟩
  obtain ⟨hon, hstate⟩ := state_moves_on hn h
  obtain ⟨hon', hstate'⟩ := state_moves_on hn (run_append_eq_some.2 ⟨e, events, later, h, hr, rfl⟩)
  obtain ⟨hfull, _⟩ := hstate (List.mem_cons_self ..) hc hd
  obtain ⟨_, hmerging, _⟩ := hstate' (List.mem_cons_self ..) hc' hd'
  refine ⟨e, e', e'', events, later, last, h, hr, hr', hfull.2 ?_, hon _ e' later hr,
    hmerging.2 hk', hon' _ e'' last hr', hs⟩
  rw [hk]
  decide

end Execution
end ScatterGather
