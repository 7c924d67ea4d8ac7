import ScatterGather.Proofs.Execution.History
import ScatterGather.Proofs.Execution.Transition

/-! One outcome at most, and the one of the first move that asks for any. -/
namespace ScatterGather.Execution

variable {V : Type} {e e' : Execution V} {m : Move V} {events : List (Event V)}

/-- The outcome that a move brings about where there is none yet. -/
def trigger? (e : Execution V) : Move V → Option (Outcome V)
  | .cancel => some (.error (.cancelled e.query.order (.requested e.id)))
  | .combined (.value v) => some (.ok v)
  | .combined (.failure error) => some (.error (.merge e.query.order error))
  | .combined .panic =>
    some (.error (.merge e.query.order (.merge s!"merger '{e.merger.strategy}' panicked")))
  | m =>
    match e.report? m with
    | some (i, .error error) => some (.error (.subQuery i e.query.order error))
    | _ => none

/-- What can be seen of an execution that has sent the outcomes `sent`. -/
structure Shows (e : Execution V) (sent : List (Outcome V)) : Prop where
  received : e.received = if e.awaited then sent.head? else none
  completed : e.isCompleted = true ↔ sent ≠ []
  terminal : e.state.isTerminal = true ↔ sent ≠ []
  succeeded : e.state = .succeeded ↔ ∃ v, .ok v ∈ sent
  cancelled : e.state = .cancelled ↔ ∃ order reason, .error (.cancelled order reason) ∈ sent
  failed : e.state = .failed ↔
    (∃ i order error, .error (.subQuery i order error) ∈ sent) ∨
      ∃ order error, .error (.merge order error) ∈ sent

theorem isCompleted_eq_false_iff : e.isCompleted = false ↔ e.outcome = none := by
  simp [isCompleted]

theorem deliveries_deliver (o : Outcome V) (e : Execution V) :
    deliveries (e.deliver o).2 = if e.isCompleted then [] else [o] := by
  rw [deliver_snd]
  split <;> rfl

theorem deliveries_stopWith (error : ShardingError) (e : Execution V) :
    deliveries (e.stopWith error).2 = if e.isCompleted then [] else [.error error] := by
  rw [stopWith_snd, deliveries_append, deliveries_deliver]
  exact List.append_nil _

theorem outcome_succeed (i : Nat) (v : V) (e : Execution V) :
    (e.succeed i v).outcome = e.outcome := by
  rw [succeed_frame]

theorem outcome_fillNext (e : Execution V) : e.fillNext.outcome = e.outcome := by
  rw [fillNext_frame]

theorem outcome_attach (i : Nat) (r : Option (SubResult V)) (e : Execution V) :
    (e.attach i r).outcome = e.outcome := by
  rw [attach_eq]

/-- Whether a call has delivered `o`, if anything: nothing new comes after an earlier outcome. -/
def Delivers (e : Execution V) (o : Option (Outcome V)) (t : Turn V) : Prop :=
  t.1.outcome = e.outcome.or o ∧ deliveries t.2 = if e.isCompleted then [] else o.toList

theorem delivers_none (h : e'.outcome = e.outcome) : Delivers e none (e', []) := by
  constructor
  · simp [h]
  · simp [deliveries]

theorem delivers_deliver (o : Outcome V) (e : Execution V) :
    Delivers e (some o) (e.deliver o) := by
  constructor
  · rw [deliver_fst]
    cases e.outcome <;> rfl
  · exact deliveries_deliver o e

theorem delivers_stopWith (error : ShardingError) (e : Execution V) :
    Delivers e (some (.error error)) (e.stopWith error) := by
  constructor
  · rw [stopWith_fst]
    cases e.outcome <;> rfl
  · exact deliveries_stopWith error e

theorem delivers_fail (i : Nat) (error : QueryError) (e : Execution V) :
    Delivers e (some (.error (.subQuery i e.query.order error))) (e.fail i error) := by
  rcases fail_cases i error e with ⟨hd, h⟩ | ⟨_, h⟩
  · rw [h]
    obtain ⟨o, ho⟩ := Option.isSome_iff_exists.1 hd
    exact ⟨by simp [ho], by simp [hd, deliveries]⟩
  · rw [h]
    exact delivers_stopWith _ e

theorem delivers_step (h : e.step m = some (e', events)) :
    Delivers e (e.trigger? m) (e', events) := by
  cases transition_of_step h with
  | cancel hy => exact delivers_stopWith _ e
  | success hy => exact delivers_none (outcome_succeed ..)
  | failure hy => exact delivers_fail ..
  | fill hc => exact delivers_none (outcome_fillNext e)
  | handed hc => exact delivers_none (outcome_attach ..)
  | combined hc =>
    rename_i m s
    cases m <;> exact delivers_deliver _ e.pop
  | @receive i r rest hc hr hi =>
    have ht : e.trigger? .receive =
        match r with
        | .ok _ => none
        | .error error => some (.error (.subQuery i e.query.order error)) := by
      simp only [trigger?, report?_receive hi]
      cases r <;> rfl
    rw [ht]
    cases r with
    | ok v => exact delivers_none (outcome_succeed ..)
    | error error => exact delivers_fail i error { e with inbox := rest }
  | start hy => exact delivers_none rfl
  | skip hc hd => exact delivers_none rfl
  | launch hc hd => exact delivers_none rfl
  | combine hc => exact delivers_none rfl
  | stop hc => exact delivers_none rfl
  | stopped hc => exact delivers_none rfl
  | resolve hy hl => exact delivers_none rfl
  | abandon hy => exact delivers_none rfl
  | forward hc hw => exact delivers_none rfl
  | retire hc hw hd => exact delivers_none rfl
  | halt hc hr hd => exact delivers_none rfl

theorem isCompleted_step (h : e.step m = some (e', events)) (hd : e.isCompleted = true) :
    e'.isCompleted = true := by
  obtain ⟨o, ho⟩ := Option.isSome_iff_exists.1 hd
  rw [isCompleted, (delivers_step h).1, ho]
  rfl

theorem open_of_step (h : e.step m = some (e', events)) (hd : e'.isCompleted = false) :
    e.isCompleted = false := by
  cases hx : e.isCompleted with
  | false => rfl
  | true =>
    rw [isCompleted_step h hx] at hd
    cases hd

/-- The state tells whether there is an outcome, and of which kind. -/
def Settled (e : Execution V) : Prop :=
  match e.outcome with
  | none => e.state.isTerminal = false
  | some o => e.state = stateOf o

theorem isTerminal_stateOf (o : Outcome V) : (stateOf o).isTerminal = true := by
  cases o with
  | ok v => rfl
  | error error =>
    simp only [stateOf]
    split <;> rfl

theorem isTerminal_of_settled (h : Settled e) : e.state.isTerminal = e.isCompleted := by
  cases ho : e.outcome with
  | none =>
    rw [Settled, ho] at h
    simp [isCompleted, ho, h]
  | some o =>
    rw [Settled, ho] at h
    simp [isCompleted, ho, h, isTerminal_stateOf]

theorem settled_deliver (o : Outcome V) (h : Settled e) : Settled (e.deliver o).1 := by
  by_cases hd : e.isCompleted
  · rw [deliver, if_pos hd]
    exact h
  · rw [deliver, if_neg hd]
    rfl

theorem settled_stopWith (error : ShardingError) (h : Settled e) :
    Settled (e.stopWith error).1 :=
  settled_deliver (.error error) h

theorem settled_fail (i : Nat) (error : QueryError) (h : Settled e) :
    Settled (e.fail i error).1 := by
  rcases fail_cases i error e with ⟨_, hf⟩ | ⟨_, hf⟩
  · rwa [hf]
  · rw [hf]
    exact settled_stopWith _ h

/-- Only a state that is not terminal is written over. -/
theorem settled_of_state {s : ExecutionState} (h : Settled e)
    (hs : s = e.state ∨ e.state.isTerminal = false ∧ s.isTerminal = false) :
    Settled { e with state := s } := by
  rcases hs with rfl | ⟨he, hs⟩
  · exact h
  · have ho : e.outcome = none := by
      rwa [isTerminal_of_settled h, isCompleted_eq_false_iff] at he
    simp [Settled, ho, hs]

theorem settled_reserve (h : Settled e) : Settled e.reserve := by
  have hs := settled_of_state (s := e.reserve.state) h
  apply hs
  simp only [reserve]
  split
  · rename_i hc
    exact .inr ⟨hc.2, rfl⟩
  · exact .inl rfl

theorem settled_refill (h : Settled e) : Settled e.refill := by
  rcases refill_cases e with ⟨_, hr⟩ | ⟨_, hr⟩
  · rw [hr]
    exact settled_reserve h
  · rwa [hr]

theorem settled_collect (h : Settled e) : Settled e.collect := by
  rw [collect_frame]
  exact h

theorem settled_succeed (i : Nat) (v : V) (h : Settled e) : Settled (e.succeed i v) := by
  rcases succeed_cases i v e with hs | ⟨_, _, hs⟩
  · rwa [hs]
  · rw [hs]
    exact settled_refill (settled_collect h)

theorem settled_fillNext (h : Settled e) : Settled e.fillNext := by
  rcases fillNext_cases e with ⟨_, hn⟩ | ⟨_, _, hn⟩ | ⟨_, _, hn⟩
  · rw [hn]
    exact h
  · rw [hn]
    exact settled_reserve h
  · rw [hn]
    apply settled_of_state (e := e.pop) h
    split
    · rename_i hc
      exact .inr ⟨by change e.state.isTerminal = false; rw [hc.2]; rfl, rfl⟩
    · exact .inl rfl

theorem settled_attach (i : Nat) (r : Option (SubResult V)) (h : Settled e) :
    Settled (e.attach i r) := by
  rw [attach_eq]
  exact h

theorem settled_complete (i : Nat) (r : SubResult V) (h : Settled e) :
    Settled (e.complete i r).1 := by
  cases r with
  | ok v => exact settled_succeed i v h
  | error error => exact settled_fail i error h

theorem settled_step (h : Settled e) (hs : e.step m = some (e', events)) : Settled e' := by
  cases transition_of_step hs with
  | cancel hy => exact settled_stopWith _ h
  | success hy => exact settled_succeed _ _ h
  | failure hy => exact settled_fail _ _ h
  | fill hc => exact settled_fillNext h
  | handed hc => exact settled_attach _ _ h
  | combined hc => exact settled_deliver _ h
  | receive hc hr hi => exact settled_complete _ _ h
  | start | skip | launch | combine | stop | stopped | resolve | abandon | forward | retire
    | halt => exact h

variable {e₀ : Execution V} {ms ns : List (Move V)} {later : List (Event V)}

theorem outcome_of_trace (h : Trace step e₀ ms e events) :
    e.outcome = e₀.outcome.or (along step trigger? e₀ ms).head? := by
  induction h with
  | refl => simp [along]
  | snoc ht hs ih =>
    rw [(delivers_step hs).1, ih, ht.along_snoc hs, List.head?_append, Option.or_assoc]
    cases trigger? _ _ <;> rfl

theorem deliveries_of_trace (h : Trace step e₀ ms e events) (h₀ : e₀.outcome = none) :
    deliveries events = e.outcome.toList := by
  induction h with
  | refl =>
    rw [h₀]
    rfl
  | @snoc ms e es m e' es' ht hs ih =>
    have hd := delivers_step hs
    rw [deliveries_append, ih, hd.2, hd.1, isCompleted]
    cases e.outcome <;> rfl

theorem isCompleted_of_trace (h : Trace step e ns e' later) (hd : e.isCompleted = true) :
    e'.isCompleted = true :=
  h.keeps (fun _ hd hs => isCompleted_step hs hd) hd

theorem deliveries_eq_nil_of_completed (h : Trace step e ns e' later) (hd : e.isCompleted = true) :
    deliveries later = [] ∧ e'.outcome = e.outcome := by
  induction h with
  | refl => exact ⟨rfl, rfl⟩
  | @snoc ms e₁ es m e₂ es' ht hs ih =>
    obtain ⟨hn, ho⟩ := ih
    have hd₁ : e₁.isCompleted = true := by
      rw [isCompleted, ho]
      exact hd
    have hs := delivers_step hs
    refine ⟨by simp [hn, hs.2, hd₁], ?_⟩
    obtain ⟨o, hso⟩ := Option.isSome_iff_exists.1 hd₁
    rw [hs.1, ← ho, hso]
    rfl

theorem settled_of_trace (h : Trace step e₀ ms e events) (h₀ : Settled e₀) : Settled e :=
  h.keeps (fun _ => settled_step) h₀

/-- The outcomes that an execution can come to, with the order and the identifier they carry. -/
inductive Ending (e : Execution V) : Outcome V → Prop
  | merged (v : V) : Ending e (.ok v)
  | refused (error : QueryError) : Ending e (.error (.merge e.query.order error))
  | failed (i : Nat) (error : QueryError) : Ending e (.error (.subQuery i e.query.order error))
  | cancelled : Ending e (.error (.cancelled e.query.order (.requested e.id)))

theorem ending_of_trigger {o : Outcome V} (h : e.trigger? m = some o) : Ending e o := by
  have hr : (match e.report? m with
      | some (i, .error error) => some (.error (.subQuery i e.query.order error))
      | _ => none) = some o → Ending e o := by
    intro ho
    split at ho
    · cases ho
      exact .failed ..
    · cases ho
  cases m with
  | cancel =>
    cases h
    exact .cancelled
  | combined m =>
    cases m with
    | value v =>
      cases h
      exact .merged v
    | failure error =>
      cases h
      exact .refused error
    | panic =>
      cases h
      exact .refused _
  | _ => exact hr h

theorem ending_of_plan {o : Outcome V} (hp : e'.plan = e.plan) (h : Ending e o) :
    Ending e' o := by
  have hi : e'.id = e.id := congrArg Prod.fst hp
  have hq := query_of_plan hp
  cases h with
  | merged v => exact .merged v
  | refused error =>
    rw [← hq]
    exact .refused error
  | failed i error =>
    rw [← hq]
    exact .failed i error
  | cancelled =>
    rw [← hq, ← hi]
    exact .cancelled

theorem ending_of_trace (h : Trace step e₀ ms e events) (h₀ : e₀.outcome = none) :
    ∀ o, e.outcome = some o → Ending e o := by
  induction h with
  | refl =>
    intro o ho
    rw [h₀] at ho
    cases ho
  | @snoc ms e es m e' es' ht hs ih =>
    intro o ho
    rw [(delivers_step hs).1, Option.or_eq_some_iff] at ho
    apply ending_of_plan (plan_step hs)
    rcases ho with ho | ⟨_, ho⟩
    · exact ih o ho
    · exact ending_of_trigger ho

theorem shows_of_settled (h : Settled e) (he : ∀ o, e.outcome = some o → Ending e o) :
    Shows e e.outcome.toList := by
  have ht := isTerminal_of_settled h
  cases ho : e.outcome with
  | none =>
    have hd : e.isCompleted = false := isCompleted_eq_false_iff.2 ho
    rw [hd] at ht
    constructor <;> simp [received, ho, hd, ht]
    all_goals
      intro hs
      simp [hs, ExecutionState.isTerminal] at ht
  | some o =>
    have hd : e.isCompleted = true := by simp [isCompleted, ho]
    have hs : e.state = stateOf o := by simpa [Settled, ho] using h
    rw [hd] at ht
    cases he o ho <;> constructor <;>
      simp [received, ho, hd, hs, stateOf, ShardingError.isCancellation,
        ExecutionState.isTerminal]

theorem settled_new (id : ExecutionId) (q : Query) (subs : List Query) (w : Nat)
    (merger : Merger V) : Settled (new id q subs w merger) := rfl

/-- In any run, with calls nested in each other as they may be, what is sent to the caller is the
outcome of the first move that asks for one. The execution shows it from then on. -/
theorem delivers_first_trigger {id : ExecutionId} {q : Query} {subs : List Query} {w : Nat}
    {merger : Merger V} (h : (new id q subs w merger).run ms = some (e, events))
    (hn : e.run ns = some (e', later)) :
    deliveries events = (along step trigger? (new id q subs w merger) ms).head?.toList ∧
      (deliveries events).length ≤ 1 ∧
      Shows e (deliveries events) ∧
      (∀ error, .error error ∈ deliveries events → error.order = some q.order) ∧
      (deliveries events ≠ [] →
        deliveries later = [] ∧ e'.isCompleted = true ∧ e'.state = e.state) := by
  have ht := Trace.of_run h
  have hs := settled_of_trace ht (settled_new id q subs w merger)
  have hd := deliveries_of_trace ht rfl
  have hf := outcome_of_trace ht
  have he := ending_of_trace ht rfl
  have hl := Trace.of_run hn
  refine ⟨?_, ?_, ?_, ?_, ?_⟩
  · rw [hd, hf]
    rfl
  · rw [hd]
    cases e.outcome <;> simp
  · rw [hd]
    exact shows_of_settled hs he
  · intro error hm
    rw [hd, Option.mem_toList] at hm
    have hq : e.query = q := query_of_plan (plan_of_trace ht)
    cases he _ hm <;> simp [ShardingError.order, hq]
  · intro hne
    have hc : e.isCompleted = true := (shows_of_settled hs he).completed.2 (hd ▸ hne)
    obtain ⟨hnil, ho⟩ := deliveries_eq_nil_of_completed hl hc
    have hc' : e'.isCompleted = true := by
      rw [isCompleted, ho]
      exact hc
    refine ⟨hnil, hc', ?_⟩
    have hs' := settled_of_trace hl hs
    obtain ⟨o, hso⟩ := Option.isSome_iff_exists.1 hc
    simp only [Settled, ho, hso] at hs hs'
    rw [hs, hs']

/-- A cancellation from inside a dispatch goes before the failure that comes after it. -/
theorem delivers_first_trigger_nested :
    ∃ e events, sample.run [.start, .resume, .resume, .cancel, .failure 0 .unfinished] =
        some (e, events) ∧
      deliveries events = [.error (.cancelled 0 (.requested sample.id))] ∧
      e.state = .cancelled := by
  obtain ⟨⟨e, events⟩, h⟩ : ∃ t, sample.run
    [.start, .resume, .resume, .cancel, .failure 0 .unfinished] = some t := ⟨_, rfl⟩
  obtain ⟨hd, _, hs, _⟩ := delivers_first_trigger h (show e.run [] = some (e, []) from rfl)
  refine ⟨e, events, h, hd, hs.cancelled.2 ⟨0, .requested sample.id, ?_⟩⟩
  rw [hd]
  exact List.mem_singleton_self _

end ScatterGather.Execution
