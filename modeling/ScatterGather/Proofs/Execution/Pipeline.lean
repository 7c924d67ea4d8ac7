import ScatterGather.Proofs.Execution.Cancellation

/-! Results on their way from the handles to the driver: none is lost while it counts, and none
comes twice. -/
namespace ScatterGather.Execution

variable {V : Type} {e e' e₀ : Execution V} {m : Move V} {ms : List (Move V)}
  {events : List (Event V)} {launched reported : List Nat}

/-- What an execution shares with its tasks and with the holder of its handle. -/
def shared (e : Execution V) : Driver × List (Nat × SubResult V) × List (Watcher V) × Bool :=
  (e.driver, e.inbox, e.watchers, e.awaited)

theorem shared_stopWith (error : ShardingError) (e : Execution V) :
    (e.stopWith error).1.shared = e.shared := by
  rw [stopWith_fst]
  rfl

theorem shared_complete (i : Nat) (r : SubResult V) (e : Execution V) :
    (e.complete i r).1.shared = e.shared := by
  cases r with
  | ok v =>
    change (e.succeed i v).shared = _
    rw [succeed_frame]
    rfl
  | error error =>
    change (e.fail i error).1.shared = _
    rw [fail_frame]
    rfl

theorem shared_fillNext (e : Execution V) : e.fillNext.shared = e.shared := by
  rw [fillNext_frame]
  rfl

theorem underway_complete (i : Nat) (r : SubResult V) (e : Execution V) :
    underway (e.complete i r).1.calls = underway e.calls :=
  filterMap_calls_complete (fun _ => rfl) (fun _ => rfl) (fun _ => rfl) i r e

/-- Dispatched sub queries without a report: in the hands of the downstream executor, watched, or in
the inbox. -/
def pending (e : Execution V) : List Nat :=
  underway e.calls ++ e.watchers.map (fun w => w.index) ++ e.inbox.map Prod.fst

theorem pending_of_shared (hu : underway e'.calls = underway e.calls) (ht : e'.shared = e.shared) :
    e'.pending = e.pending := by
  simp only [shared, Prod.mk.injEq] at ht
  obtain ⟨_, hi, hw, _⟩ := ht
  rw [pending, pending, hu, hi, hw]

/-- Tasks drop results only when there is an outcome already. -/
structure Piped (e : Execution V) (launched reported : List Nat) : Prop where
  finished : e.driver = .finished → e.isCompleted = true
  bound : ∀ i, e.pending.count i + reported.count i ≤ launched.count i
  exact : e.isCompleted = false →
    ∀ i, e.pending.count i + reported.count i = launched.count i

theorem piped_new (id : ExecutionId) (q : Query) (subs : List Query) (w : Nat)
    (merger : Merger V) : Piped (new id q subs w merger) [] [] where
  finished := nofun
  bound := by
    intro i
    exact Nat.le_refl _
  exact := by
    intro _ i
    rfl

/-- It is enough to compare what is added on both sides. -/
theorem Piped.of_counts {launched' reported' : List Nat} (h : Piped e launched reported)
    (ho : e.isCompleted = true → e'.isCompleted = true)
    (hf : e'.driver = .finished → e.driver = .finished ∨ e'.isCompleted = true)
    (hle : ∀ i, e'.pending.count i + reported'.count i + launched.count i ≤
      e.pending.count i + reported.count i + launched'.count i)
    (heq : e'.isCompleted = false → ∀ i,
      e'.pending.count i + reported'.count i + launched.count i =
        e.pending.count i + reported.count i + launched'.count i) :
    Piped e' launched' reported' := by
  refine ⟨?_, ?_, ?_⟩
  · intro hx
    rcases hf hx with hx | hx
    · exact ho (h.finished hx)
    · exact hx
  · intro i
    have := h.bound i
    have := hle i
    omega
  · intro hx i
    have hopen : e.isCompleted = false := by
      cases hd : e.isCompleted with
      | false => rfl
      | true => exact (ho hd).symm.trans hx
    have := h.exact hopen i
    have := heq hx i
    omega

/-- No sub query is lost. -/
theorem Piped.of_exact {launched' reported' : List Nat} (h : Piped e launched reported)
    (ho : e.isCompleted = true → e'.isCompleted = true)
    (hf : e'.driver = .finished → e.driver = .finished ∨ e'.isCompleted = true)
    (hk : ∀ i, e'.pending.count i + reported'.count i + launched.count i =
      e.pending.count i + reported.count i + launched'.count i) :
    Piped e' launched' reported' :=
  h.of_counts ho hf (fun i => Nat.le_of_eq (hk i)) fun _ i => hk i

theorem Piped.of_pending (h : Piped e launched reported)
    (ho : e.isCompleted = true → e'.isCompleted = true)
    (hf : e'.driver = .finished → e.driver = .finished ∨ e'.isCompleted = true)
    (hp : e'.pending = e.pending) : Piped e' launched reported := by
  apply h.of_exact ho hf
  intro i
  rw [hp]

/-- A step without a dispatch or a report. -/
theorem Piped.silent (h : Piped e' launched reported) (hr : e.report? m = none)
    (hd : dispatches events = []) :
    Piped e' (launched ++ dispatches events)
      (reported ++ (e.report? m).toList.map Prod.fst) := by
  rwa [hr, hd, List.append_nil, Option.toList_none, List.map_nil, List.append_nil]

theorem indices_settle (i : Nat) (r : SubResult V) (ws : List (Watcher V)) :
    (settle i r ws).map (fun w => w.index) = ws.map (fun w => w.index) := by
  induction ws with
  | nil => rfl
  | cons w ws ih =>
    unfold settle
    split
    · split <;> rfl
    · simp [ih]

theorem index_of_watcher? {i : Nat} {w : Watcher V} (h : e.watcher? i = some w) :
    w.index = i := by
  simpa using List.find?_some h

/-- A watcher that goes takes one sub query with it. -/
theorem count_unwatch {i : Nat} {w : Watcher V} (h : e.watcher? i = some w) (j : Nat) :
    ((e.unwatch i).watchers.map (fun w => w.index)).count j + [i].count j =
      (e.watchers.map (fun w => w.index)).count j := by
  have hm : i ∈ e.watchers.map (fun w => w.index) :=
    List.mem_map.2 ⟨w, List.mem_of_find?_eq_some h, index_of_watcher? h⟩
  have he : (e.unwatch i).watchers.map (fun w => w.index) =
      (e.watchers.map (fun w => w.index)).erase i := by
    have hp : ((fun x => i == x) ∘ fun w : Watcher V => w.index) =
        fun w => decide (w.index = i) := by
      funext w
      change (i == w.index) = decide (w.index = i)
      rw [beq_eq_decide, decide_eq_decide.2 eq_comm]
    rw [unwatch, List.erase_eq_eraseP, List.eraseP_map, hp]
  rw [he, (List.perm_cons_erase hm).count_eq j]
  exact (count_cons_eq i j _).symm

theorem count_pending (e : Execution V) (i : Nat) :
    e.pending.count i = (underway e.calls).count i +
      (e.watchers.map (fun w => w.index)).count i + (e.inbox.map Prod.fst).count i := by
  rw [pending, List.count_append, List.count_append]

/-- The sub query goes from its watcher to the end of the inbox, if the inbox is there. -/
theorem count_pending_unwatch {i : Nat} {w : Watcher V} (h : e.watcher? i = some w)
    (inbox : List (Nat × SubResult V)) (j : Nat) :
    ({ e.unwatch i with inbox } : Execution V).pending.count j + [i].count j +
        (e.inbox.map Prod.fst).count j =
      e.pending.count j + (inbox.map Prod.fst).count j := by
  have hp : ({ e.unwatch i with inbox } : Execution V).pending = underway e.calls ++
      (e.unwatch i).watchers.map (fun w => w.index) ++ inbox.map Prod.fst := rfl
  have := count_unwatch h j
  rw [hp, count_pending, List.count_append, List.count_append]
  omega

theorem piped_start (h : Piped e launched reported) : Piped e.start launched reported := by
  refine h.of_pending (fun hd => hd) ?_ rfl
  intro hx
  left
  change (if e.driver = .idle then Driver.running else e.driver) = .finished at hx
  split at hx
  · cases hx
  · exact hx

/-- The sub query goes to the downstream executor. -/
theorem piped_launch {i : Nat} {s : List (Frame V)} (h : Piped e launched reported)
    (hc : e.calls = .launch i :: s) :
    Piped { e with calls := .dispatching i :: s } (launched ++ [i]) reported := by
  refine h.of_exact (fun hd => hd) .inl ?_
  intro j
  have hu : underway e.calls = underway s := by
    rw [hc]
    rfl
  have := count_cons_eq i j (underway s)
  rw [count_pending, count_pending, hu, List.count_append]
  change (i :: underway s).count j + (e.watchers.map fun w => w.index).count j +
    (e.inbox.map Prod.fst).count j + _ + _ = _
  omega

/-- The sub query goes from the downstream executor to a watcher. -/
theorem count_pending_attach {i : Nat} {s : List (Frame V)} (r : Option (SubResult V))
    (hc : e.calls = .dispatching i :: s) (j : Nat) :
    (e.attach i r).pending.count j = e.pending.count j := by
  have hu : underway (e.attach i r).calls = underway s := by
    rw [attach_eq, hc]
    cases e.isCompleted <;> rfl
  have hw : (e.attach i r).watchers.map (fun w => w.index) =
      e.watchers.map (fun w => w.index) ++ [i] := by
    rw [attach_eq]
    exact List.map_append
  have hi : (e.attach i r).inbox = e.inbox := by rw [attach_eq]
  have hx : (underway e.calls).count j = (underway s).count j + [i].count j := by
    rw [hc]
    exact count_cons_eq i j (underway s)
  rw [count_pending, count_pending, hu, hw, hi, hx, List.count_append]
  omega

theorem piped_attach {i : Nat} {s : List (Frame V)} (r : Option (SubResult V))
    (h : Piped e launched reported) (hc : e.calls = .dispatching i :: s) :
    Piped (e.attach i r) launched reported := by
  apply h.of_exact
  · rw [attach_eq]
    exact fun hd => hd
  · rw [attach_eq]
    exact .inl
  · intro j
    rw [count_pending_attach r hc]

/-- The result of a sub query is dropped. -/
theorem piped_unwatch {i : Nat} {w : Watcher V} (h : Piped e launched reported)
    (hw : e.watcher? i = some w) (hd : e.isCompleted = true) :
    Piped (e.unwatch i) launched reported := by
  refine h.of_counts (fun hd => hd) .inl ?_ ?_
  · intro j
    have : (e.unwatch i).pending.count j + _ + _ = _ := count_pending_unwatch hw e.inbox j
    omega
  · intro hx
    cases hd.symm.trans hx

theorem piped_forward {i : Nat} {w : Watcher V} (r : SubResult V)
    (h : Piped e launched reported) (hw : e.watcher? i = some w) :
    Piped { e.unwatch i with
      inbox := if e.driver = .finished then e.inbox else e.inbox ++ [(i, r)] }
      launched reported := by
  by_cases hf : e.driver = .finished
  · rw [if_pos hf]
    exact piped_unwatch h hw (h.finished hf)
  · rw [if_neg hf]
    refine h.of_exact (fun hd => hd) .inl ?_
    intro j
    have := count_pending_unwatch hw (e.inbox ++ [(i, r)]) j
    rw [List.map_append, List.count_append] at this
    change _ = _ + (_ + [i].count j) at this
    omega

/-- The sub query goes from the inbox into a report. -/
theorem count_pending_receive {i : Nat} {r : SubResult V} {rest : List (Nat × SubResult V)}
    (hi : e.inbox = (i, r) :: rest) (j : Nat) :
    e.pending.count j = (complete i r { e with inbox := rest }).1.pending.count j +
      [i].count j := by
  have hp : (complete i r { e with inbox := rest }).1.pending =
      underway e.calls ++ e.watchers.map (fun w => w.index) ++ rest.map Prod.fst :=
    pending_of_shared (underway_complete ..) (shared_complete ..)
  have hx : (e.inbox.map Prod.fst).count j = (rest.map Prod.fst).count j + [i].count j := by
    rw [hi]
    exact count_cons_eq i j (rest.map Prod.fst)
  rw [hp, count_pending, hx, List.count_append, List.count_append]
  omega

theorem piped_receive {i : Nat} {r : SubResult V} {rest : List (Nat × SubResult V)}
    (h : Piped e launched reported) (hi : e.inbox = (i, r) :: rest)
    (ho : e.isCompleted = true → (complete i r { e with inbox := rest }).1.isCompleted = true) :
    Piped (complete i r { e with inbox := rest }).1 launched (reported ++ [i]) := by
  apply h.of_exact ho
  · intro hf
    exact .inl ((congrArg Prod.fst (shared_complete i r { e with inbox := rest })).symm.trans hf)
  · intro j
    have := count_pending_receive hi j
    rw [List.count_append]
    omega

/-- What is still in the inbox is dropped. -/
theorem piped_halt (h : Piped e launched reported) (hd : e.isCompleted = true) :
    Piped { e with driver := .finished, inbox := [] } launched reported := by
  refine h.of_counts (fun hd => hd) (fun _ => .inr hd) ?_ ?_
  · intro j
    have hp : ({ e with driver := .finished, inbox := [] } : Execution V).pending =
        underway e.calls ++ e.watchers.map (fun w => w.index) ++ [] := rfl
    rw [hp, List.append_nil, count_pending, List.count_append]
    omega
  · intro hx
    cases hd.symm.trans hx

theorem piped_step (h : Piped e launched reported) (hm : m.isReport = false)
    (hs : e.step m = some (e', events)) :
    Piped e' (launched ++ dispatches events)
      (reported ++ (e.report? m).toList.map Prod.fst) := by
  have ho := isCompleted_step hs
  cases transition_of_step hs with
  | success | failure => cases hm
  | start => exact (piped_start h).silent rfl rfl
  | cancel =>
    have ht := shared_stopWith (.cancelled e.query.order (.requested e.id)) e
    have hp := pending_of_shared (underway_stopWith ..) ht
    have hf := congrArg Prod.fst ht
    exact (h.of_pending ho (fun hx => .inl (hf.symm.trans hx)) hp).silent rfl
      (dispatches_stopWith ..)
  | fill hc =>
    have ht := shared_fillNext e
    have hp := pending_of_shared (filterMap_calls_fillNext (fun _ => rfl) rfl hc) ht
    have hf := congrArg Prod.fst ht
    exact (h.of_pending ho (fun hx => .inl (hf.symm.trans hx)) hp).silent rfl rfl
  | skip hc | stopped hc =>
    have hp := pending_of_shared (filterMap_calls_pop hc rfl) rfl
    exact (h.of_pending ho .inl hp).silent rfl rfl
  | @launch i s hc hd =>
    change Piped _ (launched ++ [i]) (reported ++ [])
    rw [List.append_nil]
    exact piped_launch h hc
  | combine hc | stop hc =>
    refine (h.of_pending ho .inl (pending_of_shared ?_ rfl)).silent rfl rfl
    rw [hc]
    rfl
  | handed hc => exact (piped_attach _ h hc).silent rfl rfl
  | combined hc =>
    rw [deliver_fst] at ho ⊢
    have hp := pending_of_shared (filterMap_calls_pop hc rfl) rfl
    exact (h.of_pending ho .inl hp).silent rfl (dispatches_deliver ..)
  | resolve =>
    refine (h.of_pending ho .inl ?_).silent rfl rfl
    simp only [pending, indices_settle]
  | abandon => exact (h.of_pending ho .inl rfl).silent rfl rfl
  | forward hc hw => exact (piped_forward _ h hw).silent rfl rfl
  | retire hc hw hd => exact (piped_unwatch h hw hd).silent rfl rfl
  | receive hc hr hi =>
    rw [dispatches_complete, report?_receive hi, List.append_nil]
    exact piped_receive h hi ho
  | halt hc hr hd => exact (piped_halt h hd).silent rfl rfl

theorem piped_of_trace (h : Trace step e₀ ms e events) (h₀ : Piped e₀ [] [])
    (hm : ∀ m ∈ ms, m.isReport = false) : Piped e (dispatches events) (reports e₀ ms) := by
  induction h with
  | refl => exact h₀
  | snoc ht hs ih =>
    rw [dispatches_append, reports_snoc ht hs]
    apply piped_step _ (hm _ (by simp)) hs
    exact ih fun m hx => hm m (List.mem_append_left _ hx)

/-- A driver that has nothing to receive has an empty inbox. -/
theorem inbox_of_receive (hc : e.calls = []) (hr : e.driver = .running)
    (hs : e.step .receive = none) : e.inbox = [] := by
  cases hi : e.inbox with
  | nil => rfl
  | cons p rest => simp [step, hc, hr, hi] at hs

/-- A sub query that is reported next was passed on and not reported yet. -/
theorem reportable (h : Piped e launched reported) (hn : launched.Nodup) (hm : m.isReport = false)
    {i : Nat} {r : SubResult V} (hr : e.report? m = some (i, r)) :
    i ∈ launched ∧ i ∉ reported := by
  have hi : i ∈ e.inbox.map Prod.fst := by
    cases m with
    | success | failure => cases hm
    | receive =>
      cases hx : e.inbox with
      | nil => simp [report?, hx] at hr
      | cons p rest =>
        obtain rfl : p = (i, r) := by simpa [report?, hx] using hr
        simp
    | _ => cases hr
  have hp : 0 < e.pending.count i := by
    apply List.count_pos_iff.2
    exact List.mem_append_right _ hi
  have := h.bound i
  have := List.nodup_iff_count.1 hn i
  constructor
  · apply List.count_pos_iff.1
    omega
  · intro hc
    have := List.count_pos_iff.2 hc
    omega

/-- With the driver as the only one that reports, reports are in order. -/
theorem orderly_of_trace (h : Trace step e₀ ms e events) (h₀ : Lined e₀ []) (hp : Piped e₀ [] [])
    (hm : ∀ m ∈ ms, m.isReport = false) : Orderly e₀ ms := by
  induction h with
  | refl => exact orderly_nil e₀
  | snoc ht hs ih =>
    have hm' := fun m hx => hm m (List.mem_append_left _ hx)
    refine (orderly_snoc ht).2 ⟨ih hm', ?_⟩
    intro i r
    exact reportable (piped_of_trace ht hp hm') (dispatches_nodup (lined_of_trace ht h₀))
      (hm _ (by simp))

end ScatterGather.Execution
