import ScatterGather.Scenario.Stage
/-!
A scripted stage comes to rest: each thing done on the agenda uses up an action of the script, or
else work. `drain` plays the agenda to its end.
-/
namespace ScatterGather.Scenario

variable {V : Type}

def Item.actions : Item V → Nat
  | .react as => as.length
  | _ => 0

namespace Stage

/-- Actions of the script that have not been done yet. -/
def actionsLeft (s : Stage V) : Nat :=
  (s.reactions.map fun r => r.actions.length).sum + (s.agenda.map Item.actions).sum

def work (s : Stage V) : Nat := s.fleet.work + s.agenda.length + 2 * s.queue.length

/-- What is left to do, actions of the script before work. -/
def left (s : Stage V) : Nat × Nat := (s.actionsLeft, s.work)

theorem takeFirst_sum {α : Type} {p : α → Bool} {l rest : List α} {a : α} (g : α → Nat)
    (h : takeFirst p l = some (a, rest)) : g a + (rest.map g).sum = (l.map g).sum := by
  induction l generalizing rest with
  | nil => simp [takeFirst] at h
  | cons b l ih =>
    unfold takeFirst at h
    split at h
    · cases h
      simp
    · cases ht : takeFirst p l with
      | none => simp [ht] at h
      | some t =>
        obtain ⟨c, r⟩ := t
        simp only [ht, Option.map_some, Option.some.injEq, Prod.mk.injEq] at h
        obtain ⟨rfl, rfl⟩ := h
        have := ih ht
        simp
        omega

theorem actionsLeft_fire (p : Reaction V → Bool) (s : Stage V) :
    (s.fire p).actionsLeft = s.actionsLeft := by
  unfold fire
  split
  · rename_i h
    have := takeFirst_sum (fun r : Reaction V => r.actions.length) h
    simp only [actionsLeft, List.map_cons, List.sum_cons, Item.actions]
    omega
  · rfl

theorem work_fire_le (p : Reaction V → Bool) (s : Stage V) : (s.fire p).work ≤ s.work + 1 := by
  unfold fire
  split
  · simp only [work, List.length_cons]
    omega
  · exact Nat.le_add_right ..

theorem left_enqueue_le (x : Nat) (t : Task) (s : Stage V) :
    (s.enqueue x t).actionsLeft = s.actionsLeft ∧ (s.enqueue x t).work ≤ s.work + 2 := by
  unfold enqueue
  split
  · exact ⟨rfl, Nat.le_add_right ..⟩
  · refine ⟨rfl, ?_⟩
    simp only [work, List.length_append, List.length_cons, List.length_nil]
    omega

theorem left_also (items : List (Item V)) (s : Stage V) (h : (items.map Item.actions).sum = 0) :
    (s.also items).actionsLeft = s.actionsLeft ∧
      (s.also items).work = s.work + items.length := by
  constructor
  · simp only [actionsLeft, also, List.map_append, List.sum_append_nat, h]
    omega
  · simp only [work, also, List.length_append]
    omega

theorem left_settleHandle_le (x i : Nat) (r : SubResult V) (s : Stage V) :
    (s.settleHandle x i r).1.actionsLeft = s.actionsLeft ∧
      (s.settleHandle x i r).1.work ≤ s.work + 2 := by
  unfold settleHandle
  split
  · exact ⟨rfl, Nat.le_add_right ..⟩
  · unfold resolveWatched
    split
    · rename_i f _ h
      have := Fleet.work_on_eq h fun e e' es he => Execution.work_resolve he
      obtain ⟨h₁, h₂⟩ := left_enqueue_le x (.watcher i) { s with fleet := f }
      refine ⟨h₁, ?_⟩
      simp only [work] at *
      omega
    · exact ⟨rfl, Nat.le_add_right ..⟩

theorem left_dropLine_le (x p : Nat) (s : Stage V) :
    (s.dropLine x p).1.actionsLeft = s.actionsLeft ∧ (s.dropLine x p).1.work ≤ s.work + 2 := by
  unfold dropLine
  split
  · exact ⟨rfl, Nat.le_add_right ..⟩
  · rename_i l rest _
    exact left_settleHandle_le x l.index (.error .unfinished) { s with lines := rest }

theorem left_openLine_le (x i : Nat) (e : Execution V) (s : Stage V) :
    (s.openLine x i e).actionsLeft = s.actionsLeft ∧ (s.openLine x i e).work ≤ s.work + 2 := by
  unfold openLine
  simp only
  split
  · exact ⟨rfl, Nat.le_add_right ..⟩
  · exact left_dropLine_le x (position e i) s

theorem left_observe_le (x : Nat) (event : Event V) (s : Stage V) :
    (s.observe x event).actionsLeft = s.actionsLeft ∧
      (s.observe x event).work ≤ s.work + event.cost := by
  unfold observe
  split
  · rename_i e i _
    have h := left_openLine_le x i e (s.write (.dispatched x (position e i)))
    refine ⟨(actionsLeft_fire ..).trans h.1, Nat.le_trans (work_fire_le ..) ?_⟩
    have h₂ := h.2
    simp only [Event.cost]
    have : (s.write (.dispatched x (position e i))).work = s.work := rfl
    omega
  · exact ⟨actionsLeft_fire .., work_fire_le ..⟩
  · exact ⟨actionsLeft_fire .., work_fire_le ..⟩
  · exact left_enqueue_le ..
  · exact ⟨rfl, Nat.le_add_right ..⟩

theorem left_observeAll_le (x : Nat) (events : List (Event V)) (s : Stage V) :
    (s.observeAll x events).actionsLeft = s.actionsLeft ∧
      (s.observeAll x events).work ≤ s.work + cost events := by
  induction events generalizing s with
  | nil => exact ⟨rfl, Nat.le_add_right ..⟩
  | cons e es ih =>
    obtain ⟨h₁, h₂⟩ := left_observe_le x e s
    obtain ⟨h₃, h₄⟩ := ih (s.observe x e)
    refine ⟨h₃.trans h₁, ?_⟩
    simp only [cost, List.map_cons, List.sum_cons] at *
    simp only [observeAll, List.foldl_cons] at *
    omega

theorem actionsLeft_call (x : Nat) (m : Move V) (s : Stage V) :
    (s.call x m).1.actionsLeft = s.actionsLeft := by
  unfold call
  split
  · rfl
  · rename_i e _
    split
    · rfl
    · rename_i f events _
      exact (left_observeAll_le ..).1.trans (left_also [.run x e.calls.length] _ rfl).1

theorem actionsLeft_callStart (x : Nat) (s : Stage V) :
    (s.callStart x).1.actionsLeft = s.actionsLeft := by
  unfold callStart
  split
  · exact (actionsLeft_call ..).trans (left_enqueue_le ..).1
  · exact actionsLeft_call ..

theorem actionsLeft_perform (s : Stage V) (a : Action V) :
    (s.perform a).1.actionsLeft = s.actionsLeft := by
  unfold perform
  split
  all_goals try exact actionsLeft_call ..
  · exact actionsLeft_callStart ..
  · rfl
  · unfold cancelAll
    simp only
    split
    · simp [actionsLeft, also, Item.actions]
    · rfl
  · split
    · rfl
    · rename_i r _ l rest _
      exact (left_settleHandle_le _ l.index r { s with lines := rest }).1
  · exact (left_dropLine_le ..).1
  · split <;> rfl
  · rfl

/-- A collaborator's return uses work up, the new task of a watcher included. -/
theorem left_returning_lt {x : Nat} {e : Execution V} {s s' : Stage V} {m : Move V} {f : Fleet V}
    {events : List (Event V)} (h : s.returning x e = some (m, s'))
    (hf : s'.fleet.on x m = some (f, events)) :
    ({ s' with fleet := f } : Stage V).actionsLeft = s.actionsLeft ∧
      ({ s' with fleet := f } : Stage V).work + cost events < s.work := by
  unfold returning at h
  split at h
  · rename_i i _ _
    split at h
    · rename_i rest _
      cases h
      obtain ⟨h₁, h₂⟩ := left_enqueue_le x (.watcher i) { s with making := rest }
      have := Fleet.work_on_lt hf (cost events + 2) fun e e' es he hes => by
        subst hes
        exact Execution.work_handed_lt he
      have hfl : ({ s with making := rest }.enqueue x (.watcher i)).fleet = s.fleet := by
        unfold enqueue
        split <;> rfl
      rw [hfl] at this
      refine ⟨h₁, ?_⟩
      simp only [work, hfl] at *
      omega
    · cases h
      obtain ⟨h₁, h₂⟩ := left_enqueue_le x (.watcher i) s
      have := Fleet.work_on_lt hf (cost events + 2) fun e e' es he hes => by
        subst hes
        exact Execution.work_handed_lt he
      have hfl : (s.enqueue x (.watcher i)).fleet = s.fleet := by
        unfold enqueue
        split <;> rfl
      rw [hfl] at this
      refine ⟨h₁, ?_⟩
      simp only [work, hfl] at *
      omega
  · cases h
    have := Fleet.work_on_lt hf (cost events) fun e e' es he hes => by
      subst hes
      exact Execution.work_combined_lt he
    refine ⟨rfl, ?_⟩
    simp only [work]
    omega
  · cases h
    have := Fleet.work_on_lt hf (cost events) fun e e' es he hes => by
      subst hes
      exact Execution.work_stopped_lt he
    refine ⟨rfl, ?_⟩
    simp only [work]
    omega
  · cases h

/-- A step of an execution that pays for its events and for new items on the agenda. -/
theorem left_observed_le (x : Nat) (events : List (Event V)) (items : List (Item V)) (s : Stage V)
    (h : (items.map Item.actions).sum = 0) :
    ((s.also items).observeAll x events).actionsLeft = s.actionsLeft ∧
      ((s.also items).observeAll x events).work ≤ s.work + items.length + cost events := by
  obtain ⟨h₁, h₂⟩ := left_also items s h
  obtain ⟨h₃, h₄⟩ := left_observeAll_le x events (s.also items)
  exact ⟨h₃.trans h₁, by omega⟩

theorem left_runOn_le (x height : Nat) (s : Stage V) :
    (s.runOn x height).actionsLeft = s.actionsLeft ∧ (s.runOn x height).work ≤ s.work := by
  unfold runOn
  split
  · exact ⟨rfl, Nat.le_refl _⟩
  · split
    · exact ⟨rfl, Nat.le_refl _⟩
    · split
      · rename_i f events hf
        have hw := Fleet.work_on_lt hf (cost events) fun e e' es he hes => by
          subst hes
          exact Execution.work_resume_lt he
        obtain ⟨h₁, h₂⟩ := left_observed_le x events [.run x height] { s with fleet := f } rfl
        refine ⟨h₁, ?_⟩
        simp only [work, List.length_cons, List.length_nil] at *
        omega
      · split
        · exact ⟨rfl, Nat.le_refl _⟩
        · rename_i m s' hr
          split
          · rename_i f events hf
            obtain ⟨h₁, h₂⟩ := left_returning_lt hr hf
            obtain ⟨h₃, h₄⟩ := left_observed_le x events [.run x height] { s' with fleet := f } rfl
            refine ⟨h₃.trans h₁, ?_⟩
            simp only [List.length_cons, List.length_nil] at *
            omega
          · exact ⟨rfl, Nat.le_refl _⟩

/-- A watcher that passes its result on pays for waking the driver, but for one unit. -/
theorem left_watch_le (x i : Nat) (s : Stage V) :
    (s.watch x i).actionsLeft = s.actionsLeft ∧ (s.watch x i).work ≤ s.work + 1 := by
  unfold watch
  split
  · rename_i f _ hf
    have hw := Fleet.work_on_lt hf 0 fun e e' es he _ => Execution.work_retire_lt he
    refine ⟨rfl, ?_⟩
    simp only [work]
    omega
  · split
    · rename_i f _ hf
      have hw := Fleet.work_on_lt hf 0 fun e e' es he _ => Execution.work_forward_lt he
      unfold wakeDriver
      split
      · obtain ⟨h₁, h₂⟩ := left_enqueue_le x .driver { s with fleet := f }
        refine ⟨h₁, ?_⟩
        simp only [work] at *
        omega
      · refine ⟨rfl, ?_⟩
        simp only [work]
        omega
    · exact ⟨rfl, Nat.le_add_right ..⟩

theorem left_drive_le (x : Nat) (s : Stage V) :
    (s.drive x).actionsLeft = s.actionsLeft ∧ (s.drive x).work ≤ s.work := by
  unfold drive
  split
  · rename_i f _ hf
    have hw := Fleet.work_on_lt hf 0 fun e e' es he _ => Execution.work_halt_lt he
    refine ⟨rfl, ?_⟩
    simp only [work]
    omega
  · split
    · rename_i f events hf
      have hw := Fleet.work_on_lt hf (cost events + 1) fun e e' es he hes => by
        subst hes
        exact Execution.work_receive_lt he
      obtain ⟨h₁, h₂⟩ := left_observed_le x events [.run x 0, .drive x] { s with fleet := f } rfl
      refine ⟨h₁, ?_⟩
      simp only [work, List.length_cons, List.length_nil] at *
      omega
    · exact ⟨rfl, Nat.le_refl _⟩

theorem left_retire_le (x : Nat) (s : Stage V) :
    (s.retire x).actionsLeft = s.actionsLeft ∧ (s.retire x).work ≤ s.work := by
  unfold retire
  split
  · split
    · rename_i f _ hf
      have hw := Fleet.work_on_lt hf 0 fun e e' es he _ => Execution.work_retire_lt he
      obtain ⟨h₁, h₂⟩ := left_also [.retire x] { s with fleet := f } rfl
      refine ⟨h₁, ?_⟩
      simp only [work, List.length_cons, List.length_nil] at *
      omega
    · exact ⟨rfl, Nat.le_refl _⟩
  · split
    · rename_i f _ hf
      have hw := Fleet.work_on_lt hf 0 fun e e' es he _ => Execution.work_halt_lt he
      refine ⟨rfl, ?_⟩
      simp only [work]
      omega
    · exact ⟨rfl, Nat.le_refl _⟩

theorem left_settleOn_le (s : Stage V) :
    s.settleOn.actionsLeft = s.actionsLeft ∧ s.settleOn.work ≤ s.work := by
  unfold settleOn
  split
  · exact ⟨rfl, Nat.le_refl _⟩
  · rename_i x i rest hq
    obtain ⟨h₁, h₂⟩ := left_watch_le x i { s with queue := rest }
    obtain ⟨h₃, h₄⟩ := left_also [.settle] ({ s with queue := rest }.watch x i) rfl
    refine ⟨h₃.trans h₁, ?_⟩
    simp only [work, hq, List.length_cons, List.length_nil] at *
    omega
  · rename_i x rest hq
    obtain ⟨h₁, h₂⟩ := left_also [.drive x, .settle] { s with queue := rest } rfl
    refine ⟨h₁, ?_⟩
    simp only [work, hq, List.length_cons, List.length_nil] at *
    omega
  · rename_i x rest hq
    obtain ⟨h₁, h₂⟩ := left_also [.retire x, .settle] { s with queue := rest } rfl
    refine ⟨h₁, ?_⟩
    simp only [work, hq, List.length_cons, List.length_nil] at *
    omega

theorem left_tick_lt (s : Stage V) (h : s.agenda ≠ []) :
    s.tick.actionsLeft < s.actionsLeft ∨
      s.tick.actionsLeft = s.actionsLeft ∧ s.tick.work < s.work := by
  unfold tick
  split
  · exact absurd ‹_› h
  · rename_i x height rest ha
    obtain ⟨h₁, h₂⟩ := left_runOn_le x height { s with agenda := rest }
    refine .inr ⟨h₁.trans ?_, Nat.lt_of_le_of_lt h₂ ?_⟩
    · simp [actionsLeft, ha, Item.actions]
    · simp [work, ha]
  · rename_i rest ha
    exact .inr ⟨by simp [actionsLeft, ha, Item.actions], by simp [work, ha]⟩
  · rename_i a as rest ha
    refine .inl ?_
    have hp := actionsLeft_perform { s with agenda := [] } a
    simp only [actionsLeft, ha, List.map_append, List.sum_append_nat, List.map_cons, List.map_nil,
      List.sum_cons, List.sum_nil, Item.actions, List.length_cons] at *
    omega
  · rename_i a reply rest ha
    exact .inr ⟨by simp [actionsLeft, write, ha, Item.actions], by simp [work, write, ha]⟩
  · rename_i start rest ha
    refine .inr ?_
    simp only
    split
    · split
      · rename_i e f events _ hf
        have hw := Fleet.work_sweepNext hf
        obtain ⟨h₁, h₂⟩ := left_observed_le _ (events.map Prod.snd)
          [.run _ e.calls.length, .sweep start]
          ({ s with agenda := rest, fleet := f } : Stage V) rfl
        refine ⟨h₁.trans (by simp [actionsLeft, ha, Item.actions]), Nat.lt_of_le_of_lt h₂ ?_⟩
        simp only [work, ha, List.length_cons, List.length_nil] at *
        omega
      · exact ⟨by simp [actionsLeft, ha, Item.actions], by simp [work, ha]⟩
    · split
      · rename_i f _ hf
        have hw := Fleet.work_sweepEnd hf
        refine ⟨by simp [actionsLeft, arrange, ha, Item.actions], ?_⟩
        simp [work, arrange, ha] at *
        omega
      · exact ⟨by simp [actionsLeft, ha, Item.actions], by simp [work, ha]⟩
  · rename_i rest ha
    obtain ⟨h₁, h₂⟩ := left_settleOn_le { s with agenda := rest }
    refine .inr ⟨h₁.trans ?_, Nat.lt_of_le_of_lt h₂ ?_⟩
    · simp [actionsLeft, ha, Item.actions]
    · simp [work, ha]
  · rename_i x rest ha
    obtain ⟨h₁, h₂⟩ := left_drive_le x { s with agenda := rest }
    refine .inr ⟨h₁.trans ?_, Nat.lt_of_le_of_lt h₂ ?_⟩
    · simp [actionsLeft, ha, Item.actions]
    · simp [work, ha]
  · rename_i x rest ha
    obtain ⟨h₁, h₂⟩ := left_retire_le x { s with agenda := rest }
    refine .inr ⟨h₁.trans ?_, Nat.lt_of_le_of_lt h₂ ?_⟩
    · simp [actionsLeft, ha, Item.actions]
    · simp [work, ha]

/-- Plays the agenda to its end. -/
def drain (s : Stage V) : Stage V :=
  if _h : s.agenda = [] then s else s.tick.drain
termination_by s.left
decreasing_by
  rcases left_tick_lt s _h with hlt | ⟨heq, hlt⟩
  · exact Prod.Lex.left _ _ hlt
  · simp only [left, heq]
    exact Prod.Lex.right _ hlt

end Stage
end ScatterGather.Scenario
