import ScatterGather.Simulation.Basic
import ScatterGather.Execution.Work
/-!
A simulation comes to its end: each tick uses up work of the execution, or a task, or a timer.
-/
namespace ScatterGather.Simulation

variable {V : Type}

def Phase.weight : Phase → Nat
  | fresh => 3
  | asleep _ => 1
  | finished => 0

def workersLeft (ws : List (Worker V)) : Nat := (ws.map fun w => w.phase.weight).sum

/-- What has not begun yet counts for the tasks and timers that it will need. -/
def left (s : Simulation V) : Nat :=
  4 * s.execution.work + workersLeft s.workers + s.canceller.weight + 2 * s.timers.length +
    s.queue.length + 2 * s.isStarting.toNat

theorem left_enqueue_le (t : Task) (s : Simulation V) : (s.enqueue t).left ≤ s.left + 1 := by
  unfold enqueue
  split
  · exact Nat.le_add_right ..
  · simp only [left, List.length_append, List.length_cons, List.length_nil]
    omega

theorem length_addTimer (time : Nat) (t : Task) (l : List (Nat × Task)) :
    (addTimer time t l).length = l.length + 1 := by
  induction l with
  | nil => rfl
  | cons u r ih =>
    unfold addTimer
    split <;> simp [ih]

theorem left_sleep (delay : Nat) (t : Task) (s : Simulation V) :
    (s.sleep delay t).left = s.left + 2 := by
  simp only [sleep, left, length_addTimer]
  omega

theorem workersLeft_setWorker {l : List (Worker V)} {u w : Worker V}
    (h : (l.find? fun v => v.index = w.index) = some u) :
    workersLeft (setWorker w l) + u.phase.weight = workersLeft l + w.phase.weight := by
  induction l with
  | nil => simp at h
  | cons v r ih =>
    unfold setWorker
    by_cases hv : v.index = w.index
    · simp [hv] at h
      subst h
      simp [hv, workersLeft]
      omega
    · have := ih (by simpa [hv] using h)
      simp [hv, workersLeft] at *
      omega

theorem index_of_worker? {s : Simulation V} {i : Nat} {w : Worker V} (h : s.worker? i = some w) :
    w.index = i := by
  simpa using List.find?_some h

/-- The worker as it is found replaced by another state of it. -/
theorem workersLeft_replace {s : Simulation V} {i : Nat} {u w : Worker V}
    (h : s.worker? i = some u) (hw : w.index = i) :
    workersLeft (setWorker w s.workers) + u.phase.weight =
      workersLeft s.workers + w.phase.weight := by
  subst hw
  exact workersLeft_setWorker h

theorem left_observe_le (s : Simulation V) (event : Event V) :
    (s.observe event).left ≤ s.left + 4 * event.cost := by
  unfold observe
  split
  · unfold call
    split
    · split
      · rename_i i q _ _
        refine Nat.le_trans (left_enqueue_le ..) ?_
        simp only [left, workersLeft, List.map_append, List.sum_append_nat, List.map_cons,
          List.map_nil, List.sum_cons, List.sum_nil, Phase.weight, Event.cost]
        omega
      · exact Nat.le_add_right ..
    · exact Nat.le_add_right ..
  · rename_i i
    unfold stop
    split
    · rename_i w hw
      split
      · rename_i spawned _
        refine Nat.le_trans (left_enqueue_le ..) ?_
        have hi := index_of_worker? hw
        have := workersLeft_replace (w := { w with spawned }) hw hi
        simp only [left, Event.cost] at *
        omega
      · exact Nat.le_add_right ..
    · exact Nat.le_add_right ..
  all_goals exact Nat.le_add_right ..

theorem left_observeAll_le (events : List (Event V)) (s : Simulation V) :
    (events.foldl observe s).left ≤ s.left + 4 * cost events := by
  induction events generalizing s with
  | nil => exact Nat.le_add_right ..
  | cons e es ih =>
    have h₁ := left_observe_le s e
    have h₂ := ih (s.observe e)
    simp only [List.foldl_cons, cost, List.map_cons, List.sum_cons] at *
    omega

/-- A step of the execution pays for what it causes. -/
theorem left_stepped_le (s : Simulation V) (e : Execution V) (events : List (Event V)) :
    (events.foldl observe { s with execution := e }).left + 4 * s.execution.work ≤
      s.left + 4 * (e.work + cost events) := by
  have := left_observeAll_le events { s with execution := e }
  simp only [left] at *
  omega

theorem left_spawnTask_le (t : Option Task) (s : Simulation V) :
    (s.spawnTask t).left ≤ s.left + 1 := by
  unfold spawnTask
  split
  · exact left_enqueue_le ..
  · exact Nat.le_add_right ..

theorem work_returning {s : Simulation V} {m : Move V} {t : Option Task} {e : Execution V}
    {events : List (Event V)} (h : s.returning = some (m, t))
    (he : s.execution.step m = some (e, events)) : e.work + cost events < s.execution.work := by
  unfold returning at h
  split at h
  · cases h
    have := Execution.work_handed_lt he
    omega
  · cases h
    exact Execution.work_combined_lt he
  · cases h
    exact Execution.work_stopped_lt he
  · cases h

theorem resume_or_returning (s : Simulation V) (h : s.execution.calls ≠ []) :
    (∃ t, s.execution.step .resume = some t) ∨
      ∃ m t r, s.returning = some (m, t) ∧ s.execution.step m = some r := by
  cases hc : s.execution.calls with
  | nil => exact absurd hc h
  | cons f fs =>
    cases f <;> simp [Execution.step, Execution.resume, returning, hc]
    · split <;> simp
    · exact ⟨_, _, rfl⟩

theorem left_advance_lt (s : Simulation V) (h : s.execution.calls ≠ []) :
    s.advance.left < s.left := by
  unfold advance
  split
  · rename_i e events he
    have := Execution.work_resume_lt he
    have := left_stepped_le s e events
    omega
  · rename_i hr
    split
    · rename_i hn
      rcases resume_or_returning s h with ⟨t, ht⟩ | ⟨m, t, r, hm, _⟩
      · simp [hr] at ht
      · simp [hn] at hm
    · rename_i m t hm
      split
      · rename_i e events he
        have := work_returning hm he
        have := left_stepped_le s e events
        have := left_spawnTask_le t (events.foldl observe { s with execution := e })
        omega
      · rename_i hn
        rcases resume_or_returning s h with ⟨t, ht⟩ | ⟨m', t', r, hm', hr'⟩
        · simp [hr] at ht
        · rw [hm] at hm'
          cases hm'
          simp [hn] at hr'

theorem left_resolve_le (w : Worker V) (s : Simulation V) : (s.resolve w).left ≤ s.left + 1 := by
  unfold resolve
  split
  · exact Nat.le_add_right ..
  · split
    · rename_i e _ he
      have := Execution.work_resolve he
      refine Nat.le_trans (left_enqueue_le ..) ?_
      simp only [left] at *
      omega
    · exact Nat.le_add_right ..

theorem left_finish_le {s : Simulation V} {w : Worker V} (spawned : SpawnedWork V)
    (h : s.worker? w.index = some w) : (s.finish w spawned).left + w.phase.weight ≤ s.left + 1 := by
  unfold finish
  have hr := workersLeft_replace (w := { w with spawned, phase := .finished }) h rfl
  have := left_resolve_le { w with spawned, phase := .finished }
    { s with workers := setWorker { w with spawned, phase := .finished } s.workers }
  simp only [left, Phase.weight] at *
  omega

theorem weight_pos {p : Phase} (h : p ≠ .finished) : 1 ≤ p.weight := by
  cases p <;> simp_all [Phase.weight]

theorem left_work_le {s : Simulation V} {w : Worker V} (h : s.worker? w.index = some w) :
    (s.work w).left ≤ s.left := by
  unfold work
  split
  · exact Nat.le_refl _
  · rename_i hp
    have hpos := weight_pos hp
    split
    · rename_i spawned _
      have := left_finish_le spawned h
      omega
    · split
      · split
        · rename_i spawned _
          have := left_finish_le (s := { s with log := s.log ++ [.finished w.index] }) spawned h
          simp only [left] at *
          omega
        · exact Nat.le_refl _
      · split
        · rename_i hf
          have := workersLeft_replace (w := { w with phase := .asleep (s.now + w.job.delay) }) h rfl
          simp only [left_sleep]
          simp only [left, hf, Phase.weight] at *
          omega
        · exact Nat.le_refl _

theorem left_watch_le (i : Nat) (s : Simulation V) : (s.watch i).left ≤ s.left := by
  unfold watch
  split
  · rename_i e _ he
    have := Execution.work_retire_lt he
    simp only [left]
    omega
  · split
    · rename_i e _ he
      have := Execution.work_forward_lt he
      simp only
      split
      · have := left_enqueue_le .driver { s with execution := e }
        simp only [left] at *
        omega
      · simp only [left]
        omega
    · exact Nat.le_refl _

theorem left_drive_le (s : Simulation V) : s.drive.left ≤ s.left := by
  unfold drive
  split
  · rename_i e _ he
    have := Execution.work_halt_lt he
    simp only [left]
    omega
  · split
    · rename_i e events he
      have := Execution.work_receive_lt he
      have := left_observeAll_le events
        ({ s with execution := e, queue := Task.driver :: s.queue } : Simulation V)
      simp only [left, List.length_cons] at *
      omega
    · exact Nat.le_refl _

theorem left_cancel_le (s : Simulation V) : s.cancel.left ≤ s.left := by
  unfold cancel
  simp only
  split
  · split
    · rename_i e events he
      have hw : e.work + cost events ≤ s.execution.work := by
        have := s.execution.work_cancel_le
        simp only [Execution.step] at he
        split at he
        · injection he with he
          simp only [he] at this
          exact this
        · cases he
      have := left_observeAll_le events
        ({ s with execution := e, canceller := .finished } : Simulation V)
      simp only [left, Phase.weight] at *
      omega
    · exact Nat.le_refl _
  · split
    · rename_i hf
      simp only [left_sleep]
      simp only [left, hf, Phase.weight]
      omega
    · exact Nat.le_refl _

theorem left_runTask_le (s : Simulation V) (t : Task) : (s.runTask t).left ≤ s.left := by
  unfold runTask
  split
  · split
    · rename_i w hw
      have := index_of_worker? hw
      subst this
      exact left_work_le hw
    · exact Nat.le_refl _
  · exact left_watch_le ..
  · exact left_drive_le ..
  · exact left_cancel_le ..

theorem left_started_lt (s : Simulation V) (h : s.isStarting = true) :
    s.started.left < s.left := by
  unfold started
  simp only
  split
  · have := left_enqueue_le .canceller { s with isStarting := false }
    simp only [left, h, Bool.toNat_true, Bool.toNat_false] at *
    omega
  · simp only [left, h, Bool.toNat_true, Bool.toNat_false]
    omega

theorem left_enqueueAll_le (due : List (Nat × Task)) (s : Simulation V) :
    (due.foldl (fun s t => s.enqueue t.2) s).left ≤ s.left + due.length := by
  induction due generalizing s with
  | nil => exact Nat.le_refl _
  | cons t r ih =>
    have h₁ := left_enqueue_le t.2 s
    have h₂ := ih (s.enqueue t.2)
    simp only [List.foldl_cons, List.length_cons] at *
    omega

theorem left_wake_lt (s : Simulation V) (t : Task) (time : Nat) (rest : List (Nat × Task))
    (h : s.timers = (time, t) :: rest) : (s.wake time).left < s.left := by
  unfold wake
  rw [h]
  refine Nat.lt_of_le_of_lt (left_enqueueAll_le ..) ?_
  have hlen := congrArg List.length (List.takeWhile_append_dropWhile
    (l := (time, t) :: rest) (p := fun u : Nat × Task => decide (u.1 ≤ time)))
  have hpos : 1 ≤ (((time, t) :: rest).takeWhile fun u => decide (u.1 ≤ time)).length := by simp
  simp only [left, h, List.length_append] at *
  omega

theorem left_tick_lt (s : Simulation V) (h : s.isOver = false) : s.tick.left < s.left := by
  unfold tick
  split
  · rename_i hc
    exact left_advance_lt s (by simp [hc])
  · rename_i t rest _ hq
    split
    · exact left_started_lt s ‹_›
    · refine Nat.lt_of_le_of_lt (left_runTask_le ..) ?_
      simp only [left, hq, List.length_cons]
      omega
  · exact left_wake_lt s _ _ _ ‹_›
  · simp_all [isOver]

/-- Runs a simulation to its end. -/
def run (s : Simulation V) : Simulation V :=
  if _h : s.isOver then s else s.tick.run
termination_by s.left
decreasing_by exact left_tick_lt s (by simpa using _h)

end ScatterGather.Simulation
