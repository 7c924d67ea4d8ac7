import ScatterGather.Proofs.Execution.Answering
import ScatterGather.Simulation.Progress

/-! A simulation in which every job ends with an answer comes to an outcome of these answers. -/
namespace ScatterGather.Simulation

open Execution

variable {V : Type} {a : Nat → SubResult V} {c : Prop} {e e₀ : Execution V} {s s' : Simulation V}
  {m : Move V} {events : List (Event V)} {i j : Nat}

/-- What holds at the start and is kept by every tick holds at the end. -/
theorem run_induction {P : Simulation V → Prop} (h : ∀ s, s.isOver = false → P s → P s.tick)
    (h₀ : P s) : P s.run ∧ s.run.isOver = true := by
  induction s using run.induct with
  | case1 s ho =>
    rw [run, dif_pos ho]
    exact ⟨h₀, ho⟩
  | case2 s ho ih =>
    rw [run, dif_neg ho]
    exact ih (h s (Bool.eq_false_iff.2 ho) h₀)

/-- Who works on what. -/
def roster (s : Simulation V) : List (Nat × Job V) := s.workers.map fun w => (w.index, w.job)

/-- Tasks that are due or will be. -/
def tasks (s : Simulation V) : List Task := s.queue ++ s.timers.map Prod.snd

theorem roster_setWorker {l : List (Worker V)} {u w : Worker V}
    (h : (l.find? fun v => v.index = w.index) = some u) (hj : w.job = u.job) :
    (setWorker w l).map (fun w => (w.index, w.job)) = l.map fun w => (w.index, w.job) := by
  induction l with
  | nil => rfl
  | cons v r ih =>
    unfold setWorker
    by_cases hv : v.index = w.index
    · obtain rfl : v = u := by simpa [hv] using h
      simp [hv, hj]
    · simp [hv, ih (by simpa [hv] using h)]

theorem find?_setWorker {l : List (Worker V)} {u w : Worker V}
    (h : (l.find? fun v => v.index = w.index) = some u) :
    ((setWorker w l).find? fun v => v.index = j) =
      if j = w.index then some w else l.find? fun v => v.index = j := by
  induction l with
  | nil => simp at h
  | cons v r ih =>
    unfold setWorker
    by_cases hv : v.index = w.index
    · by_cases hj : j = w.index
      · simp [hv, hj]
      · have hn : ¬ w.index = j := fun hx => hj hx.symm
        simp [hv, hj, hn]
    · have hr := ih (by simpa [hv] using h)
      by_cases hx : v.index = j
      · have hj : ¬ j = w.index := fun hy => hv (hx.trans hy)
        simp [hx, hj]
      · simp [hv, hx, hr]

/-- What a simulation was set up with. -/
def setting (s : Simulation V) : (Query → Job V) × Bool × Option Nat :=
  (s.jobs, s.startsInside, s.cancelAfter)

/-- Only how far the tasks have come differs. Somebody is there to cancel only if that was
wanted. -/
structure Alike (s s' : Simulation V) : Prop where
  execution : s'.execution = s.execution
  setting : s'.setting = s.setting
  roster : s'.roster = s.roster
  tasks : .canceller ∈ s'.tasks → .canceller ∈ s.tasks ∨ s.cancelAfter.isSome = true

theorem Alike.refl (s : Simulation V) : Alike s s := ⟨rfl, rfl, rfl, .inl⟩

theorem cancelAfter_of_setting (h : s'.setting = s.setting) : s'.cancelAfter = s.cancelAfter :=
  congrArg (fun p => p.2.2) h

theorem Alike.trans {s₁ s₂ s₃ : Simulation V} (h : Alike s₁ s₂) (h' : Alike s₂ s₃) :
    Alike s₁ s₃ where
  execution := h'.execution.trans h.execution
  setting := h'.setting.trans h.setting
  roster := h'.roster.trans h.roster
  tasks := by
    intro hx
    rcases h'.tasks hx with hx | hx
    · exact h.tasks hx
    · exact .inr (cancelAfter_of_setting h.setting ▸ hx)

theorem mem_queue_enqueue {t u : Task} {s : Simulation V} :
    u ∈ (s.enqueue t).queue ↔ u ∈ s.queue ∨ u = t := by
  unfold enqueue
  split
  · constructor
    · exact .inl
    · rintro (h | rfl)
      · exact h
      · assumption
  · simp

theorem enqueue_frame (t : Task) (s : Simulation V) :
    s.enqueue t = { s with queue := (s.enqueue t).queue } := by
  unfold enqueue
  split <;> rfl

theorem enqueueAll_frame (due : List (Nat × Task)) (s : Simulation V) :
    due.foldl (fun s t => s.enqueue t.2) s =
      { s with queue := (due.foldl (fun s t => s.enqueue t.2) s).queue } := by
  induction due generalizing s with
  | nil => rfl
  | cons t due ih =>
    rw [List.foldl_cons, ih, enqueue_frame]

theorem mem_queue_enqueueAll {t : Task} {due : List (Nat × Task)} {s : Simulation V} :
    t ∈ (due.foldl (fun s t => s.enqueue t.2) s).queue ↔
      t ∈ s.queue ∨ t ∈ due.map Prod.snd := by
  induction due generalizing s with
  | nil => simp
  | cons u due ih =>
    rw [List.foldl_cons, ih, mem_queue_enqueue, List.map_cons, List.mem_cons, or_assoc]

theorem mem_addTimer {time : Nat} {t : Task} {u : Nat × Task} {l : List (Nat × Task)} :
    u ∈ addTimer time t l ↔ u = (time, t) ∨ u ∈ l := by
  induction l with
  | nil => simp [addTimer]
  | cons v r ih =>
    unfold addTimer
    split
    · simp [ih, or_left_comm]
    · simp

theorem alike_enqueue {t : Task} (h : t = .canceller → s.cancelAfter.isSome = true) :
    Alike s (s.enqueue t) := by
  rw [enqueue_frame]
  refine ⟨rfl, rfl, rfl, ?_⟩
  intro hx
  rcases List.mem_append.1 hx with hx | hx
  · rcases mem_queue_enqueue.1 hx with hx | hx
    · exact .inl (List.mem_append_left _ hx)
    · exact .inr (h hx.symm)
  · exact .inl (List.mem_append_right _ hx)

theorem alike_sleep {t : Task} (h : t = .canceller → s.cancelAfter.isSome = true) (delay : Nat) :
    Alike s (s.sleep delay t) := by
  refine ⟨rfl, rfl, rfl, ?_⟩
  intro hx
  rcases List.mem_append.1 hx with hx | hx
  · exact .inl (List.mem_append_left _ hx)
  · obtain ⟨u, hu, hc⟩ := List.mem_map.1 hx
    rcases mem_addTimer.1 hu with rfl | hu
    · exact .inr (h hc)
    · exact .inl (List.mem_append_right _ (List.mem_map.2 ⟨u, hu, hc⟩))

/-- Fewer tasks, or the same ones at another time. -/
theorem alike_of_tasks {s' : Simulation V} (h : s' = { s with
      canceller := s'.canceller, isStarting := s'.isStarting, isRegistered := s'.isRegistered,
      deliveredAt := s'.deliveredAt, now := s'.now, queue := s'.queue, timers := s'.timers,
      log := s'.log }) (ht : s'.tasks ⊆ s.tasks) : Alike s s' := by
  rw [h] at ht ⊢
  exact ⟨rfl, rfl, rfl, fun hx => .inl (ht hx)⟩

theorem alike_setWorker {u w : Worker V} (h : s.worker? i = some u) (hi : w.index = i)
    (hj : w.job = u.job) : Alike s { s with workers := setWorker w s.workers } :=
  ⟨rfl, rfl, roster_setWorker (hi ▸ h) hj, .inl⟩

theorem alike_stop (i : Nat) (s : Simulation V) : Alike s (s.stop i) := by
  unfold stop
  split
  · rename_i w hw
    split
    · rename_i spawned _
      have hs : Alike s { s with workers := setWorker { w with spawned } s.workers } :=
        alike_setWorker (w := { w with spawned }) hw (index_of_worker? (w := w) hw) rfl
      exact hs.trans (alike_enqueue nofun)
    · exact .refl s
  · exact .refl s

theorem alike_observe {event : Event V} (h : event.dispatched? = none) (s : Simulation V) :
    Alike s (s.observe event) := by
  cases event with
  | dispatched i => cases h
  | stopped i => exact alike_stop i s
  | deregistered | merged | delivered => exact ⟨rfl, rfl, rfl, .inl⟩

theorem alike_observeAll (h : dispatches events = []) (s : Simulation V) :
    Alike s (events.foldl observe s) := by
  induction events generalizing s with
  | nil => exact .refl s
  | cons event events ih =>
    rw [dispatches, List.filterMap_eq_nil_iff] at h
    have hr : dispatches events = [] :=
      List.filterMap_eq_nil_iff.2 fun ev hx => h ev (List.mem_cons_of_mem _ hx)
    exact (alike_observe (h event (List.mem_cons_self ..)) s).trans (ih hr _)

@[simp] theorem execution_enqueue (t : Task) (s : Simulation V) :
    (s.enqueue t).execution = s.execution := by rw [enqueue_frame]

@[simp] theorem execution_observe (s : Simulation V) (event : Event V) :
    (s.observe event).execution = s.execution := by
  cases event with
  | dispatched i =>
    simp only [observe, call]
    split
    · split <;> simp
    · rfl
  | stopped i => exact (alike_stop i s).execution
  | deregistered | merged | delivered => rfl

@[simp] theorem execution_observeAll (events : List (Event V)) (s : Simulation V) :
    (events.foldl observe s).execution = s.execution := by
  induction events generalizing s with
  | nil => rfl
  | cons event events ih => rw [List.foldl_cons, ih, execution_observe]

@[simp] theorem execution_spawnTask (t : Option Task) (s : Simulation V) :
    (s.spawnTask t).execution = s.execution := by
  cases t with
  | none => rfl
  | some t => exact execution_enqueue t s

/-- The execution stays as it is, or makes a step. -/
def Goes (e e' : Execution V) : Prop := e' = e ∨ ∃ m es, e.step m = some (e', es)

theorem goes_advance (s : Simulation V) : Goes s.execution s.advance.execution := by
  unfold advance
  split
  · rw [execution_observeAll]
    exact .inr ⟨_, _, ‹_›⟩
  · split
    · exact .inl rfl
    · split
      · rw [execution_spawnTask, execution_observeAll]
        exact .inr ⟨_, _, ‹_›⟩
      · exact .inl rfl

theorem goes_resolve (w : Worker V) (s : Simulation V) :
    Goes s.execution (s.resolve w).execution := by
  unfold resolve
  split
  · exact .inl rfl
  · split
    · rw [execution_enqueue]
      exact .inr ⟨_, _, ‹_›⟩
    · exact .inl rfl

theorem goes_work (w : Worker V) (s : Simulation V) : Goes s.execution (s.work w).execution := by
  unfold work
  split
  · exact .inl rfl
  · split
    · exact goes_resolve ..
    · split
      · split
        · exact goes_resolve ..
        · exact .inl rfl
      · split <;> exact .inl rfl

theorem goes_watch (i : Nat) (s : Simulation V) : Goes s.execution (s.watch i).execution := by
  unfold watch
  split
  · exact .inr ⟨_, _, ‹_›⟩
  · split
    · rename_i e es hs
      have he : (if e.driver = .running
          then ({ s with execution := e } : Simulation V).enqueue .driver
          else { s with execution := e }).execution = e := by split <;> simp
      simp only [he]
      exact .inr ⟨_, _, hs⟩
    · exact .inl rfl

theorem goes_drive (s : Simulation V) : Goes s.execution s.drive.execution := by
  unfold drive
  split
  · exact .inr ⟨_, _, ‹_›⟩
  · split
    · rw [execution_observeAll]
      exact .inr ⟨_, _, ‹_›⟩
    · exact .inl rfl

theorem goes_cancel (s : Simulation V) : Goes s.execution s.cancel.execution := by
  unfold cancel
  simp only
  split
  · split
    · rw [execution_observeAll]
      exact .inr ⟨_, _, ‹_›⟩
    · exact .inl rfl
  · split <;> exact .inl rfl

theorem goes_tick (s : Simulation V) : Goes s.execution s.tick.execution := by
  unfold tick
  split
  · exact goes_advance s
  · split
    · unfold started
      simp only
      split
      · rw [execution_enqueue]
        exact .inl rfl
      · exact .inl rfl
    · rename_i t rest _ _ _
      cases t with
      | work i =>
        simp only [runTask]
        split
        · exact goes_work ..
        · exact .inl rfl
      | watcher i => exact goes_watch ..
      | driver => exact goes_drive ..
      | canceller => exact goes_cancel ..
  · rw [wake, enqueueAll_frame]
    exact .inl rfl
  · exact .inl rfl

theorem isCompleted_tick (h : s.execution.isCompleted = true) :
    s.tick.execution.isCompleted = true := by
  rcases goes_tick s with he | ⟨m, es, hs⟩
  · rw [he]
    exact h
  · exact isCompleted_step hs h

/-- The execution got where it is by moves that answer; its jobs end with the answers, and someone
is to cancel it only if `c`. -/
structure Steady (a : Nat → SubResult V) (c : Prop) (e₀ : Execution V) (s : Simulation V) :
    Prop where
  trace : ∃ ms events, Trace Execution.step e₀ ms s.execution events ∧
    Follows Execution.step (Answers a c) e₀ ms ∧ .start ∈ ms ∧
      s.roster.map Prod.fst = dispatches events
  endings : ∀ p ∈ s.roster, p.2.ending = .answer (a p.1)
  jobs : ∀ i q, e₀.subQueries[i]? = some q → (s.jobs q).ending = .answer (a i)
  inside : s.startsInside = true
  cancels : s.cancelAfter.isSome = true → c
  tasks : .canceller ∈ s.tasks → s.cancelAfter.isSome = true

theorem Steady.of_alike (h : Steady a c e₀ s) (ha : Alike s s') : Steady a c e₀ s' := by
  obtain ⟨he, hset, hr, ht⟩ := ha
  have hj : s'.jobs = s.jobs := congrArg Prod.fst hset
  have hi : s'.startsInside = s.startsInside := congrArg (fun p => p.2.1) hset
  have hc := cancelAfter_of_setting hset
  refine ⟨?_, ?_, ?_, hi.trans h.inside, ?_, ?_⟩
  · rw [he, hr]
    exact h.trace
  · rw [hr]
    exact h.endings
  · rw [hj]
    exact h.jobs
  · rw [hc]
    exact h.cancels
  · intro hx
    rw [hc]
    exact (ht hx).elim h.tasks fun hx => hx

theorem inRuntime_of_steady (h : Steady a c e₀ s) : s.inRuntime = true := by
  simp [inRuntime, h.inside]

/-- A step without a dispatch. -/
theorem Steady.moved (h : Steady a c e₀ s) (ha : Answers a c s.execution m)
    (hs : s.execution.step m = some (e, events)) (hd : dispatches events = []) :
    Steady a c e₀ { s with execution := e } := by
  obtain ⟨ms, es, ht, hf, hx, hr⟩ := h.trace
  refine ⟨⟨ms ++ [m], es ++ events, ht.snoc hs, (ht.follows_snoc hs).2 ⟨hf, ha⟩,
    List.mem_append_left _ hx, ?_⟩, h.endings, h.jobs, h.inside, h.cancels, h.tasks⟩
  rw [dispatches_append, hd, List.append_nil]
  exact hr

theorem call_eq {q : Query} (hq : s.subQuery? i = some q) (hi : s.inRuntime = true) :
    s.call i = ({ s with
      workers := s.workers ++ [⟨i, s.jobs q, .spawn, .fresh⟩]
      log := s.log ++ [Entry.called i] } : Simulation V).enqueue (.work i) := by
  simp only [call, hq]
  exact if_pos hi

section

variable {id : ExecutionId} {q : Query} {subs : List Query} {w : Nat} {merger : Merger V}

theorem steady_start {jobs : Query → Job V} {cancelAfter : Option Nat}
    (hj : ∀ i q, subs[i]? = some q → (jobs q).ending = .answer (a i)) :
    Steady a (cancelAfter.isSome = true) (new id q subs w merger)
      (start (new id q subs w merger) jobs true cancelAfter) where
  trace := ⟨[.start], [], .snoc .refl rfl, ⟨trivial, trivial⟩, List.mem_singleton_self _, rfl⟩
  endings := nofun
  jobs := hj
  inside := rfl
  cancels := fun h => h
  tasks := by simp [start, tasks]

/-- A sub query that is passed on is one of the split, and nobody works on it yet. -/
theorem subQuery?_of_dispatched (h : Steady a c (new id q subs w merger) s)
    (hs : s.execution.step m = some (e, [.dispatched i])) :
    ∃ q', subQuery? i { s with execution := e } = some q' ∧ (s.jobs q').ending = .answer (a i) ∧
      i ∉ s.roster.map Prod.fst := by
  obtain ⟨ms, es, ht, hf, hx, hr⟩ := h.trace
  have ht' := ht.snoc hs
  have hl := lined_of_trace ht' (lined_new id q subs w merger)
  have hsubs : e.subQueries = subs := congrArg (fun p => p.2.2.1) (plan_of_trace ht')
  have hm : i ∈ dispatches (es ++ [.dispatched i]) := by simp [dispatches, Event.dispatched?]
  have hi : i < subs.length := hsubs ▸ lt_total_of_mem hl hm
  have hq : subs[i]? = some subs[i] := List.getElem?_eq_getElem hi
  refine ⟨subs[i], ?_, h.jobs i _ hq, ?_⟩
  · rw [subQuery?, hsubs, hq]
  · rw [hr]
    intro hm
    have hn := dispatches_nodup hl
    rw [dispatches_append] at hn
    exact (List.nodup_append.1 hn).2.2 i hm i (List.mem_singleton_self i) rfl

theorem steady_dispatched (h : Steady a c (new id q subs w merger) s)
    (hs : s.execution.step .resume = some (e, [.dispatched i])) :
    Steady a c (new id q subs w merger) (call i { s with execution := e }) := by
  obtain ⟨q', hq, hj, -⟩ := subQuery?_of_dispatched h hs
  obtain ⟨ms, es, ht, hf, hx, hr⟩ := h.trace
  have hi : ({ s with execution := e } : Simulation V).inRuntime = true :=
    (inRuntime_of_steady h : s.inRuntime = true)
  have hroster : (s.workers ++ [(⟨i, s.jobs q', .spawn, .fresh⟩ : Worker V)]).map
      (fun w => (w.index, w.job)) = s.roster ++ [(i, s.jobs q')] := List.map_append
  rw [call_eq hq hi]
  refine Steady.of_alike ?_ (alike_enqueue nofun)
  refine ⟨⟨ms ++ [.resume], es ++ [.dispatched i], ht.snoc hs,
    (ht.follows_snoc hs).2 ⟨hf, trivial⟩, List.mem_append_left _ hx, ?_⟩, ?_, h.jobs, h.inside,
    h.cancels, h.tasks⟩
  · rw [roster, hroster, List.map_append, hr, dispatches_append]
    rfl
  · rw [roster, hroster]
    intro p hp
    rcases List.mem_append.1 hp with hp | hp
    · exact h.endings p hp
    · rw [List.mem_singleton.1 hp]
      exact hj

/-- Whatever the execution does outside, the simulation follows it. -/
theorem steady_observed (h : Steady a c (new id q subs w merger) s)
    (ha : Answers a c s.execution m) (hs : s.execution.step m = some (e, events)) :
    Steady a c (new id q subs w merger) (events.foldl observe { s with execution := e }) := by
  rcases dispatches_step hs with hd | ⟨rfl, hd⟩
  · exact (h.moved ha hs hd).of_alike (alike_observeAll hd _)
  · by_cases hd : dispatches events = []
    · exact (h.moved ha hs hd).of_alike (alike_observeAll hd _)
    · cases transition_of_step hs with
      | launch hc hx => exact steady_dispatched h hs
      | fill | skip | combine | stop => exact (hd rfl).elim

/-- Workers whose work is not over have not been told to stop. -/
def Unstopped (s : Simulation V) : Prop :=
  ∀ i w, s.worker? i = some w → w.phase ≠ .finished → w.spawned = .spawn

theorem steady_resolve {u : Worker V} (h : Steady a c (new id q subs w merger) s)
    (hr : ∀ r, u.spawned.handle.result? = some r →
      s.execution.isCompleted = true ∨ r = a u.index) :
    Steady a c (new id q subs w merger) (s.resolve u) := by
  unfold resolve
  split
  · exact h
  · rename_i r hu
    split
    · rename_i e es hs
      have hd : dispatches es = [] := by
        cases transition_of_step hs with
        | resolve => rfl
      exact (h.moved (m := .resolve u.index r) (hr r hu) hs hd).of_alike (alike_enqueue nofun)
    · exact h

theorem steady_finish {u : Worker V} {spawned : SpawnedWork V}
    (h : Steady a c (new id q subs w merger) s) (hu : s.worker? i = some u)
    (hr : ∀ r, spawned.handle.result? = some r →
      s.execution.isCompleted = true ∨ r = a u.index) :
    Steady a c (new id q subs w merger) (s.finish u spawned) :=
  steady_resolve (u := { u with spawned, phase := .finished })
    (h.of_alike (alike_setWorker hu (index_of_worker? (w := u) hu) rfl)) hr

theorem mem_roster_of_worker? {u : Worker V} (h : s.worker? i = some u) : (i, u.job) ∈ s.roster :=
  List.mem_map.2 ⟨u, List.mem_of_find?_eq_some h, by rw [index_of_worker? h]⟩

/-- Work that ends with an answer is reported with it. -/
theorem result?_of_report {r : SubResult V} {spawned : SpawnedWork V}
    (h : (SpawnedWork.spawn.step (.finish (.answer r))).bind (·.step .report) = some spawned) :
    spawned.handle.result? = some r := by
  cases h
  rfl

theorem steady_work {u : Worker V} (h : Steady a c (new id q subs w merger) s)
    (hu : s.worker? i = some u) (hx : s.execution.isCompleted = false → s.Unstopped) :
    Steady a c (new id q subs w merger) (s.work u) := by
  have hi := index_of_worker? hu
  have hend := h.endings _ (mem_roster_of_worker? hu)
  unfold work
  split
  · exact h
  · rename_i hp
    have hspawn (hd : s.execution.isCompleted ≠ true) : u.spawned = .spawn :=
      hx (Bool.eq_false_iff.2 hd) i u hu hp
    split
    · rename_i spawned hq
      apply steady_finish h hu
      intro r _
      by_contra hn
      rw [hspawn (fun hd => hn (.inl hd))] at hq
      cases hq
    · split
      · split
        · rename_i spawned hq
          have hlog : Alike s { s with log := s.log ++ [.finished u.index] } :=
            alike_of_tasks rfl (List.Subset.refl _)
          apply steady_finish (h.of_alike hlog) hu
          intro r hr
          by_cases hd : s.execution.isCompleted = true
          · exact .inl hd
          · right
            rw [hspawn hd, hend] at hq
            rw [result?_of_report hq, Option.some.injEq] at hr
            rw [hi, hr]
        · exact h
      · split
        · have hset : Alike s { s with
              workers := setWorker { u with phase := .asleep (s.now + u.job.delay) } s.workers } :=
            alike_setWorker hu hi rfl
          exact h.of_alike (hset.trans (alike_sleep (by nofun) _))
        · exact h

theorem steady_watch (h : Steady a c (new id q subs w merger) s) (i : Nat) :
    Steady a c (new id q subs w merger) (s.watch i) := by
  unfold watch
  split
  · rename_i e es hs
    apply h.moved (m := .retire i) trivial hs
    cases transition_of_step hs with
    | retire => rfl
  · split
    · rename_i e es hs
      have hd : dispatches es = [] := by
        cases transition_of_step hs with
        | forward => rfl
      have hm := h.moved (m := .forward i) trivial hs hd
      simp only
      split
      · exact hm.of_alike (alike_enqueue nofun)
      · exact hm
    · exact h

theorem steady_drive (h : Steady a c (new id q subs w merger) s) :
    Steady a c (new id q subs w merger) s.drive := by
  unfold drive
  split
  · rename_i e es hs
    apply h.moved (m := .halt) trivial hs
    cases transition_of_step hs with
    | halt => rfl
  · split
    · rename_i e es hs
      have hq : Alike s { s with queue := .driver :: s.queue } :=
        ⟨rfl, rfl, rfl, fun hx => .inl (by simpa [tasks] using hx)⟩
      exact steady_observed (m := .receive) (h.of_alike hq) trivial hs
    · exact h

theorem steady_cancel (h : Steady a c (new id q subs w merger) s)
    (hx : s.cancelAfter.isSome = true) : Steady a c (new id q subs w merger) s.cancel := by
  unfold cancel
  simp only
  split
  · split
    · rename_i e es hs
      have hc : Alike s { s with canceller := .finished } :=
        alike_of_tasks rfl (List.Subset.refl _)
      exact steady_observed (m := .cancel) (h.of_alike hc) (h.cancels hx) hs
    · exact h
  · split
    · have hc : Alike s { s with canceller := .asleep (s.now +
          min (s.cancelAfter.getD 0) longestSleep) } := alike_of_tasks rfl (List.Subset.refl _)
      exact h.of_alike (hc.trans (alike_sleep (by exact fun _ => hx) _))
    · exact h

theorem steady_started (h : Steady a c (new id q subs w merger) s) :
    Steady a c (new id q subs w merger) s.started := by
  have hs : Alike s { s with isStarting := false } := alike_of_tasks rfl (List.Subset.refl _)
  unfold started
  simp only
  split
  · rename_i hx
    exact h.of_alike (hs.trans (alike_enqueue fun _ => hx))
  · exact h.of_alike hs

theorem answers_of_returning {t : Option Task} (hi : s.inRuntime = true)
    (h : s.returning = some (m, t)) : Answers a c s.execution m ∧ t ≠ some .canceller := by
  unfold returning at h
  split at h
  · cases h
    refine ⟨fun _ _ _ => .inl ?_, nofun⟩
    rw [handed, if_pos hi]
  · rename_i rs st hc
    cases h
    refine ⟨fun rs' st' hc' => ?_, nofun⟩
    obtain ⟨hf, -⟩ := List.cons.inj (hc.symm.trans hc')
    cases hf
    rfl
  · cases h
    exact ⟨trivial, nofun⟩
  · cases h

theorem alike_spawnTask {t : Option Task} (h : t ≠ some .canceller) : Alike s (s.spawnTask t) := by
  cases t with
  | none => exact .refl s
  | some t => exact alike_enqueue fun ht => (h (congrArg some ht)).elim

theorem steady_advance (h : Steady a c (new id q subs w merger) s) :
    Steady a c (new id q subs w merger) s.advance := by
  unfold advance
  split
  · exact steady_observed (m := .resume) h trivial ‹_›
  · split
    · exact h
    · rename_i m t hm
      obtain ⟨ha, ht⟩ := answers_of_returning (a := a) (c := c) (inRuntime_of_steady h) hm
      split
      · exact (steady_observed h ha ‹_›).of_alike (alike_spawnTask ht)
      · exact h

theorem alike_wake (time : Nat) (s : Simulation V) : Alike s (s.wake time) := by
  rw [wake, enqueueAll_frame]
  refine ⟨rfl, rfl, rfl, fun hx => .inl ?_⟩
  rcases List.mem_append.1 hx with hx | hx
  · rcases mem_queue_enqueueAll.1 hx with hx | hx
    · exact List.mem_append_left _ hx
    · exact List.mem_append_right _ ((List.takeWhile_sublist _).map Prod.snd |>.subset hx)
  · exact List.mem_append_right _ ((List.dropWhile_sublist _).map Prod.snd |>.subset hx)

theorem steady_tick (h : Steady a c (new id q subs w merger) s)
    (hx : s.execution.isCompleted = false → s.Unstopped) :
    Steady a c (new id q subs w merger) s.tick := by
  unfold tick
  split
  · exact steady_advance h
  · rename_i t rest hc hq
    split
    · exact steady_started h
    · have hr : Steady a c (new id q subs w merger) { s with queue := rest } := by
        apply h.of_alike (alike_of_tasks rfl _)
        simp [tasks, hq]
      cases t with
      | work i =>
        simp only [runTask]
        split
        · exact steady_work hr ‹_› hx
        · exact hr
      | watcher i => exact steady_watch hr i
      | driver => exact steady_drive hr
      | canceller =>
        apply steady_cancel hr
        apply h.tasks
        simp [tasks, hq]
  · exact h.of_alike (alike_wake _ s)
  · exact h

end

end ScatterGather.Simulation
