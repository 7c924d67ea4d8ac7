import ScatterGather.Proofs.Handle
import ScatterGather.Proofs.Simulation

/-! Spawned work resolves its handle once: with its own answer or, after a cancellation, as
unfinished. -/
namespace ScatterGather

variable {V : Type}

namespace SpawnedWork

variable {s s' s₁ : SpawnedWork V} {m : Move V} {ms ns : List (Move V)}

/-- Whether a move is a step of the task. -/
def Move.isTask : Move V → Bool
  | .quit => true
  | .report => true
  | _ => false

/-- What can be read off spawned work about the moves that it has made. The task is there as long as
the handle is unresolved. -/
structure Recalls (ms : List (Move V)) (s : SpawnedWork V) : Prop where
  cancelled : s.handle.isCancelled = true ↔ .cancel ∈ ms
  work : ∀ e, s.work = some e ↔ .finish e ∈ ms
  alive : s.isAlive = true ↔ s.handle.completer = .pending
  used : ∀ r, s.handle.completer = .used r → .finish (.answer r) ∈ ms
  dropped : s.handle.completer = .dropped → .cancel ∈ ms ∨ .finish .panic ∈ ms

theorem recalls_spawn : Recalls (V := V) [] .spawn := by
  constructor <;> simp [spawn, Handle.channel]

theorem complete_eq (r : Except QueryError V) (h : s.handle.completer = .pending) :
    s.complete r =
      { s with handle := { s.handle with completer := .used r }, isAlive := false } := by
  simp [complete, Handle.complete, h]

theorem abandon_eq (h : s.handle.completer = .pending) :
    s.abandon =
      { s with handle := { s.handle with completer := .dropped }, isAlive := false } := by
  simp [abandon, Handle.dropCompleter, h]

/-- The task goes, and its completer with it. -/
theorem recalls_abandon (h : Recalls ms s) (ha : s.isAlive = true) (hm : m.isTask = true)
    (hw : .cancel ∈ ms ∨ .finish .panic ∈ ms) : Recalls (ms ++ [m]) s.abandon := by
  rw [abandon_eq (h.alive.1 ha)]
  cases m with
  | quit | report => constructor <;> simp [h.cancelled, h.work, hw]
  | cancel | finish => cases hm

theorem recalls_complete {r : Except QueryError V} (h : Recalls ms s) (ha : s.isAlive = true)
    (hw : .finish (.answer r) ∈ ms) : Recalls (ms ++ [.report]) (s.complete r) := by
  rw [complete_eq r (h.alive.1 ha)]
  constructor <;> simp [h.cancelled, h.work, hw]

theorem recalls_step (h : Recalls ms s) (hs : s.step m = some s') : Recalls (ms ++ [m]) s' := by
  cases m with
  | cancel =>
    cases hs
    constructor
    · simp [Handle.cancel]
    · simp [h.work]
    · exact h.alive
    · intro r hr
      exact List.mem_append_left _ (h.used r hr)
    · exact fun _ => .inl (by simp)
  | finish e =>
    obtain ⟨⟨ha, hn⟩, ht⟩ := Option.ite_none_right_eq_some.1 hs
    cases ht
    have hnone (e' : WorkEnd V) : .finish e' ∉ ms := by
      rw [← h.work, Option.isNone_iff_eq_none.1 hn]
      simp
    have hp := h.alive.1 ha
    constructor
    · simp [h.cancelled]
    · simp [hnone, eq_comm]
    · exact h.alive
    · simp [hp]
    · simp [hp]
  | quit =>
    obtain ⟨⟨ha, hc⟩, ht⟩ := Option.ite_none_right_eq_some.1 hs
    cases ht
    exact recalls_abandon h ha rfl (.inl (h.cancelled.1 hc))
  | report =>
    simp only [step] at hs
    split at hs
    · rename_i r ha hw
      cases hs
      exact recalls_complete h ha ((h.work _).1 hw)
    · rename_i ha hw
      cases hs
      exact recalls_abandon h ha rfl (.inr ((h.work _).1 hw))
    · cases hs

theorem recalls_run (h : Recalls ms s) (hr : s.run ns = some s') : Recalls (ms ++ ns) s' := by
  induction ns generalizing ms s with
  | nil =>
    cases hr
    simpa using h
  | cons m ns ih =>
    obtain ⟨s₁, hs, hr'⟩ := Option.bind_eq_some_iff.1 hr
    simpa using ih (recalls_step h hs) hr'

theorem run_append (s : SpawnedWork V) (ms ns : List (Move V)) :
    s.run (ms ++ ns) = (s.run ms).bind fun s => s.run ns := by
  induction ms generalizing s with
  | nil => rfl
  | cons m ms ih =>
    simp only [List.cons_append, run, ih, Option.bind_assoc]

/-- Spawned work after some moves. -/
def Reached (s : SpawnedWork V) : Prop := ∃ ms, spawn.run ms = some s

theorem Reached.spawn : Reached (V := V) .spawn := ⟨[], rfl⟩

theorem Reached.step (h : Reached s) (hs : s.step m = some s') : Reached s' := by
  obtain ⟨ms, hr⟩ := h
  exact ⟨ms ++ [m], by simp [run_append, hr, run, hs]⟩

theorem result?_eq_none : s.handle.result? = none ↔ s.handle.completer = .pending := by
  cases hc : s.handle.completer <;> simp [Handle.result?, hc]

/-- A task that is gone has left a result, and nothing but cancellations can follow. -/
theorem Recalls.resolved (h : Recalls ms s) (ha : s.isAlive = false) :
    ∃ r, s.handle.result? = some r := by
  refine Option.ne_none_iff_exists'.1 fun hx => ?_
  rw [h.alive.2 (result?_eq_none.1 hx)] at ha
  cases ha

theorem result?_step {r : Except QueryError V} (h : Recalls ms s) (hs : s.step m = some s')
    (hr : s.handle.result? = some r) : s'.handle.result? = some r := by
  have ha : s.isAlive = false := by
    rw [Bool.eq_false_iff, ne_eq, h.alive, ← result?_eq_none, hr]
    nofun
  cases m with
  | cancel =>
    cases hs
    exact hr
  | finish | quit => simp [step, ha] at hs
  | report => simp [step, ha] at hs

theorem result?_run {r : Except QueryError V} (h : Recalls ms s) (hr : s.run ns = some s')
    (hx : s.handle.result? = some r) : s'.handle.result? = some r := by
  induction ns generalizing ms s with
  | nil =>
    cases hr
    exact hx
  | cons m ns ih =>
    obtain ⟨s₁, hs, hr'⟩ := Option.bind_eq_some_iff.1 hr
    exact ih (recalls_step h hs) hr' (result?_step h hs hx)

/-- Where a result comes from. -/
theorem Recalls.source {r : Except QueryError V} (h : Recalls ms s)
    (hr : s.handle.result? = some r) :
    .finish (.answer r) ∈ ms ∨ (.cancel ∈ ms ∨ .finish .panic ∈ ms) ∧ r = .error .unfinished := by
  cases hc : s.handle.completer with
  | pending =>
    rw [result?_eq_none.2 hc] at hr
    cases hr
  | used r' =>
    obtain rfl : r' = r := by simpa [Handle.result?, hc] using hr
    exact .inl (h.used r' hc)
  | dropped =>
    obtain rfl : .error .unfinished = r := by simpa [Handle.result?, hc] using hr
    exact .inr ⟨h.dropped hc, rfl⟩

/-- A task that is there sees a cancellation and the end of its work, and may go by either. -/
theorem Recalls.sees (h : Recalls ms s) (ha : s.isAlive = true) :
    (.cancel ∈ ms → (s.step .quit).isSome = true) ∧
      ((∃ e, .finish e ∈ ms) → (s.step .report).isSome = true) := by
  constructor
  · intro hc
    simp [step, ha, h.cancelled.2 hc]
  · rintro ⟨e, he⟩
    cases e with
    | answer r => simp [step, ha, (h.work _).2 he]
    | panic => simp [step, ha, (h.work _).2 he]

/-- The first step of the task that sees anything is its last. -/
theorem isAlive_of_task (hm : m.isTask = true) (hs : s.step m = some s') : s'.isAlive = false := by
  cases m with
  | quit =>
    obtain ⟨-, ht⟩ := Option.ite_none_right_eq_some.1 hs
    cases ht
    rfl
  | report =>
    simp only [step] at hs
    split at hs
    · cases hs
      rfl
    · cases hs
      rfl
    · cases hs
  | cancel | finish => cases hm

theorem Recalls.isAlive_of_rest (h : Recalls ms s) (hq : s.isRunnable = false)
    (hw : .cancel ∈ ms ∨ ∃ e, .finish e ∈ ms) : s.isAlive = false := by
  have hsee : (s.handle.isCancelled || s.work.isSome) = true := by
    rcases hw with hc | ⟨e, he⟩
    · simp [h.cancelled.2 hc]
    · simp [(h.work e).2 he]
  simpa [isRunnable, hsee] using hq

/-- Work that does not panic resolves its handle at most once: with its answer or, after a
cancellation only, as unfinished. A handle that is never cancelled gets the answer. Once it is
cancelled or the work has ended, the task can go, by either if there are both. Its first step then
resolves the handle, and when it has no step to make it is gone.

Outside a runtime no work is called, and the handle comes back resolved. -/
theorem resolves_once (h : spawn.run ms = some s) (hp : .finish .panic ∉ ms) :
    (∀ before after s₁ r, ms = before ++ after → spawn.run before = some s₁ →
      s₁.handle.result? = some r → s.handle.result? = some r) ∧
    (∀ r, s.handle.result? = some r →
      .finish (.answer r) ∈ ms ∨ .cancel ∈ ms ∧ r = .error .unfinished) ∧
    (∀ r, .cancel ∉ ms → .finish (.answer r) ∈ ms → s.isRunnable = false →
      s.handle.result? = some r) ∧
    (s.isRunnable = false → (.cancel ∈ ms ∨ ∃ e, .finish e ∈ ms) →
      (∃ r, s.handle.result? = some r) ∧ s.isAlive = false) ∧
    (s.isAlive = true →
      (.cancel ∈ ms → (s.step .quit).isSome = true) ∧
      ((∃ e, .finish e ∈ ms) → (s.step .report).isSome = true)) ∧
    (∀ m s', m.isTask = true → s.step m = some s' →
      (∃ r, s'.handle.result? = some r) ∧ s'.isAlive = false) ∧
    ∀ (sim : Simulation V) i q, sim.subQuery? i = some q →
      (sim.inRuntime = true → sim.handed i = none ∧
        (sim.observe (.dispatched i)).workers = sim.workers ++ [⟨i, sim.jobs q, spawn, .fresh⟩] ∧
        (sim.observe (.dispatched i)).log = sim.log ++ [.called i] ∧
        .work i ∈ (sim.observe (.dispatched i)).queue) ∧
      (sim.inRuntime = false → sim.handed i = some (.error (noRuntime q)) ∧
        sim.observe (.dispatched i) = sim) := by
  have hs : Recalls ms s := recalls_run recalls_spawn h
  have hsource (r : Except QueryError V) (hr : s.handle.result? = some r) :
      .finish (.answer r) ∈ ms ∨ .cancel ∈ ms ∧ r = .error .unfinished :=
    (hs.source hr).imp_right fun hx => ⟨hx.1.resolve_right hp, hx.2⟩
  refine ⟨?_, hsource, ?_, ?_, hs.sees, ?_, fun sim i q hq => ⟨?_, ?_⟩⟩
  · rintro before after s₁ r rfl hb hr
    rw [run_append, hb] at h
    exact result?_run (recalls_run recalls_spawn hb) h hr
  · intro r hc hf hq
    obtain ⟨r', hr'⟩ := hs.resolved (hs.isAlive_of_rest hq (.inr ⟨_, hf⟩))
    have hf' := (hsource r' hr').resolve_right fun hx => hc hx.1
    have hsame := ((hs.work _).2 hf).symm.trans ((hs.work _).2 hf')
    cases hsame
    exact hr'
  · intro hq hw
    have ha := hs.isAlive_of_rest hq hw
    exact ⟨hs.resolved ha, ha⟩
  · intro m s' hm ht
    have ha := isAlive_of_task hm ht
    exact ⟨(recalls_step hs ht).resolved ha, ha⟩
  · intro hi
    have hcall : sim.observe (.dispatched i) = _ := Simulation.call_eq hq hi
    rw [hcall]
    refine ⟨by simp [Simulation.handed, hi], ?_, ?_, Simulation.mem_queue_enqueue.2 (.inr rfl)⟩
    · rw [Simulation.enqueue_frame]
    · rw [Simulation.enqueue_frame]
  · intro hi
    simp [Simulation.handed, Simulation.observe, Simulation.call, hi, hq]

/-- Cancelled when the work has just ended; the task sees the cancellation. -/
def overtaken : List (Move Nat) := [.finish (.answer (.ok 3)), .cancel, .quit]

/-- The task sees that the work has ended. -/
def inTime : List (Move Nat) := [.finish (.answer (.ok 3)), .cancel, .report]

theorem resolves_once_tie :
    (∃ s, spawn.run overtaken = some s ∧ s.isAlive = false ∧
      s.handle.result? = some (.error .unfinished)) ∧
    ∃ s, spawn.run inTime = some s ∧ s.isAlive = false ∧ s.handle.result? = some (.ok 3) := by
  constructor
  · obtain ⟨s, hr, hx, hq⟩ : ∃ s, spawn.run overtaken = some s ∧
        s.handle.result? ≠ some (.ok 3) ∧ s.isRunnable = false := ⟨_, rfl, nofun, rfl⟩
    have hp : .finish .panic ∉ overtaken := by simp [overtaken]
    obtain ⟨-, hsource, -, hrest, -⟩ := resolves_once hr hp
    obtain ⟨⟨r, hs⟩, ha⟩ := hrest hq (.inl (by simp [overtaken]))
    refine ⟨s, hr, ha, ?_⟩
    rcases hsource r hs with hf | ⟨-, rfl⟩
    · obtain rfl : r = .ok 3 := by simpa [overtaken] using hf
      exact (hx hs).elim
    · exact hs
  · obtain ⟨s, hr, hx, hq⟩ : ∃ s, spawn.run inTime = some s ∧
        s.handle.result? ≠ some (.error .unfinished) ∧ s.isRunnable = false := ⟨_, rfl, nofun, rfl⟩
    have hp : .finish .panic ∉ inTime := by simp [inTime]
    obtain ⟨-, hsource, -, hrest, -⟩ := resolves_once hr hp
    obtain ⟨⟨r, hs⟩, ha⟩ := hrest hq (.inl (by simp [inTime]))
    refine ⟨s, hr, ha, ?_⟩
    rcases hsource r hs with hf | ⟨-, rfl⟩
    · obtain rfl : r = .ok 3 := by simpa [inTime] using hf
      exact hs
    · exact (hx hs).elim

end SpawnedWork

namespace Simulation

open SpawnedWork (Reached)

variable {s s' : Simulation V} {w : Worker V}

/-- All spawned work has come about by moves of its own. -/
def Spawns (s : Simulation V) : Prop := ∀ w ∈ s.workers, Reached w.spawned

theorem Spawns.of_workers (h : Spawns s) (hw : s'.workers = s.workers) : Spawns s' := by
  rw [Spawns, hw]
  exact h

theorem mem_setWorker {v : Worker V} {l : List (Worker V)} (h : v ∈ setWorker w l) :
    v = w ∨ v ∈ l := by
  induction l with
  | nil => cases h
  | cons u l ih =>
    unfold setWorker at h
    split at h
    · exact (List.mem_cons.1 h).imp_right (List.mem_cons_of_mem _)
    · rcases List.mem_cons.1 h with rfl | h
      · exact .inr (List.mem_cons_self ..)
      · exact (ih h).imp_right (List.mem_cons_of_mem _)

theorem Spawns.setWorker (h : Spawns s) (hw : Reached w.spawned)
    (hs : s'.workers = setWorker w s.workers) : Spawns s' := by
  intro v hv
  rw [hs] at hv
  rcases mem_setWorker hv with rfl | hv
  · exact hw
  · exact h v hv

theorem workers_enqueue (t : Task) (s : Simulation V) : (s.enqueue t).workers = s.workers := by
  rw [enqueue_frame]

theorem spawns_observe (h : Spawns s) (event : Event V) : Spawns (s.observe event) := by
  cases event with
  | dispatched i =>
    simp only [observe, call]
    split
    · split
      · refine Spawns.of_workers ?_ (workers_enqueue ..)
        intro v hv
        rcases List.mem_append.1 hv with hv | hv
        · exact h v hv
        · rw [List.mem_singleton.1 hv]
          exact .spawn
      · exact h
    · exact h
  | stopped i =>
    simp only [observe, stop]
    split
    · rename_i w hw
      split
      · rename_i spawned hs
        refine Spawns.of_workers ?_ (workers_enqueue ..)
        exact h.setWorker ((h w (List.mem_of_find?_eq_some hw)).step hs) rfl
      · exact h
    · exact h
  | merged | deregistered | delivered => exact h

theorem spawns_observeAll (h : Spawns s) (events : List (Event V)) :
    Spawns (events.foldl observe s) :=
  List.foldlRecOn events observe h fun _ hs event _ => spawns_observe hs event

theorem workers_resolve (w : Worker V) (s : Simulation V) :
    (s.resolve w).workers = s.workers := by
  unfold resolve
  split
  · rfl
  · split
    · rw [workers_enqueue]
    · rfl

theorem spawns_finish {spawned : SpawnedWork V} (h : Spawns s) (hs : Reached spawned)
    (w : Worker V) : Spawns (s.finish w spawned) := by
  unfold finish
  refine Spawns.of_workers ?_ (workers_resolve ..)
  exact h.setWorker (w := { w with spawned, phase := .finished }) hs rfl

theorem spawns_work (h : Spawns s) (hw : Reached w.spawned) : Spawns (s.work w) := by
  unfold work
  split
  · exact h
  · split
    · rename_i spawned hs
      exact spawns_finish h (hw.step hs) w
    · split
      · split
        · rename_i spawned hs
          obtain ⟨s₁, hf, hr⟩ := Option.bind_eq_some_iff.1 hs
          apply spawns_finish
          · exact h
          · exact (hw.step hf).step hr
        · exact h
      · split
        · exact h.setWorker (w := { w with phase := .asleep (s.now + w.job.delay) }) hw rfl
        · exact h

theorem spawns_spawnTask (h : Spawns s) (t : Option Task) : Spawns (s.spawnTask t) := by
  cases t with
  | none => exact h
  | some t => exact h.of_workers (workers_enqueue t s)

theorem spawns_advance (h : Spawns s) : Spawns s.advance := by
  unfold advance
  split
  · apply spawns_observeAll
    exact h
  · split
    · exact h
    · split
      · apply spawns_spawnTask
        apply spawns_observeAll
        exact h
      · exact h

theorem spawns_watch (h : Spawns s) (i : Nat) : Spawns (s.watch i) := by
  unfold watch
  split
  · exact h
  · split
    · simp only
      split
      · exact h.of_workers (by rw [workers_enqueue])
      · exact h
    · exact h

theorem spawns_drive (h : Spawns s) : Spawns s.drive := by
  unfold drive
  split
  · exact h
  · split
    · apply spawns_observeAll
      exact h
    · exact h

theorem spawns_cancel (h : Spawns s) : Spawns s.cancel := by
  unfold cancel
  simp only
  split
  · split
    · apply spawns_observeAll
      exact h
    · exact h
  · split
    · exact h
    · exact h

theorem spawns_runTask (h : Spawns s) (t : Task) : Spawns (s.runTask t) := by
  cases t with
  | work i =>
    simp only [runTask]
    split
    · rename_i w hw
      exact spawns_work h (h w (List.mem_of_find?_eq_some hw))
    · exact h
  | watcher i => exact spawns_watch h i
  | driver => exact spawns_drive h
  | canceller => exact spawns_cancel h

theorem spawns_tick (h : Spawns s) : Spawns s.tick := by
  unfold tick
  split
  · exact spawns_advance h
  · split
    · unfold started
      simp only
      split
      · exact h.of_workers (by rw [workers_enqueue])
      · exact h
    · apply spawns_runTask
      exact h
  · exact h.of_workers (by rw [wake, enqueueAll_frame])
  · exact h

/-- Time and tasks do with spawned work what it can do by itself. -/
theorem spawned_of_run (e : Execution V) (jobs : Query → Job V) (startsInside : Bool)
    (cancelAfter : Option Nat) : Spawns (start e jobs startsInside cancelAfter).run :=
  (run_induction (fun _ _ h => spawns_tick h) (by simp [Spawns, start])).1

end Simulation
end ScatterGather
