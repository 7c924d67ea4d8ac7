import ScatterGather.Proofs.Simulation

/-! Nothing that a simulated execution waits for is forgotten: its work, its watchers and its driver
are due as long as they have something to do. So it is over only with an outcome. -/
namespace ScatterGather

open Execution

variable {V : Type}

/-- Whether a sub query is being dispatched, or its handle watched and unresolved. -/
def Execution.Awaits (e : Execution V) (i : Nat) : Prop :=
  i ∈ underway e.calls ∨ ∃ w ∈ e.watchers, w.index = i ∧ w.result = none

namespace Simulation

variable {a : Nat → SubResult V} {c : Prop} {e : Execution V} {s s' : Simulation V}
  {due due' : List Task} {i j : Nat}

/-- The work of a sub query is not over, and its task is due or will be. -/
def Working (due : List Task) (s : Simulation V) (i : Nat) : Prop :=
  ∃ w, s.worker? i = some w ∧
    match w.phase with
    | .fresh => .work i ∈ due
    | .asleep t => t ≤ s.now ∧ .work i ∈ due ∨ (t, .work i) ∈ s.timers
    | .finished => False

/-- Every task with something to do is in `due`, or will be. -/
structure Ready (due : List Task) (s : Simulation V) : Prop where
  unstopped : s.Unstopped
  working : ∀ i, s.execution.Awaits i → Working due s i
  resolved : ∀ w ∈ s.execution.watchers, w.result ≠ none → .watcher w.index ∈ due
  inbox : s.execution.inbox ≠ [] → .driver ∈ due

theorem Working.mono (h : Working due s i) (hw : s'.worker? i = s.worker? i)
    (hn : s.now ≤ s'.now) (hd : .work i ∈ due → .work i ∈ due')
    (ht : ∀ t, (t, .work i) ∈ s.timers →
      t ≤ s'.now ∧ .work i ∈ due' ∨ (t, .work i) ∈ s'.timers) : Working due' s' i := by
  obtain ⟨w, hx, hp⟩ := h
  refine ⟨w, hw.trans hx, ?_⟩
  cases hph : w.phase with
  | fresh =>
    rw [hph] at hp
    exact hd hp
  | asleep t =>
    rw [hph] at hp
    rcases hp with ⟨hle, hm⟩ | hm
    · exact .inl ⟨Nat.le_trans hle hn, hd hm⟩
    · exact ht t hm
  | finished =>
    rw [hph] at hp
    exact hp

/-- More tasks are due, and the execution is the same. -/
theorem Ready.mono (h : Ready due s) (he : s'.execution = s.execution)
    (hw : s'.workers = s.workers) (hn : s.now ≤ s'.now) (hd : due ⊆ due')
    (ht : ∀ t i, (t, .work i) ∈ s.timers →
      t ≤ s'.now ∧ .work i ∈ due' ∨ (t, .work i) ∈ s'.timers) : Ready due' s' := by
  have hx : ∀ i, s'.worker? i = s.worker? i := by
    intro i
    rw [worker?, hw, worker?]
  refine ⟨?_, ?_, ?_, ?_⟩
  · intro i w
    rw [hx]
    exact h.unstopped i w
  · intro i hi
    rw [he] at hi
    exact (h.working i hi).mono (hx i) hn (fun hm => hd hm) fun t => ht t i
  · intro w hm hr
    rw [he] at hm
    exact hd (h.resolved w hm hr)
  · intro hi
    rw [he] at hi
    exact hd (h.inbox hi)

theorem Ready.enqueue {t : Task} (h : Ready (t :: s.queue) s) :
    Ready (s.enqueue t).queue (s.enqueue t) := by
  have hq : t :: s.queue ⊆ (s.enqueue t).queue := by
    intro u hu
    rw [mem_queue_enqueue]
    exact (List.mem_cons.1 hu).symm
  rw [enqueue_frame] at hq ⊢
  exact h.mono rfl rfl (Nat.le_refl _) hq fun t i hm => .inr hm

theorem Ready.later (h : Ready due s) (hd : due ⊆ due') : Ready due' s :=
  h.mono rfl rfl (Nat.le_refl _) hd fun _ _ hm => .inr hm

theorem Ready.sleep (h : Ready due s) (delay : Nat) (t : Task) : Ready due (s.sleep delay t) :=
  h.mono rfl rfl (Nat.le_refl _) (List.Subset.refl _) fun _ _ hm => .inr (mem_addTimer.2 (.inr hm))

/-- The execution moves on and still awaits the same. -/
theorem Ready.moved (h : Ready due s) (hu : underway e.calls = underway s.execution.calls)
    (ht : e.shared = s.execution.shared) : Ready due { s with execution := e } := by
  simp only [shared, Prod.mk.injEq] at ht
  obtain ⟨-, hi, hw, -⟩ := ht
  refine ⟨h.unstopped, ?_, ?_, ?_⟩
  · intro i hx
    apply h.working i
    rwa [Awaits, hu, hw] at hx
  · intro w hm
    change w ∈ e.watchers at hm
    rw [hw] at hm
    exact h.resolved w hm
  · intro hx
    change e.inbox ≠ [] at hx
    rw [hi] at hx
    exact h.inbox hx

/-- The work of one sub query moves on. All other work is left as it is. -/
theorem Ready.progress (h : Ready due s) (i : Nat) (hw : ∀ j ≠ i, s'.worker? j = s.worker? j)
    (hu : ∀ w, s'.worker? i = some w → w.phase ≠ .finished → w.spawned = .spawn)
    (hn : s'.now = s.now) (hd : ∀ t ∈ due, t ≠ .work i → t ∈ due') (ht : s.timers ⊆ s'.timers)
    (ha : ∀ j, s'.execution.Awaits j → j ≠ i ∧ s.execution.Awaits j ∨ j = i ∧ Working due' s' i)
    (hr : ∀ w ∈ s'.execution.watchers, w.result ≠ none →
      w ∈ s.execution.watchers ∨ .watcher w.index ∈ due')
    (hx : s'.execution.inbox = s.execution.inbox) : Ready due' s' := by
  refine ⟨?_, ?_, ?_, ?_⟩
  · intro j u hj hp
    by_cases hij : j = i
    · subst hij
      exact hu u hj hp
    · exact h.unstopped j u (hw j hij ▸ hj) hp
  · intro j hj
    rcases ha j hj with ⟨hij, hj⟩ | ⟨rfl, hj⟩
    · apply (h.working j hj).mono (hw j hij) (Nat.le_of_eq hn.symm)
      · exact fun hm => hd _ hm fun hx => hij (Task.work.inj hx)
      · exact fun t hm => .inr (ht hm)
    · exact hj
  · intro w hm hres
    rcases hr w hm hres with hm | hm
    · exact hd _ (h.resolved w hm hres) nofun
    · exact hm
  · intro hi
    rw [hx] at hi
    exact hd _ (h.inbox hi) nofun

/-- A worker had its turn, and is replaced. -/
theorem Ready.replaced {u v : Worker V} (h : Ready (.work v.index :: due) s)
    (hu : s.worker? v.index = some u) (hv : v.phase ≠ .finished → v.spawned = .spawn)
    (hw : s'.workers = setWorker v s.workers) (hn : s'.now = s.now) (hd : due ⊆ due')
    (ht : s.timers ⊆ s'.timers)
    (ha : ∀ j, s'.execution.Awaits j → j ≠ v.index ∧ s.execution.Awaits j ∨
      j = v.index ∧ (s'.worker? v.index = some v → Working due' s' v.index))
    (hr : ∀ w ∈ s'.execution.watchers, w.result ≠ none →
      w ∈ s.execution.watchers ∨ .watcher w.index ∈ due')
    (hx : s'.execution.inbox = s.execution.inbox) : Ready due' s' := by
  have hfind (j : Nat) : s'.worker? j = if j = v.index then some v else s.worker? j := by
    rw [worker?, hw]
    exact find?_setWorker hu
  have hself : s'.worker? v.index = some v := (hfind _).trans (if_pos rfl)
  refine h.progress v.index (fun j hj => (hfind j).trans (if_neg hj)) ?_ hn ?_ ht ?_ hr hx
  · intro w hw hp
    obtain rfl := Option.some.inj (hself.symm.trans hw)
    exact hv hp
  · exact fun t hm hne => hd ((List.mem_cons.1 hm).resolve_left hne)
  · exact fun j hj => (ha j hj).imp_right fun ⟨hj, hk⟩ => ⟨hj, hk hself⟩

/-- A task has had its turn and is not needed any more. -/
theorem Ready.pop {t : Task} (h : Ready (t :: due) s)
    (hw : ∀ i, t = .work i → s.execution.Awaits i → Working due s i)
    (hr : ∀ w ∈ s.execution.watchers, w.result ≠ none → t ≠ .watcher w.index)
    (hi : s.execution.inbox ≠ [] → t ≠ .driver) : Ready due s := by
  have hdue {u : Task} (hu : u ∈ t :: due) (hn : t ≠ u) : u ∈ due :=
    (List.mem_cons.1 hu).resolve_left hn.symm
  refine ⟨h.unstopped, ?_, fun w hm hx => hdue (h.resolved w hm hx) (hr w hm hx),
    fun hx => hdue (h.inbox hx) (hi hx)⟩
  intro i ha
  by_cases ht : t = .work i
  · exact hw i ht ha
  · exact (h.working i ha).mono rfl (Nat.le_refl _) (fun hm => hdue hm ht) fun _ hm => .inr hm

theorem Ready.pop_work (h : Ready (.work i :: due) s)
    (hw : s.execution.Awaits i → Working due s i) : Ready due s := by
  refine h.pop ?_ (by simp) (by simp)
  intro j hj ha
  rw [← Task.work.inj hj] at ha ⊢
  exact hw ha

theorem Ready.pop_watcher (h : Ready (.watcher i :: due) s)
    (hr : ∀ w ∈ s.execution.watchers, w.index = i → w.result = none) : Ready due s := by
  refine h.pop (by simp) ?_ (by simp)
  intro w hm hx ht
  exact hx (hr w hm (Task.watcher.inj ht).symm)

theorem Ready.pop_driver (h : Ready (.driver :: due) s) (hi : s.execution.inbox = []) :
    Ready due s :=
  h.pop (by simp) (by simp) fun hx => absurd hi hx

theorem Ready.pop_canceller (h : Ready (.canceller :: due) s) : Ready due s :=
  h.pop (by simp) (by simp) (by simp)

theorem worker?_of_not_mem (h : i ∉ s.roster.map Prod.fst) : s.worker? i = none := by
  rw [worker?, List.find?_eq_none]
  intro w hw hx
  apply h
  simp only [roster, List.map_map, List.mem_map]
  exact ⟨w, hw, by simpa using hx⟩

section

variable {id : ExecutionId} {q : Query} {subs : List Query} {w : Nat} {merger : Merger V}

theorem nodup_of_steady (h : Steady a c (new id q subs w merger) s) :
    (s.execution.watchers.map fun w => w.index).Nodup := by
  obtain ⟨ms, es, ht, hf, -, -⟩ := h.trace
  exact watchers_nodup (piped_of_trace ht (piped_new ..) (isReport_of_follows ht hf))
    (dispatches_nodup (lined_of_trace ht (lined_new ..)))

theorem running_of_steady (h : Steady a c (new id q subs w merger) s)
    (hd : s.execution.isCompleted = false) : s.execution.driver = .running := by
  obtain ⟨ms, es, ht, hf, hs, -⟩ := h.trace
  exact driver_running ht hs (piped_of_trace ht (piped_new ..) (isReport_of_follows ht hf)) hd

theorem halting_of_steady (h : Steady a c (new id q subs w merger) s)
    (hd : s.execution.isCompleted = false) : halting s.execution.calls = [] := by
  obtain ⟨ms, es, ht, -, -, -⟩ := h.trace
  exact halting_of_trace ht rfl hd

/-- The sub query that is passed on is worked on from then on. -/
theorem ready_dispatched (h : Steady a c (new id q subs w merger) s) (hr : Ready s.queue s)
    (hs : s.execution.step .resume = some (e, [.dispatched i]))
    (hu : underway e.calls = i :: underway s.execution.calls)
    (ht : e.shared = s.execution.shared) :
    Ready (call i { s with execution := e }).queue (call i { s with execution := e }) := by
  obtain ⟨q', hq, -, hnew⟩ := subQuery?_of_dispatched h hs
  have hi : ({ s with execution := e } : Simulation V).inRuntime = true :=
    (inRuntime_of_steady h : s.inRuntime = true)
  simp only [shared, Prod.mk.injEq] at ht
  obtain ⟨-, hin, hwatch, -⟩ := ht
  let u : Worker V := ⟨i, s.jobs q', .spawn, .fresh⟩
  have hfind (j : Nat) : ((s.workers ++ [u]).find? fun w => w.index = j) =
      if j = i then some u else s.worker? j := by
    rw [List.find?_append]
    by_cases hj : j = i
    · subst hj
      have hn : (s.workers.find? fun w => w.index = j) = none := worker?_of_not_mem hnew
      simp [hn, u]
    · have hn : ¬ i = j := fun hx => hj hx.symm
      simp [hj, hn, u, worker?]
  rw [call_eq hq hi]
  apply Ready.enqueue
  refine hr.progress i ?_ ?_ rfl ?_ (List.Subset.refl _) ?_ ?_ hin
  · intro j hj
    exact (hfind j).trans (if_neg hj)
  · intro u' hu' _
    obtain rfl : u = u' := by simpa using (hfind i).symm.trans hu'
    rfl
  · exact fun t ht _ => List.mem_cons_of_mem _ ht
  · intro j hj
    by_cases hij : j = i
    · subst hij
      exact .inr ⟨rfl, u, (hfind j).trans (if_pos rfl), List.mem_cons_self ..⟩
    · left
      refine ⟨hij, ?_⟩
      simpa [Awaits, hu, hij, hwatch] using hj
  · intro w hw _
    exact .inl (hwatch ▸ hw)

/-- A handle that comes back is watched. -/
theorem ready_handed {st : List (Frame V)} (hr : Ready s.queue s)
    (hc : s.execution.calls = .dispatching i :: st) (hd : s.execution.isCompleted = false) :
    Ready (.watcher i :: s.queue) { s with execution := s.execution.attach i none } := by
  refine ⟨hr.unstopped, ?_, ?_, ?_⟩
  · intro j hj
    have hx : s.execution.Awaits j := by
      rw [attach_eq, hd] at hj
      rcases hj with hj | ⟨w, hw, hwj, hn⟩
      · left
        rw [hc] at hj ⊢
        exact List.mem_cons_of_mem _ hj
      · rcases List.mem_append.1 hw with hw | hw
        · exact .inr ⟨w, hw, hwj, hn⟩
        · obtain rfl := List.mem_singleton.1 hw
          left
          rw [hc, ← hwj]
          exact List.mem_cons_self ..
    exact (hr.working j hx).mono rfl (Nat.le_refl _) (List.mem_cons_of_mem _) fun _ hm => .inr hm
  · intro w hw hn
    rw [attach_eq] at hw
    rcases List.mem_append.1 hw with hw | hw
    · exact List.mem_cons_of_mem _ (hr.resolved w hw hn)
    · obtain rfl := List.mem_singleton.1 hw
      exact (hn rfl).elim
  · intro hx
    rw [attach_eq] at hx
    exact List.mem_cons_of_mem _ (hr.inbox hx)

theorem ready_resumed {events : List (Event V)} (h : Steady a c (new id q subs w merger) s)
    (hr : Ready s.queue s) (hopen : s.execution.isCompleted = false)
    (hs : s.execution.step .resume = some (e, events)) :
    Ready (events.foldl observe { s with execution := e }).queue
      (events.foldl observe { s with execution := e }) := by
  have hh := halting_of_steady h hopen
  cases transition_of_step hs with
  | fill hc =>
    exact hr.moved (filterMap_calls_fillNext (fun _ => rfl) rfl hc) (shared_fillNext _)
  | skip hc hx => simp [hopen] at hx
  | launch hc hx => exact ready_dispatched h hr hs (by rw [hc]; rfl) rfl
  | @combine rs st hc =>
    have hm : Ready s.queue
        { s with execution := { s.execution with calls := .merging rs :: st } } :=
      hr.moved (by rw [hc]; rfl) rfl
    exact ⟨hm.unstopped, hm.working, hm.resolved, hm.inbox⟩
  | stop hc => simp [hc, halting, Frame.halting?] at hh

theorem ready_returned {m : Move V} {t : Option Task} {events : List (Event V)}
    (h : Steady a c (new id q subs w merger) s) (hr : Ready s.queue s)
    (hopen : s.execution.isCompleted = false) (hm : s.returning = some (m, t))
    (hs : s.execution.step m = some (e, events)) (hd : e.isCompleted = false) :
    Ready ((events.foldl observe { s with execution := e }).spawnTask t).queue
      ((events.foldl observe { s with execution := e }).spawnTask t) := by
  have hh := halting_of_steady h hopen
  unfold returning at hm
  split at hm
  · rename_i i st hc
    cases hm
    cases transition_of_step hs with
    | handed hc' =>
      obtain ⟨hf, -⟩ := List.cons.inj (hc.symm.trans hc')
      cases hf
      have hn : s.handed i = none := by rw [handed, if_pos (inRuntime_of_steady h)]
      rw [hn]
      exact Ready.enqueue (ready_handed hr hc hopen)
  · cases hm
    cases transition_of_step hs with
    | combined hc => simp [deliver_fst, isCompleted] at hd
  · rename_i i st hc
    simp [hc, halting, Frame.halting?] at hh
  · cases hm

theorem ready_advance (h : Steady a c (new id q subs w merger) s) (hr : Ready s.queue s)
    (hopen : s.execution.isCompleted = false) (hd : s.advance.execution.isCompleted = false) :
    Ready s.advance.queue s.advance := by
  unfold advance at hd ⊢
  split at hd
  · exact ready_resumed h hr hopen ‹_›
  · split at hd
    · exact hr
    · split at hd
      · rw [execution_spawnTask, execution_observeAll] at hd
        exact ready_returned h hr hopen ‹_› ‹_› hd
      · exact hr

/-- No watcher of a sub query is without result once its handle has resolved. -/
theorem result_of_mem_settle {r : SubResult V} {u : Watcher V} {ws : List (Watcher V)}
    (hn : (ws.map fun w => w.index).Nodup) (hu : u ∈ settle i r ws) (hi : u.index = i) :
    u.result ≠ none := by
  induction ws with
  | nil => cases hu
  | cons w ws ih =>
    obtain ⟨hw, hn⟩ := List.nodup_cons.1 hn
    unfold settle at hu
    split at hu
    · rename_i hwi
      rcases List.mem_cons.1 hu with rfl | hu
      · split
        · simp
        · rename_i hs
          exact fun hx => hs (by simp [hx])
      · exact (hw (List.mem_map.2 ⟨u, hu, hi.trans hwi.symm⟩)).elim
    · rcases List.mem_cons.1 hu with rfl | hu
      · exact absurd hi ‹_›
      · exact ih hn hu

/-- A sub query that nobody listens to between calls is not awaited. -/
theorem not_awaits_of_not_listens (h : Steady a c (new id q subs w merger) s)
    (hc : s.execution.calls = []) (hl : s.execution.listens i = false) :
    ¬ s.execution.Awaits i := by
  rintro (hu | ⟨u, hu, rfl, hn⟩)
  · simp [hc, underway] at hu
  · simp [listens, watcher?_of_mem (nodup_of_steady h) hu, hn] at hl

/-- When work is over, its handle has resolved and the watcher of it is due. -/
theorem ready_finish {u : Worker V} {r : SubResult V} {spawned : SpawnedWork V}
    (h : Steady a c (new id q subs w merger) s) (hr : Ready (.work u.index :: s.queue) s)
    (hc : s.execution.calls = []) (hu : s.worker? u.index = some u)
    (hx : spawned.handle.result? = some r) :
    Ready (s.finish u spawned).queue (s.finish u spawned) := by
  have hy : s.execution.yields = true := by simp [yields, hc]
  unfold finish resolve
  simp only [hx]
  split
  · rename_i e es hs
    cases transition_of_step hs with
    | resolve _ hl =>
      apply Ready.enqueue
      refine Ready.replaced (v := { u with spawned, phase := .finished }) hr hu
        (fun hp => (hp rfl).elim) rfl rfl (List.subset_cons_self ..) (List.Subset.refl _) ?_ ?_ rfl
      · rintro j (hj | ⟨v, hv, rfl, hn⟩)
        · simp [hc, underway] at hj
        · left
          refine ⟨fun hi => result_of_mem_settle (nodup_of_steady h) hv hi hn, ?_⟩
          rcases mem_of_mem_settle hv with hv | ⟨-, hs⟩
          · exact .inr ⟨v, hv, rfl, hn⟩
          · rw [hn] at hs
            cases hs
      · intro v hv hn
        rcases mem_of_mem_settle hv with hv | ⟨hi, -⟩
        · exact .inl hv
        · exact .inr (hi ▸ List.mem_cons_self ..)
  · rename_i hs
    have hl : s.execution.listens u.index = false := by
      simpa [step, hy] using hs
    refine Ready.replaced (v := { u with spawned, phase := .finished }) hr hu
      (fun hp => (hp rfl).elim) rfl rfl (List.Subset.refl _) (List.Subset.refl _) ?_
      (fun v hv _ => .inl hv) rfl
    intro j hj
    exact .inl ⟨fun hi => not_awaits_of_not_listens h hc hl (hi ▸ hj), hj⟩

/-- Work that begins is due once it has taken its time. -/
theorem ready_asleep {u : Worker V} {t : Nat} (hr : Ready (.work u.index :: s.queue) s)
    (hu : s.worker? u.index = some u) (hspawn : u.spawned = .spawn) :
    Ready s.queue { s with
      workers := setWorker { u with phase := .asleep t } s.workers
      timers := addTimer t (.work u.index) s.timers } := by
  refine Ready.replaced (v := { u with phase := .asleep t }) hr hu (fun _ => hspawn) rfl rfl
    (List.Subset.refl _) (fun _ hm => mem_addTimer.2 (.inr hm)) ?_ (fun w hw _ => .inl hw) rfl
  intro j hj
  by_cases hij : j = u.index
  · exact .inr ⟨hij, fun hself => ⟨_, hself, .inr (mem_addTimer.2 (.inl rfl))⟩⟩
  · exact .inl ⟨hij, hj⟩

theorem ready_work {u : Worker V} (h : Steady a c (new id q subs w merger) s)
    (hr : Ready (.work i :: s.queue) s) (hc : s.execution.calls = [])
    (hu : s.worker? i = some u) : Ready (s.work u).queue (s.work u) := by
  obtain rfl := index_of_worker? hu
  have hend := h.endings _ (mem_roster_of_worker? hu)
  unfold work
  split
  · rename_i hp
    refine hr.pop_work ?_
    intro ha
    obtain ⟨v, hv, hx⟩ := hr.working _ ha
    obtain rfl := Option.some.inj (hu.symm.trans hv)
    rw [hp] at hx
    exact hx.elim
  · rename_i hp
    have hspawn : u.spawned = .spawn := hr.unstopped _ u hu hp
    split
    · rename_i spawned hq
      rw [hspawn] at hq
      cases hq
    · split
      · split
        · rename_i spawned hq
          have hlog : Alike s { s with log := s.log ++ [.finished u.index] } :=
            alike_of_tasks rfl (List.Subset.refl _)
          have hready : Ready (.work u.index :: s.queue)
              { s with log := s.log ++ [.finished u.index] } :=
            ⟨hr.unstopped, hr.working, hr.resolved, hr.inbox⟩
          rw [hspawn, hend] at hq
          exact ready_finish (h.of_alike hlog) hready hc hu (result?_of_report hq)
        · rename_i hq
          rw [hspawn, hend] at hq
          cases hq
      · rename_i hdue
        split
        · exact ready_asleep hr hu hspawn
        · rename_i hf
          refine hr.pop_work ?_
          intro ha
          obtain ⟨v, hv, hx⟩ := hr.working _ ha
          obtain rfl := Option.some.inj (hu.symm.trans hv)
          refine ⟨u, hu, ?_⟩
          cases hph : u.phase with
          | fresh => exact (hf hph).elim
          | finished => exact (hp hph).elim
          | asleep t =>
            rw [hph] at hx hdue
            rcases hx with ⟨hle, -⟩ | hm
            · simp [Phase.isDue, hle] at hdue
            · exact .inr hm

theorem ready_forwarded {events : List (Event V)} (h : Steady a c (new id q subs w merger) s)
    (hr : Ready (.watcher i :: s.queue) s)
    (hs : s.execution.step (.forward i) = some (e, events)) :
    Ready (.driver :: s.queue) { s with execution := e } := by
  cases transition_of_step hs with
  | @forward i j r hc hw =>
    have hi : j = i := index_of_watcher? hw
    have hp := (perm_cons_eraseP hw).map fun w => w.index
    obtain ⟨hnew, -⟩ := List.nodup_cons.1 (hp.nodup_iff.1 (nodup_of_steady h))
    have hrest {v : Watcher V} (hv : v ∈ (s.execution.unwatch i).watchers) :
        v ∈ s.execution.watchers ∧ v.index ≠ i := by
      refine ⟨List.mem_of_mem_eraseP hv, ?_⟩
      intro hx
      exact hnew (List.mem_map.2 ⟨v, hv, hx.trans hi.symm⟩)
    refine ⟨hr.unstopped, ?_, ?_, fun _ => List.mem_cons_self ..⟩
    · rintro k (hk | ⟨v, hv, rfl, hx⟩)
      · change k ∈ underway s.execution.calls at hk
        simp [hc, underway] at hk
      · have hwork := hr.working _ (.inr ⟨v, (hrest hv).1, rfl, hx⟩)
        apply hwork.mono rfl (Nat.le_refl _) _ fun _ hm => .inr hm
        intro hm
        exact List.mem_cons_of_mem _ ((List.mem_cons.1 hm).resolve_left (by simp))
    · intro v hv hx
      obtain ⟨hm, hne⟩ := hrest hv
      have hdue := (List.mem_cons.1 (hr.resolved v hm hx)).resolve_left
        fun ht => hne (Task.watcher.inj ht)
      exact List.mem_cons_of_mem _ hdue

/-- A watcher whose handle has resolved passes the result on, and the driver is due. -/
theorem ready_watch (h : Steady a c (new id q subs w merger) s)
    (hr : Ready (.watcher i :: s.queue) s) (hc : s.execution.calls = [])
    (hopen : s.execution.isCompleted = false) : Ready (s.watch i).queue (s.watch i) := by
  unfold watch
  split
  · rename_i e es hs
    cases transition_of_step hs with
    | retire _ _ hd => simp [hopen] at hd
  · split
    · rename_i e es hs
      have hrun : e.driver = .running := by
        cases transition_of_step hs with
        | forward => exact running_of_steady h hopen
      have hf := ready_forwarded h hr hs
      simp only [if_pos hrun]
      exact Ready.enqueue hf
    · rename_i hs
      refine hr.pop_watcher ?_
      rintro v hv rfl
      by_contra hx
      have hf := watcher?_of_mem (nodup_of_steady h) hv
      obtain ⟨k, r⟩ := v
      obtain ⟨r, rfl⟩ := Option.ne_none_iff_exists'.1 hx
      simp [step, hc, hf] at hs

/-- The driver stays due as long as there is something in the inbox. -/
theorem ready_drive (h : Steady a c (new id q subs w merger) s)
    (hr : Ready (.driver :: s.queue) s) (hc : s.execution.calls = [])
    (hopen : s.execution.isCompleted = false) (hd : s.drive.execution.isCompleted = false) :
    Ready s.drive.queue s.drive := by
  have hrun := running_of_steady h hopen
  unfold drive at hd ⊢
  split at hd
  · rename_i e es hs
    cases transition_of_step hs with
    | halt _ _ hx => simp [hopen] at hx
  · split at hd
    · rename_i e es hs
      rw [execution_observeAll] at hd
      cases transition_of_step hs with
      | @receive i r rest _ _ hi =>
        cases r with
        | error error => simp [complete, isCompleted_fail] at hd
        | ok v =>
          have hm : Ready (.driver :: s.queue) { s with
              execution := { s.execution with inbox := rest } } :=
            ⟨hr.unstopped, hr.working, hr.resolved, fun _ => List.mem_cons_self ..⟩
          have hx := hm.moved (underway_complete i (.ok v) { s.execution with inbox := rest })
            (shared_complete i (.ok v) { s.execution with inbox := rest })
          exact ⟨hx.unstopped, hx.working, hx.resolved, hx.inbox⟩
    · rename_i hs
      exact hr.pop_driver (inbox_of_receive hc hrun hs)

theorem ready_cancel (hr : Ready (.canceller :: s.queue) s)
    (hd : s.cancel.execution.isCompleted = false) : Ready s.cancel.queue s.cancel := by
  have hrest : Ready s.queue s := hr.pop_canceller
  revert hd
  unfold cancel
  simp only
  split
  · split
    · rename_i e es hs
      rw [execution_observeAll]
      intro hd
      cases transition_of_step hs with
      | cancel => simp [Execution.cancel, isCompleted_stopWith] at hd
    · exact fun _ => hrest
  · split
    · intro _
      have hc : Ready s.queue { s with canceller := .asleep (s.now +
          min (s.cancelAfter.getD 0) longestSleep) } :=
        ⟨hrest.unstopped, hrest.working, hrest.resolved, hrest.inbox⟩
      exact hc.sleep ..
    · exact fun _ => hrest

theorem ready_started (hr : Ready s.queue s) : Ready s.started.queue s.started := by
  have hs : Ready s.queue { s with isStarting := false } :=
    ⟨hr.unstopped, hr.working, hr.resolved, hr.inbox⟩
  unfold started
  simp only
  split
  · exact Ready.enqueue (hs.later (List.subset_cons_self ..))
  · exact hs

/-- Of the timers, those up to the time are due, and the others are left. -/
theorem ready_wake (time : Nat) (hr : Ready s.queue s) :
    Ready (s.wake time).queue (s.wake time) := by
  have hq (t : Task) : t ∈ (s.wake time).queue ↔ t ∈ s.queue ∨
      t ∈ (s.timers.takeWhile fun t => t.1 ≤ time).map Prod.snd := mem_queue_enqueueAll
  have hnow : (s.wake time).now = max s.now time := by
    rw [wake, enqueueAll_frame]
  have htimers : (s.wake time).timers = s.timers.dropWhile fun t => t.1 ≤ time := by
    rw [wake, enqueueAll_frame]
  refine hr.mono (alike_wake time s).execution ?_ (hnow ▸ Nat.le_max_left ..)
    (fun t ht => (hq t).2 (.inl ht)) ?_
  · rw [wake, enqueueAll_frame]
  · intro t i ht
    rw [← List.takeWhile_append_dropWhile (p := fun t => decide (t.1 ≤ time)) (l := s.timers)] at ht
    rcases List.mem_append.1 ht with ht | ht
    · left
      have hle : t ≤ time := by simpa using List.all_eq_true.1 List.all_takeWhile _ ht
      rw [hnow]
      exact ⟨Nat.le_trans hle (Nat.le_max_right ..),
        (hq _).2 (.inr (List.mem_map.2 ⟨_, ht, rfl⟩))⟩
    · exact .inr (htimers ▸ ht)

theorem ready_tick (h : Steady a c (new id q subs w merger) s) (hr : Ready s.queue s)
    (hopen : s.execution.isCompleted = false) (hd : s.tick.execution.isCompleted = false) :
    Ready s.tick.queue s.tick := by
  revert hd
  unfold tick
  split
  · exact ready_advance h hr hopen
  · rename_i t rest hc hq
    split
    · exact fun _ => ready_started hr
    · have hs : Steady a c (new id q subs w merger) { s with queue := rest } := by
        apply h.of_alike (alike_of_tasks rfl _)
        simp [tasks, hq]
      have hready : Ready (t :: rest) { s with queue := rest } := by
        rw [hq] at hr
        exact ⟨hr.unstopped, hr.working, hr.resolved, hr.inbox⟩
      cases t with
      | work i =>
        intro _
        simp only [runTask]
        split
        · exact ready_work hs hready hc ‹_›
        · rename_i hn
          refine hready.pop_work ?_
          intro ha
          obtain ⟨v, hv, -⟩ := hready.working _ ha
          rw [hn] at hv
          cases hv
      | watcher i => exact fun _ => ready_watch hs hready hc hopen
      | driver => exact ready_drive hs hready hc hopen
      | canceller => exact ready_cancel hready
  · exact fun _ => ready_wake _ hr
  · exact fun _ => hr

/-- What a simulation keeps until it is over. -/
structure Sound (a : Nat → SubResult V) (c : Prop) (e₀ : Execution V) (s : Simulation V) :
    Prop where
  steady : Steady a c e₀ s
  ready : s.execution.isCompleted = false → Ready s.queue s

theorem sound_start {jobs : Query → Job V} {cancelAfter : Option Nat}
    (hj : ∀ i q, subs[i]? = some q → (jobs q).ending = .answer (a i)) :
    Sound a (cancelAfter.isSome = true) (new id q subs w merger)
      (start (new id q subs w merger) jobs true cancelAfter) where
  steady := steady_start hj
  ready := by
    intro _
    constructor
    · intro i u hu
      simp [start, worker?] at hu
    · rintro i (hi | ⟨v, hv, -⟩)
      · simp [start, Execution.start, new, underway, Frame.dispatching?] at hi
      · cases hv
    · intro v hv
      cases hv
    · intro hi
      exact (hi rfl).elim

theorem sound_tick (h : Sound a c (new id q subs w merger) s) :
    Sound a c (new id q subs w merger) s.tick where
  steady := steady_tick h.steady fun hd => (h.ready hd).unstopped
  ready := by
    intro hd
    have hopen : s.execution.isCompleted = false := by
      by_contra hx
      rw [isCompleted_tick ((Bool.not_eq_false _).mp hx)] at hd
      cases hd
    exact ready_tick h.steady (h.ready hopen) hopen hd

/-- When everything is over nothing is awaited, so there is an outcome. -/
theorem isCompleted_of_isOver (h : Sound a c (new id q subs w merger) s) (hn : subs ≠ [])
    (ho : s.isOver = true) : s.execution.isCompleted = true := by
  by_contra hx
  have hr := h.ready (Bool.eq_false_iff.2 hx)
  obtain ⟨ms, es, ht, hf, hs, -⟩ := h.steady.trace
  simp only [isOver, Bool.and_eq_true, List.isEmpty_iff] at ho
  obtain ⟨⟨hc, hq⟩, htimers⟩ := ho
  rw [hq] at hr
  apply hx
  apply isCompleted_of_quiet ht hn hs (isReport_of_follows ht hf) hc
  · rw [List.eq_nil_iff_forall_not_mem]
    intro v hv
    cases hres : v.result with
    | none =>
      obtain ⟨u, -, hu⟩ := hr.working v.index (.inr ⟨v, hv, rfl, hres⟩)
      cases hp : u.phase <;> simp [hp, htimers] at hu
    | some r => simpa using hr.resolved v hv (by simp [hres])
  · by_contra hi
    simpa using hr.inbox hi

/-- Whatever the window, and however long each job takes: a simulation comes to its end with an
outcome, and it is one that the jobs' answers lead to. -/
theorem run_comes {jobs : Query → Job V} (hn : subs ≠ [])
    (hj : ∀ i q, subs[i]? = some q → (jobs q).ending = .answer (a i)) (cancelAfter : Option Nat) :
    ∃ o, (start (new id q subs w merger) jobs true cancelAfter).run.execution.outcome = some o ∧
      Comes a (cancelAfter.isSome = true) (new id q subs w merger) o := by
  have h₀ : Sound a (cancelAfter.isSome = true) (new id q subs w merger)
      (start (new id q subs w merger) jobs true cancelAfter) := sound_start hj
  obtain ⟨h, ho⟩ := run_induction (fun s _ hs => sound_tick hs) h₀
  obtain ⟨o, hout⟩ := Option.isSome_iff_exists.1 (isCompleted_of_isOver h hn ho)
  obtain ⟨ms, es, ht, hf, -, -⟩ := h.steady.trace
  exact ⟨o, hout, comes_of_plan (plan_of_trace ht).symm (comes_of_trace ht hf o hout)⟩

end

end Simulation
end ScatterGather
