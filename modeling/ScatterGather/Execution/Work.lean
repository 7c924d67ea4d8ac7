import ScatterGather.Execution.Step
import ScatterGather.Sum
/-!
How much an execution can still do on its own. Every step that is not a call from outside uses some
of it up, so a schedule without such calls comes to an end.
-/
namespace ScatterGather

variable {V : Type}

def Frame.work : Frame V → Nat
  | .fill => 1
  | .launch _ => 17
  | .dispatching _ => 13
  | .combine _ => 3
  | .merging _ => 1
  | .stop _ => 3
  | .stopping _ => 1

def Driver.work : Driver → Nat
  | .finished => 0
  | _ => 1

/-- What an event may add to the work outside: reactions to it and tasks woken by it. -/
def Event.cost : Event V → Nat
  | .dispatched _ => 3
  | .stopped _ => 1
  | .merged _ => 1
  | .delivered _ => 2
  | .deregistered => 0

def cost (events : List (Event V)) : Nat := (events.map Event.cost).sum

namespace Execution

def framesWork (fs : List (Frame V)) : Nat := (fs.map Frame.work).sum

/-- An outcome can be delivered once. -/
def pendingWork : Option (Outcome V) → Nat
  | none => 2
  | some _ => 0

def work (e : Execution V) : Nat :=
  18 * (e.total - e.nextIndex) + framesWork e.calls + 3 * e.slots.count true +
    6 * e.watchers.length + 5 * e.inbox.length + e.driver.work + pendingWork e.outcome

theorem framesWork_cons (f : Frame V) (fs : List (Frame V)) :
    framesWork (f :: fs) = f.work + framesWork fs := by simp [framesWork]

theorem framesWork_append (fs gs : List (Frame V)) :
    framesWork (fs ++ gs) = framesWork fs + framesWork gs := by simp [framesWork]

theorem framesWork_stops (is : List Nat) :
    framesWork (is.map (Frame.stop (V := V))) = 3 * is.length := by
  induction is with
  | nil => rfl
  | cons i is ih =>
    simp [framesWork_cons, ih, Frame.work]
    omega

theorem length_filter_getElem (l : List Bool) :
    ((List.range l.length).filter fun i => l[i]? == some true).length = l.count true := by
  induction l with
  | nil => rfl
  | cons b l ih =>
    rw [List.length_cons, List.range_succ_eq_map, List.filter_cons]
    have : ((List.map Nat.succ (List.range l.length)).filter
        fun i => (b :: l)[i]? == some true).length = l.count true := by
      rw [List.filter_map, List.length_map, ← ih]
      rfl
    cases b <;> simp_all

theorem length_held (e : Execution V) : e.held.length = e.slots.count true :=
  length_filter_getElem e.slots

theorem count_set_le (l : List Bool) (i : Nat) :
    (l.set i true).count true ≤ l.count true + 1 := by
  induction l generalizing i with
  | nil => simp
  | cons b l ih =>
    cases i with
    | zero => cases b <;> simp
    | succ i =>
      have := ih i
      cases b <;> simp <;> omega

theorem cost_append (as bs : List (Event V)) : cost (as ++ bs) = cost as + cost bs := by
  simp [cost]

theorem work_deliver (o : Outcome V) (e : Execution V) :
    (e.deliver o).1.work + cost (e.deliver o).2 = e.work := by
  unfold deliver
  split
  · rfl
  · rename_i h
    have : e.outcome = none := by simpa [isCompleted] using h
    simp only [work, this, pendingWork, total, cost, List.map_cons, List.map_nil, List.sum_cons,
      List.sum_nil, Event.cost]
    omega

theorem work_sweep_le (e : Execution V) : e.sweep.1.work ≤ e.work := by
  have := e.length_held
  simp only [sweep, work, framesWork_append, framesWork_stops, total, List.map_const',
    List.count_replicate]
  simp
  omega

theorem work_stopWith_le (error : ShardingError) (e : Execution V) :
    (e.stopWith error).1.work + cost (e.stopWith error).2 ≤ e.work := by
  have := work_deliver (.error error) e
  have := work_sweep_le (e.deliver (.error error)).1
  have : cost (e.deliver (.error error)).1.sweep.2 = 0 := rfl
  simp only [stopWith, cost_append]
  omega

theorem work_cancel_le (e : Execution V) : e.cancel.1.work + cost e.cancel.2 ≤ e.work :=
  work_stopWith_le ..

theorem work_reserve (e : Execution V) (h : e.nextIndex < e.total) :
    e.reserve.work + 18 = e.work := by
  simp only [reserve, work, total] at *
  omega

theorem work_push (fs : List (Frame V)) (e : Execution V) :
    (e.push fs).work = framesWork fs + e.work := by
  simp only [push, work, framesWork_append, total]
  omega

theorem work_refill_le (e : Execution V) : e.refill.work ≤ e.work := by
  unfold refill
  split
  · rename_i h
    have := work_reserve e h
    rw [work_push]
    simp [framesWork, Frame.work]
    omega
  · exact Nat.le_refl _

theorem work_collect_le (e : Execution V) : e.collect.work ≤ e.work + 3 := by
  unfold collect
  split
  · simp only [work, framesWork_cons, Frame.work, total]
    omega
  · exact Nat.le_add_right ..

theorem work_succeed_le (i : Nat) (v : V) (e : Execution V) :
    (e.succeed i v).work ≤ e.work + 3 := by
  unfold succeed
  split
  · exact Nat.le_add_right ..
  · split
    · have h₁ := work_refill_le ((e.record i v).collect)
      have h₂ := work_collect_le (e.record i v)
      have h₃ : (e.record i v).work = e.work := rfl
      omega
    · exact Nat.le_add_right ..

theorem work_fail_le (i : Nat) (error : QueryError) (e : Execution V) :
    (e.fail i error).1.work + cost (e.fail i error).2 ≤ e.work := by
  unfold fail
  split
  · exact Nat.le_refl _
  · exact work_stopWith_le ..

theorem work_complete_le (i : Nat) (r : SubResult V) (e : Execution V) :
    (e.complete i r).1.work + cost (e.complete i r).2 ≤ e.work + 3 := by
  cases r with
  | ok v =>
    change (e.succeed i v).work + 0 ≤ e.work + 3
    exact work_succeed_le i v e
  | error error => exact Nat.le_trans (work_fail_le ..) (Nat.le_add_right ..)

theorem work_pop (e : Execution V) (f : Frame V) (s : List (Frame V)) (h : e.calls = f :: s) :
    e.pop.work + f.work = e.work := by
  simp only [pop, work, h, List.tail_cons, framesWork_cons, total]
  omega

theorem work_attach_le (e : Execution V) (i j : Nat) (s : List (Frame V))
    (r : Option (SubResult V)) (h : e.calls = .dispatching j :: s) :
    (e.attach i r).work + 3 ≤ e.work := by
  have hp := work_pop e _ _ h
  simp only [Frame.work] at hp
  have hw : ({ e.pop with watchers := e.watchers ++ [⟨i, r⟩] } : Execution V).work =
      e.pop.work + 6 := by
        simp [work, pop, total]
        omega
  unfold attach
  simp only
  split
  · rw [work_push, hw]
    simp [framesWork, Frame.work]
    omega
  · have := count_set_le e.slots i
    simp only [work, pop, total] at *
    omega

/-- What goes on by itself uses work up, and pays for the collaborators it calls. -/
theorem work_resume_lt {e e' : Execution V} {events : List (Event V)}
    (h : e.resume = some (e', events)) : e'.work + cost events < e.work := by
  unfold resume at h
  split at h
  · rename_i s hc
    cases h
    have hp := work_pop e _ _ hc
    simp only [Frame.work] at hp
    unfold fillNext
    split
    · simp [cost]
      omega
    · split
      · rename_i hlt
        have := work_reserve e (by omega)
        rw [work_push]
        simp [framesWork, Frame.work, cost]
        omega
      · simp only [work, pop, total] at *
        simp [cost]
        omega
  · rename_i i s hc
    have hp := work_pop e _ _ hc
    simp only [Frame.work] at hp
    split at h <;> cases h
    · simp [cost]
      omega
    · simp only [work, hc, framesWork_cons, Frame.work, total] at *
      simp [cost, Event.cost]
      omega
  · rename_i rs s hc
    cases h
    simp only [work, hc, framesWork_cons, Frame.work, total]
    simp [cost, Event.cost]
    omega
  · rename_i i s hc
    cases h
    simp only [work, hc, framesWork_cons, Frame.work, total]
    simp [cost, Event.cost]
    omega
  · cases h

theorem work_handed_lt {e e' : Execution V} {events : List (Event V)} {r : Option (SubResult V)}
    (h : e.step (.handed r) = some (e', events)) : e'.work + (cost events + 2) < e.work := by
  simp only [step] at h
  split at h
  · rename_i i s hc
    cases h
    have := work_attach_le e i i s r hc
    have : cost ([] : List (Event V)) = 0 := rfl
    omega
  · cases h

theorem work_stopped_lt {e e' : Execution V} {events : List (Event V)}
    (h : e.step .stopped = some (e', events)) : e'.work + cost events < e.work := by
  simp only [step] at h
  split at h
  · rename_i i s hc
    cases h
    have := work_pop e _ _ hc
    have : cost ([] : List (Event V)) = 0 := rfl
    simp only [Frame.work] at *
    omega
  · cases h

theorem work_combined_lt {e e' : Execution V} {events : List (Event V)} {m : Merged V}
    (h : e.step (.combined m) = some (e', events)) : e'.work + cost events < e.work := by
  simp only [step] at h
  split at h
  · rename_i rs s hc
    have := work_pop e _ _ hc
    have hd := work_deliver ((m.result e.merger.strategy).mapError (.merge e.query.order)) e.pop
    simp only [Frame.work] at this
    injection h with h
    simp only [h] at hd
    omega
  · cases h

theorem length_settle (i : Nat) (r : SubResult V) (ws : List (Watcher V)) :
    (settle i r ws).length = ws.length := by
  induction ws with
  | nil => rfl
  | cons w ws ih =>
    unfold settle
    split <;> simp [ih]

theorem work_resolve {e e' : Execution V} {events : List (Event V)} {i : Nat} {r : SubResult V}
    (h : e.step (.resolve i r) = some (e', events)) : e'.work = e.work := by
  simp only [step] at h
  split at h <;> cases h
  simp only [work, length_settle, total]

theorem length_eraseP_lt {α : Type} {p : α → Bool} {l : List α} {a : α}
    (h : l.find? p = some a) : (l.eraseP p).length + 1 = l.length := by
  have hm := List.mem_of_find?_eq_some h
  have hp := List.find?_some h
  have := List.length_eraseP_of_mem hm hp
  have := List.length_pos_of_mem hm
  omega

theorem work_unwatch {e : Execution V} {i : Nat} {w : Watcher V} (h : e.watcher? i = some w) :
    (e.unwatch i).work + 6 = e.work := by
  have := length_eraseP_lt h
  simp only [unwatch, work, total] at *
  omega

theorem work_forward_lt {e e' : Execution V} {events : List (Event V)} {i : Nat}
    (h : e.step (.forward i) = some (e', events)) : e'.work < e.work := by
  simp only [step] at h
  split at h
  · rename_i j r _ hw
    cases h
    have := work_unwatch hw
    simp only [work, unwatch, total] at *
    split
    · omega
    · simp
      omega
  · cases h

theorem work_retire_lt {e e' : Execution V} {events : List (Event V)} {i : Nat}
    (h : e.step (.retire i) = some (e', events)) : e'.work < e.work := by
  simp only [step] at h
  split at h
  · rename_i hw
    split at h <;> cases h
    have := work_unwatch hw
    omega
  · cases h

theorem work_receive_lt {e e' : Execution V} {events : List (Event V)}
    (h : e.step .receive = some (e', events)) : e'.work + (cost events + 1) < e.work := by
  simp only [step] at h
  split at h
  · rename_i i r rest _ _ hi
    have hle := work_complete_le i r { e with inbox := rest }
    have he : ({ e with inbox := rest } : Execution V).work + 5 = e.work := by
      simp only [work, hi, List.length_cons, total]
      omega
    injection h with h
    simp only [h] at hle
    omega
  · cases h

theorem work_halt_lt {e e' : Execution V} {events : List (Event V)}
    (h : e.step .halt = some (e', events)) : e'.work < e.work := by
  simp only [step] at h
  split at h
  · rename_i hd
    split at h <;> cases h
    simp only [work, hd, Driver.work, total, List.length_nil]
    omega
  · cases h

end Execution
end ScatterGather
