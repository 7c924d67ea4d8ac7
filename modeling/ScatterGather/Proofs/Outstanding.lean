import Mathlib.Data.List.Induction
import ScatterGather.Scenario.Sweeps

/-! A sweep of the registry calls what was in it at its start, and what the calls do to the registry
in the meantime is all that happens to it. -/
namespace ScatterGather

namespace Outstanding

variable {κ α : Type} [DecidableEq κ] {r : Outstanding κ α} {e : κ × α}

omit [DecidableEq κ] in
theorem eq_empty (h : r.entries = []) : r = .empty := by
  cases r
  cases h
  rfl

/-- A change to the registry, as an entry makes it when it is cancelled. -/
inductive Change (κ α : Type)
  | register (k : κ) (a : α)
  | deregister (k : κ)

namespace Change

variable {c : Change κ α} {cs : List (Change κ α)}

def key : Change κ α → κ
  | register k _ => k
  | deregister k => k

def apply (r : Outstanding κ α) : Change κ α → Outstanding κ α
  | register k a => r.register k a
  | deregister k => r.deregister k

theorem mem_apply : e ∈ (apply r c).entries ↔
    c = .register e.1 e.2 ∨ c.key ≠ e.1 ∧ e ∈ r.entries := by
  cases c with
  | register k a =>
    have he : e = (k, a) ↔ k = e.1 ∧ a = e.2 := by rw [eq_comm, Prod.ext_iff]
    simp [apply, Outstanding.register, Outstanding.deregister, key, he, and_comm, ne_comm]
  | deregister k => simp [apply, Outstanding.deregister, key, and_comm, ne_comm]

/-- A key holds what the last change to it put there, and without one what it held before. -/
theorem mem_foldl_apply : e ∈ (cs.foldl apply r).entries ↔
    cs.reverse.find? (·.key = e.1) = some (.register e.1 e.2) ∨
      (∀ c ∈ cs, c.key ≠ e.1) ∧ e ∈ r.entries := by
  induction cs using List.reverseRecOn with
  | nil => simp
  | append_singleton cs c ih =>
    rw [List.foldl_append, List.foldl_cons, List.foldl_nil, mem_apply, ih, List.reverse_append,
      List.reverse_singleton, List.singleton_append, List.find?_cons, List.forall_mem_append,
      List.forall_mem_singleton]
    by_cases hk : c.key = e.1
    · simp [hk]
    · have hc : c ≠ .register e.1 e.2 := by
        rintro rfl
        exact hk rfl
      simp [hk, hc]

end Change

/-- The registry, with the calls and the changes that led to it. -/
structure Scene (κ α : Type) where
  registry : Outstanding κ α
  called : List α
  changes : List (Change κ α)

namespace Scene

variable {reply : α → Scene κ α → List (Change κ α)} {s t : Scene κ α} {calls : List α}

/-- Cancels an entry. What it does to the registry may depend on all that came before. -/
def call (reply : α → Scene κ α → List (Change κ α)) (a : α) (s : Scene κ α) : Scene κ α where
  registry := (reply a s).foldl Change.apply s.registry
  called := s.called ++ [a]
  changes := s.changes ++ reply a s

/-- The changes that entries make when they are cancelled one after the other. -/
def replies (reply : α → Scene κ α → List (Change κ α)) : List α → Scene κ α → List (Change κ α)
  | [], _ => []
  | a :: as, s => reply a s ++ replies reply as (s.call reply a)

/-- From `s` to `t` the given entries were called, and only their own changes were made. -/
structure Called (reply : α → Scene κ α → List (Change κ α)) (s : Scene κ α) (calls : List α)
    (t : Scene κ α) : Prop where
  called : t.called = s.called ++ calls
  changes : t.changes = s.changes ++ replies reply calls s
  registry : t.registry = (replies reply calls s).foldl Change.apply s.registry

theorem called_nil : Called reply s [] s := ⟨by simp, by simp [replies], rfl⟩

theorem called_cons {a : α} (h : Called reply (s.call reply a) calls t) :
    Called reply s (a :: calls) t where
  called := by simp [h.called, call]
  changes := by simp [h.changes, call, replies]
  registry := by simp [h.registry, call, replies, List.foldl_append]

theorem called_foldl (reply : α → Scene κ α → List (Change κ α)) (order : List (κ × α))
    (s : Scene κ α) :
    Called reply s (order.map (·.2)) (order.foldl (fun s e => call reply e.2 s) s) := by
  induction order generalizing s with
  | nil => exact called_nil
  | cons e order ih => exact called_cons (ih _)

/-- The entry under each key answers by leaving, and does nothing else. -/
def Leave (reply : α → Scene κ α → List (Change κ α)) (entries : List (κ × α)) : Prop :=
  ∀ e ∈ entries, ∀ s, reply e.2 s = [.deregister e.1]

theorem replies_of_leave {entries : List (κ × α)} (h : Leave reply entries) (s : Scene κ α) :
    replies reply (entries.map (·.2)) s = entries.map fun e => .deregister e.1 := by
  induction entries generalizing s with
  | nil => rfl
  | cons e entries ih =>
    have he : reply e.2 s = [.deregister e.1] := h e (by simp) s
    have ht : Leave reply entries := fun e' h' => h e' (by simp [h'])
    simp [replies, he, ih ht]

/-- Departures only empty the registry, in whatever order the entries go. -/
theorem foldl_departures {order : List (κ × α)} (ho : order.Perm r.entries) :
    (order.map fun e => Change.deregister e.1).foldl Change.apply r = .empty := by
  refine eq_empty (List.eq_nil_iff_forall_not_mem.2 fun e he => ?_)
  obtain hl | ⟨hn, hm⟩ := Change.mem_foldl_apply.1 he
  · have hc := List.mem_of_find?_eq_some hl
    simp at hc
  · exact hn (.deregister e.1) (List.mem_map_of_mem (ho.mem_iff.2 hm)) rfl

end Scene

/-- A sweep calls each entry of its start once and no other, whether or not it is still registered
when its turn comes; it counts those entries, and leaves a registry that only they have changed. If
each of them just leaves, nothing is left in any order. -/
theorem cancelAll_calls_once (reply : α → Scene κ α → List (Change κ α)) (s : Scene κ α)
    (order : List (κ × α)) (ho : order.Perm s.registry.entries) :
    ∃ t calls, cancelAll (Scene.call reply) order s = (t, s.registry.size) ∧
      calls.Perm (s.registry.entries.map (·.2)) ∧ Scene.Called reply s calls t ∧
      (∀ e, e ∈ t.registry.entries ↔
        (Scene.replies reply calls s).reverse.find? (·.key = e.1) = some (.register e.1 e.2) ∨
          (∀ c ∈ Scene.replies reply calls s, c.key ≠ e.1) ∧ e ∈ s.registry.entries) ∧
      (Scene.Leave reply s.registry.entries → t.registry = .empty) := by
  have hc := Scene.called_foldl reply order s
  refine ⟨_, _, ?_, ho.map _, hc, fun e => ?_, fun hl => ?_⟩
  · rw [cancelAll, ho.length_eq, size]
  · rw [hc.registry]
    exact Change.mem_foldl_apply
  · have hl' : Scene.Leave reply order := fun e he => hl e (ho.mem_iff.1 he)
    rw [hc.registry, Scene.replies_of_leave hl', Scene.foldl_departures ho]

/-- The first of three takes the third out, and puts newcomers in the place of the second and
beside it. -/
def Scene.unruly : Nat → Scene Nat Nat → List (Change Nat Nat)
  | 10, _ => [.deregister 3, .register 2 21, .register 4 40]
  | 20, _ => [.deregister 2]
  | _, _ => []

theorem cancelAll_calls_once_unruly :
    let r : Outstanding Nat Nat := ((empty.register 1 10).register 2 20).register 3 30
    let order := [(1, 10), (2, 20), (3, 30)]
    order.Perm r.entries ∧
      ∃ t, cancelAll (Scene.call Scene.unruly) order ⟨r, [], []⟩ = (t, 3) ∧
        [10, 20, 30].Perm (r.entries.map (·.2)) ∧ t.called = [10, 20, 30] ∧
        t.registry.entries = [(4, 40), (1, 10)] := by
  intro r order
  have ho : order.Perm r.entries := by decide
  obtain ⟨t, calls, ht, hp, hc, -⟩ := cancelAll_calls_once Scene.unruly ⟨r, [], []⟩ order ho
  obtain rfl : _ = t := congrArg Prod.fst ht
  obtain rfl : [10, 20, 30] = calls := hc.called
  exact ⟨ho, _, ht, hp, hc.called, rfl⟩

example :
    (cancelAll (Scene.call fun k _ => [.deregister k]) [(2, 2), (1, 1)]
      ⟨(empty.register 1 1).register 2 2, [], []⟩).1.registry.isEmpty = true := by
  rfl

end Outstanding

namespace Scenario.Sweeps

open Outstanding (Change Scene)

def Effect.change : Effect → Change Nat Entry
  | deregister id => .deregister id
  | register id entry => .register id entry

namespace Entry

def reply : Entry → Scene Nat Entry → List (Change Nat Entry)
  | probe _ effects, _ => effects.map Effect.change
  | token _, _ => []

def label? : Entry → Option Nat
  | probe label _ => some label
  | token _ => none

end Entry

namespace World

variable {w₀ w : World} {s : Scene Nat Entry}

theorem foldl_apply (effects : List Effect) (w : World) :
    effects.foldl apply w =
      { w with registry := (effects.map Effect.change).foldl Change.apply w.registry } := by
  induction effects generalizing w with
  | nil => rfl
  | cons effect effects ih =>
    rw [List.foldl_cons, ih]
    cases effect <;> rfl

/-- The scripted world is at a scene that began in `w₀`. -/
structure Shows (w₀ w : World) (s : Scene Nat Entry) : Prop where
  registry : w.registry = s.registry
  cancelled : w.cancelled = w₀.cancelled ++ s.called.filterMap Entry.label?

theorem shows_cancel (h : Shows w₀ w s) (e : Entry) :
    Shows w₀ (w.cancel e) (s.call Entry.reply e) := by
  obtain ⟨hr, hc⟩ := h
  cases e with
  | probe label effects =>
    rw [cancel, foldl_apply]
    constructor
    · simp [Scene.call, Entry.reply, hr]
    · simp [Scene.call, Entry.label?, hc]
  | token n =>
    constructor
    · simp [cancel, Scene.call, Entry.reply, hr]
    · simp [cancel, Scene.call, Entry.label?, hc]

theorem shows_foldl (h : Shows w₀ w s) (order : List (Nat × Entry)) :
    Shows w₀ (order.foldl (fun w e => w.cancel e.2) w)
      (order.foldl (fun s e => s.call Entry.reply e.2) s) := by
  induction order generalizing w s with
  | nil => exact h
  | cons e order ih => exact ih (shows_cancel h e.2)

/-- A scripted sweep, in the order of the keys, is one of those above. -/
theorem sweep_calls_once (w : World) :
    ∃ calls, calls.Perm (w.registry.entries.map (·.2)) ∧ w.sweep.2 = w.registry.size ∧
      w.sweep.1.cancelled = w.cancelled ++ calls.filterMap Entry.label? ∧
      w.sweep.1.registry = (Scene.replies Entry.reply calls ⟨w.registry, [], []⟩).foldl
        Change.apply w.registry := by
  let order := w.registry.entries.mergeSort fun a b => a.1 ≤ b.1
  have ho : order.Perm w.registry.entries := List.mergeSort_perm _ _
  have hs : Shows w w ⟨w.registry, [], []⟩ := ⟨rfl, by simp⟩
  have hf := shows_foldl hs order
  have hc := Scene.called_foldl Entry.reply order ⟨w.registry, [], []⟩
  refine ⟨_, ho.map _, ho.length_eq, ?_, hf.registry.trans hc.registry⟩
  rw [← List.nil_append (order.map _), ← hc.called]
  exact hf.cancelled

end World
end Scenario.Sweeps
end ScatterGather
