/-!
The registry of executions without an outcome, for bulk cancellation. Entries are found by key; the
order of a sweep is up to the caller.
-/
namespace ScatterGather

structure Outstanding (κ α : Type) where
  entries : List (κ × α)
  nodup : (entries.map (·.1)).Nodup

namespace Outstanding

variable {κ α : Type} [DecidableEq κ]

def empty : Outstanding κ α := ⟨[], .nil⟩

def keys (r : Outstanding κ α) : List κ := r.entries.map (·.1)

def size (r : Outstanding κ α) : Nat := r.entries.length

def isEmpty (r : Outstanding κ α) : Bool := r.entries.isEmpty

def contains (r : Outstanding κ α) (k : κ) : Bool := k ∈ r.keys

/-- Drops the entry of a key. -/
def deregister (r : Outstanding κ α) (k : κ) : Outstanding κ α :=
  ⟨r.entries.filter fun e => e.1 ≠ k, r.nodup.sublist (List.filter_sublist.map _)⟩

theorem not_mem_keys_deregister (r : Outstanding κ α) (k : κ) : k ∉ (r.deregister k).keys := by
  simp [deregister, keys]

/-- An entry replaces an earlier one under its key. -/
def register (r : Outstanding κ α) (k : κ) (a : α) : Outstanding κ α :=
  ⟨(k, a) :: (r.deregister k).entries,
    List.nodup_cons.2 ⟨r.not_mem_keys_deregister k, (r.deregister k).nodup⟩⟩

/-- Cancels the given entries one after the other, whatever the cancellations do to the state, and
counts them. -/
def cancelAll {σ : Type} (cancel : α → σ → σ) (order : List (κ × α)) (s : σ) : σ × Nat :=
  (order.foldl (fun s e => cancel e.2 s) s, order.length)

end Outstanding
end ScatterGather
