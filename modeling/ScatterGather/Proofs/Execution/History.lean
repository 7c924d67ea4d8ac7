import ScatterGather.Execution.Step
import ScatterGather.Proofs.Run

/-! What has happened in a run: the calls out of the execution, and what it was told. -/
namespace ScatterGather

variable {V : Type}

def Event.dispatched? : Event V → Option Nat
  | .dispatched i => some i
  | _ => none

def Event.stopped? : Event V → Option Nat
  | .stopped i => some i
  | _ => none

def Event.delivered? : Event V → Option (Outcome V)
  | .delivered o => some o
  | _ => none

/-- The sub queries passed to the downstream executor, in order. -/
def dispatches (events : List (Event V)) : List Nat := events.filterMap Event.dispatched?

/-- The sub queries whose cancel hook was called. -/
def stops (events : List (Event V)) : List Nat := events.filterMap Event.stopped?

/-- The outcomes sent to the caller. -/
def deliveries (events : List (Event V)) : List (Outcome V) := events.filterMap Event.delivered?

@[simp] theorem dispatches_append (es fs : List (Event V)) :
    dispatches (es ++ fs) = dispatches es ++ dispatches fs := List.filterMap_append

@[simp] theorem stops_append (es fs : List (Event V)) :
    stops (es ++ fs) = stops es ++ stops fs := List.filterMap_append

@[simp] theorem deliveries_append (es fs : List (Event V)) :
    deliveries (es ++ fs) = deliveries es ++ deliveries fs := List.filterMap_append

def Frame.merging? : Frame V → Option (List V)
  | .merging rs => some rs
  | _ => none

/-- The lists of results that the merger is at work on. -/
def mergings (fs : List (Frame V)) : List (List V) := fs.filterMap Frame.merging?

/-- Whether a result is reported from outside, and not by the driver. -/
def Move.isReport : Move V → Bool
  | .success _ _ => true
  | .failure _ _ => true
  | _ => false

namespace Execution

/-- The result that a move reports, directly or out of the inbox, and for which sub query. -/
def report? (e : Execution V) : Move V → Option (Nat × SubResult V)
  | .success i v => some (i, .ok v)
  | .failure i error => some (i, .error error)
  | .receive => e.inbox.head?
  | _ => none

theorem report?_receive {e : Execution V} {i : Nat} {r : SubResult V}
    {rest : List (Nat × SubResult V)} (h : e.inbox = (i, r) :: rest) :
    e.report? .receive = some (i, r) := by
  rw [report?, h]
  rfl

/-- The sub query whose handle the downstream executor returns. -/
def handle? (e : Execution V) : Move V → Option Nat
  | .handed _ =>
    match e.calls with
    | .dispatching i :: _ => some i
    | _ => none
  | _ => none

/-- The sub queries that were reported in a run, in order. -/
def reports (e₀ : Execution V) (ms : List (Move V)) : List Nat :=
  (along step report? e₀ ms).map Prod.fst

/-- Each sub query is reported once at most, and only after it was passed on. -/
def Orderly (e₀ : Execution V) (ms : List (Move V)) : Prop :=
  ∀ before m after e events i r, ms = before ++ m :: after →
    e₀.run before = some (e, events) → e.report? m = some (i, r) →
    i ∈ dispatches events ∧ i ∉ reports e₀ before

variable {e e' e₀ : Execution V} {m : Move V} {ms : List (Move V)}
  {events events' : List (Event V)}

theorem reports_snoc (h : Trace step e₀ ms e events) (hs : e.step m = some (e', events')) :
    reports e₀ (ms ++ [m]) = reports e₀ ms ++ (e.report? m).toList.map Prod.fst := by
  rw [reports, h.along_snoc hs, List.map_append]
  rfl

theorem orderly_iff : Orderly e₀ ms ↔ Throughout step (fun before e events m =>
    ∀ i r, e.report? m = some (i, r) → i ∈ dispatches events ∧ i ∉ reports e₀ before) e₀ ms := by
  constructor
  · intro h before m after e events hm hr i r
    exact h before m after e events i r hm hr
  · intro h before m after e events i r hm hr
    exact h before m after e events hm hr i r

theorem orderly_nil (e₀ : Execution V) : Orderly e₀ [] := orderly_iff.2 (throughout_nil _ e₀)

theorem orderly_snoc (h : Trace step e₀ ms e events) :
    Orderly e₀ (ms ++ [m]) ↔ Orderly e₀ ms ∧
      ∀ i r, e.report? m = some (i, r) → i ∈ dispatches events ∧ i ∉ reports e₀ ms := by
  rw [orderly_iff, orderly_iff, h.throughout_snoc]

/-- Three sub queries, two at a time, whose results are added up. -/
def sample : Execution Nat :=
  let q := Query.new ⟨.ofNat 1⟩ ⟨0, 10⟩
  new ⟨.ofNat 2⟩ q [q, q, q] 2 ⟨"sum", fun parts => .value (parts.foldl Nat.add 0)⟩

end Execution
end ScatterGather
