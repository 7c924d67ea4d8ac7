import ScatterGather.Outstanding
/-!
Scripts over a registry whose entries answer a cancellation with changes to the registry, or are
tokens that only remember it.
-/
namespace ScatterGather.Scenario.Sweeps

mutual

inductive Entry
  | probe (label : Nat) (effects : List Effect)
  | token (number : Nat)

/-- What a probe does to the registry when it is cancelled. -/
inductive Effect
  | deregister (id : Nat)
  | register (id : Nat) (entry : Entry)

end

structure World where
  registry : Outstanding Nat Entry
  /-- The labels of the probes that were cancelled, one for each time. -/
  cancelled : List Nat
  /-- Each token's key and whether it is cancelled, in the order of registration. -/
  tokens : List (Nat × Bool)

namespace World

def empty : World := ⟨.empty, [], []⟩

def apply (w : World) : Effect → World
  | .deregister id => { w with registry := w.registry.deregister id }
  | .register id e => { w with registry := w.registry.register id e }

/-- The effects of a probe come after the cancellation was noted. -/
def cancel : Entry → World → World
  | .probe label effects, w =>
    effects.foldl apply { w with cancelled := w.cancelled ++ [label] }
  | .token n, w => { w with tokens := w.tokens.modify n fun t => (t.1, true) }

/-- A sweep in ascending order of the keys. -/
def sweep (w : World) : World × Nat :=
  Outstanding.cancelAll cancel (w.registry.entries.mergeSort fun a b => a.1 ≤ b.1) w

end World

inductive Step
  /-- A probe that may remove itself and then register another one, which removes itself. -/
  | register (id : Nat) (removes : Bool) (adds : Option Nat)
  | registerToken (id : Nat)
  | tokenCancelled (id : Nat)
  | deregister (id : Nat)
  | contains (id : Nat)
  | cancelAll

inductive Answer
  | none
  | bool (b : Bool)
  | count (n : Nat)

def selfRemoving (id : Nat) : Entry := .probe id [.deregister id]

def effectsOf (id : Nat) (removes : Bool) (adds : Option Nat) : List Effect :=
  (if removes then [.deregister id] else []) ++
    (adds.map fun n => Effect.register n (selfRemoving n)).toList

namespace World

def step (w : World) : Step → Answer × World
  | .register id removes adds =>
    (.none, w.apply (.register id (.probe id (effectsOf id removes adds))))
  | .registerToken id =>
    (.none, { w with tokens := w.tokens ++ [(id, false)] }.apply
      (.register id (.token w.tokens.length)))
  | .tokenCancelled id =>
    match w.tokens.reverse.find? fun t => t.1 = id with
    | some t => (.bool t.2, w)
    | none => (.none, w)
  | .deregister id => (.bool (w.registry.contains id), w.apply (.deregister id))
  | .contains id => (.bool (w.registry.contains id), w)
  | .cancelAll =>
    let (w, n) := w.sweep
    (.count n, w)

/-- The keys in the registry, ascending. -/
def ids (w : World) : List Nat := w.registry.keys.mergeSort

/-- How often each label was cancelled, for the labels that were. -/
def cancels (w : World) : List (Nat × Nat) :=
  w.cancelled.mergeSort.eraseDups.map fun l => (l, w.cancelled.count l)

end World
end ScatterGather.Scenario.Sweeps
