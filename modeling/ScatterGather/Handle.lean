import ScatterGather.Error
/-!
The two ends of one sub query's result: a handle that can be looked at once and cancelled, and a
completer that can be used once. Both share a token that only ever gets cancelled.
-/
namespace ScatterGather

/-- What has become of the completer. -/
inductive Completer (V : Type)
  | pending
  | used (result : Except QueryError V)
  | dropped

structure Handle (V : Type) where
  completer : Completer V
  /-- Whether the handle has been neither dropped nor looked at. -/
  isHeld : Bool
  isCancelled : Bool

namespace Handle

variable {V : Type}

def channel : Handle V := ⟨.pending, true, false⟩

/-- A handle that is already resolved. -/
def ready (r : Except QueryError V) : Handle V := ⟨.used r, true, false⟩

def cancel (h : Handle V) : Handle V := { h with isCancelled := true }

/-- Uses the completer up, and says whether anybody still listens. -/
def complete (r : Except QueryError V) (h : Handle V) : Option (Handle V × Bool) :=
  match h.completer with
  | .pending => some ({ h with completer := .used r }, h.isHeld)
  | _ => none

def dropCompleter (h : Handle V) : Option (Handle V) :=
  match h.completer with
  | .pending => some { h with completer := .dropped }
  | _ => none

def drop (h : Handle V) : Handle V := { h with isHeld := false }

/-- What a look at the handle finds; `none` while it is pending. -/
def result? (h : Handle V) : Option (Except QueryError V) :=
  match h.completer with
  | .pending => none
  | .used r => some r
  | .dropped => some (.error .unfinished)

end Handle
end ScatterGather
