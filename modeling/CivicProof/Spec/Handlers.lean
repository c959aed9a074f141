import CivicProof.Spec.Queue

/-!
# The handlers of jobs

The registry of `handlers.py`, and `dispatch`, which looks a job's handler up in it. The steps of
the queue are restricted to what the registry lets happen: `_dispatch` returns only from a handler
that was found.
-/

namespace CivicProof

open Transact

/-- `_REGISTRY`: handlers of any kind `H`, by job kind and adapter. -/
abbrev HandlerRegistry (H : Type) := JobKind × Option String → Option H

variable {H : Type}

/-- `register`. -/
def HandlerRegistry.register (registry : HandlerRegistry H) (kind : JobKind) (adapter : Option String)
    (fn : H) : HandlerRegistry H := Function.update registry (kind, adapter) (some fn)

/-- The registry before any module has called `register`, and after `clear_registry`. -/
def HandlerRegistry.empty (H : Type) : HandlerRegistry H := fun _ => none

/-- `job.payload.get("adapter")`, where the payload is a dict. -/
def jobAdapter : Json → Json
  | .obj fields => (fields.lookup "adapter").getD .null
  | _ => .null

/-- The handler that `dispatch` runs; `none` where it raises, for want of a handler or because the
adapter cannot be a key. -/
def findHandler (registry : HandlerRegistry H) (kind : JobKind) (payload : Json) : Option H :=
  match jobAdapter payload with
  | .str adapter => (registry (kind, some adapter)).or (registry (kind, none))
  | .list _ | .obj _ => none
  -- no handler is registered under another key
  | _ => registry (kind, none)

/-- `dispatch` finds a handler for a job. -/
def JobRow.HasHandler (registry : HandlerRegistry H) (row : JobRow) : Prop :=
  findHandler registry row.kind row.payload ≠ none

variable {W : Type} [DecidableEq W]

/-- A step of the queue whose workers dispatch by a registry. -/
structure HandledStep (registry : HandlerRegistry H) (s : JobQueue W) (e : QueueEvent W)
    (s' : JobQueue W) : Prop where
  step : QueueStep s e s'
  found : ∀ w j, e = .returns w j → ∀ row ∈ (s.jobs j).committed, row.HasHandler registry

end CivicProof
