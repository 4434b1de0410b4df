import Spotter.Domain.Instance
import Spotter.Ports.Errors

/-! # The sink port

A sink receives incremental pushes, full pushes, and full operations that carry their retry
metadata. What a wrapped sink answers, and what a `Revalidate` function answers at the moment it
runs, are inputs of the model: the environment of one call.
-/

namespace Spotter.Ports

open Domain

inductive OperateType where
  | sync
  | syncAll
deriving DecidableEq

/-- The typed operation of the multi-sink worker. `revalidate` says whether the operation has a
`Revalidate` function; each call of it answers anew, so its answers are in `SinkEnv`. -/
structure RetryOperation where
  sink : String := ""
  operate : OperateType := .syncAll
  provider : String := ""
  scope : String := ""
  batchID : String := ""
  identity : String := ""
  revision : ℤ := 0
  sequence : ℕ := 0
  trigger : ℤ := 0
  instances : Instances := []
  revalidate : Bool := false
  emptyConfirmed : Bool := false
deriving DecidableEq

/-- What one call of a `Revalidate` function answers: the rebuilt snapshot and its `ok`. -/
structure Revalidation where
  instances : Instances := []
  ok : Bool := true
deriving DecidableEq

/-- A call that reaches a wrapped sink. -/
inductive InnerCall where
  | push (trigger : ℤ) (items : List Instance)
  | pushAll (trigger : ℤ) (items : List Instance)
  | pushAllOperation (operation : RetryOperation)
deriving DecidableEq

namespace InnerCall

/-- The call replaces the sink's whole view of its scope. -/
def full : InnerCall → Bool
  | .push _ _ => false
  | .pushAll _ _ => true
  | .pushAllOperation _ => true

def items : InnerCall → List Instance
  | .push _ items => items
  | .pushAll _ items => items
  | .pushAllOperation operation => operation.instances.reduceOption

end InnerCall

theorem silent_foreign (_ : InnerCall) (err : GoError) (answered : none = some err) : err.isStale = false := by
  cases answered

/-- The environment of one call: the answer of the operation's `Revalidate` function, and the
answer of the wrapped sink. Wrapped sinks are registry clients, which cannot produce the ordering
gate's private sentinel. -/
structure SinkEnv where
  answer : Revalidation := {}
  inner : InnerCall → Option GoError := fun _ => none
  foreign : ∀ call err, inner call = some err → err.isStale = false := by exact silent_foreign

/-- The wrapped sink acknowledges every call. -/
def SinkEnv.acknowledging : SinkEnv := {}

end Spotter.Ports
