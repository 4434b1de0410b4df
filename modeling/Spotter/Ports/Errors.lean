import Mathlib.Data.List.Basic

/-! # Error values and their classification

An error is a tree: leaves are the messages and sentinels the code creates, inner nodes are
`%w` wrapping, `errors.Join`, the fan-out's per-sink aggregate, and error types that carry their
own `Permanent` method. `errors.Is`, `errors.As` and the retry classification walk this tree.
A formatted message keeps its format and arguments, so no rendering has to be modelled.
-/

namespace Spotter.Ports

inductive GoError where
  /-- The sentinel `errStaleFullPush`. -/
  | staleFullPush
  | errorf (format : String) (arguments : List String)
  | wrapped (format : String) (cause : GoError)
  | joined (causes : List GoError)
  /-- An error type with a `Permanent` method and the errors it unwraps to. -/
  | classified (text : String) (permanent : Bool) (causes : List GoError)
  /-- A `FanoutError`: the failed sinks by name, in declaration order. -/
  | fanout (failures : List (String × GoError))

namespace GoError

mutual

/-- `errors.Is(err, errStaleFullPush)`. -/
def isStale : GoError → Bool
  | .staleFullPush => true
  | .errorf _ _ => false
  | .wrapped _ cause => isStale cause
  | .joined causes => anyStale causes
  | .classified _ _ causes => anyStale causes
  | .fanout failures => anyFailureStale failures

def anyStale : List GoError → Bool
  | [] => false
  | cause :: rest => isStale cause || anyStale rest

def anyFailureStale : List (String × GoError) → Bool
  | [] => false
  | failure :: rest => failureStale failure || anyFailureStale rest

def failureStale : String × GoError → Bool
  | (_, err) => isStale err

end

mutual

/-- `errors.As(err, &fanoutErr)`: the first fan-out aggregate met from the root down. -/
def asFanout : GoError → Option (List (String × GoError))
  | .staleFullPush => none
  | .errorf _ _ => none
  | .wrapped _ cause => asFanout cause
  | .joined causes => firstFanout causes
  | .classified _ _ causes => firstFanout causes
  | .fanout failures => some failures

def firstFanout : List GoError → Option (List (String × GoError))
  | [] => none
  | cause :: rest => (asFanout cause).or (firstFanout rest)

end

mutual

/-- `errors.As` for a type with a `Permanent` method, and what that method says: the first such error met from the root down. -/
def asPermanent : GoError → Option Bool
  | .staleFullPush => none
  | .errorf _ _ => none
  | .wrapped _ cause => asPermanent cause
  | .joined causes => firstPermanent causes
  | .classified _ permanent _ => some permanent
  | .fanout failures => firstFailurePermanent failures

def firstPermanent : List GoError → Option Bool
  | [] => none
  | cause :: rest => (asPermanent cause).or (firstPermanent rest)

def firstFailurePermanent : List (String × GoError) → Option Bool
  | [] => none
  | failure :: rest => (failureAsPermanent failure).or (firstFailurePermanent rest)

def failureAsPermanent : String × GoError → Option Bool
  | (_, err) => asPermanent err

end

mutual

/-- `IsPermanentError`: an own classification decides; an aggregate is permanent when it is not
empty and every failure in it is; anything unknown stays retryable. -/
def isPermanentError : GoError → Bool
  | .staleFullPush => false
  | .errorf _ _ => false
  | .wrapped _ cause => isPermanentError cause
  | .joined causes => !causes.isEmpty && allPermanent causes
  | .classified _ permanent _ => permanent
  | .fanout failures => !failures.isEmpty && allFailuresPermanent failures

def allPermanent : List GoError → Bool
  | [] => true
  | cause :: rest => isPermanentError cause && allPermanent rest

def allFailuresPermanent : List (String × GoError) → Bool
  | [] => true
  | failure :: rest => failurePermanent failure && allFailuresPermanent rest

def failurePermanent : String × GoError → Bool
  | (_, err) => isPermanentError err

end

variable (failures : List (String × GoError))

theorem anyFailureStale_eq :
    anyFailureStale failures = failures.any (fun failure => failure.2.isStale) := by
  induction failures with
  | nil => rfl
  | cons failure rest ih =>
    obtain ⟨sink, err⟩ := failure
    rw [anyFailureStale, failureStale, ih, List.any_cons]

theorem allPermanent_eq (causes : List GoError) : allPermanent causes = causes.all isPermanentError := by
  induction causes with
  | nil => rfl
  | cons cause rest ih => rw [allPermanent, ih, List.all_cons]

theorem allFailuresPermanent_eq :
    allFailuresPermanent failures = failures.all fun failure => failure.2.isPermanentError := by
  induction failures with
  | nil => rfl
  | cons failure rest ih =>
    obtain ⟨sink, err⟩ := failure
    rw [allFailuresPermanent, failurePermanent, ih, List.all_cons]

theorem firstPermanent_eq (causes : List GoError) : firstPermanent causes = causes.findSome? asPermanent := by
  induction causes with
  | nil => rfl
  | cons cause rest ih =>
    rw [firstPermanent, ih, List.findSome?_cons]
    cases asPermanent cause with
    | none => rfl
    | some verdict => rfl

theorem firstFailurePermanent_eq :
    firstFailurePermanent failures = failures.findSome? fun failure => failure.2.asPermanent := by
  induction failures with
  | nil => rfl
  | cons failure rest ih =>
    obtain ⟨sink, err⟩ := failure
    rw [firstFailurePermanent, failureAsPermanent, ih, List.findSome?_cons]
    cases asPermanent err with
    | none => rfl
    | some verdict => rfl

@[simp] theorem isStale_fanout :
    (fanout failures).isStale = failures.any (fun failure => failure.2.isStale) := by
  rw [isStale, anyFailureStale_eq]

end GoError

end Spotter.Ports
