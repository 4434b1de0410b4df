import Spotter.Ports.Sink

/-! # The ordered sink

Each registered sink is wrapped in a write gate that keeps, per identity, the last revision it
accepted and whether that identity is gone. A push is filtered against this ledger, forwarded to
the wrapped sink, and recorded only after the wrapped sink acknowledged it.

A full push holds the gate exclusively and an incremental push holds the locks of its identities
from its first ledger read to its last ledger write, so calls are serial per identity and one call
is one transition here.
-/

namespace Spotter.Worker

open Library Domain Ports

/-- A ledger entry: the last accepted revision and whether the identity was removed with it. -/
structure IdentityRevision where
  revision : ℤ
  tombstone : Bool
deriving DecidableEq

structure OrderedSink where
  /-- The wrapped sink implements the typed full operation. -/
  typed : Bool
  latest : FiniteMap String IdentityRevision := ∅
  identityScope : FiniteMap String String := ∅
  closed : Bool := false
  lastFullScope : String := ""
  lastFullBatchID : String := ""
deriving DecidableEq

/-- The kind of push that runs through the gate. -/
structure PushMode where
  full : Bool
  trustedComplete : Bool
  revalidated : Bool
deriving DecidableEq

variable (trigger : ℤ)

/-- The revision an item is ordered by: its own, or the trigger when it has none. -/
def effectiveRevision (item : Instance) : ℤ :=
  if item.reversion = 0 then trigger else item.reversion

/-- The ledger entry that accepting an item leaves behind. -/
def entryOf (item : Instance) : IdentityRevision :=
  ⟨effectiveRevision trigger item, item.offline⟩

/-- `staleRevision`: a tombstone beats its own revision, a live entry does not. -/
def IdentityRevision.staleRevision (previous : IdentityRevision) (revision : ℤ) : Bool :=
  (previous.tombstone && decide (revision ≤ previous.revision)) ||
    (!previous.tombstone && decide (revision < previous.revision))

/-- `trustedEqualRevisionHeal`: a revalidated complete snapshot may revive a tombstone at the
revision it was written with. -/
def IdentityRevision.trustedEqualRevisionHeal (previous : IdentityRevision) (mode : PushMode)
    (trigger : ℤ) (item : Instance) : Bool :=
  mode.full && mode.trustedComplete && mode.revalidated && previous.tombstone &&
    decide (effectiveRevision trigger item = previous.revision) && !item.offline

/-- The ledger judges the item superseded. -/
def staleItem (latest : FiniteMap String IdentityRevision) (mode : PushMode) (trigger : ℤ)
    (item : Instance) : Bool :=
  match latest.lookup (identityKey item) with
  | none => false
  | some previous =>
    previous.staleRevision (effectiveRevision trigger item) &&
      !previous.trustedEqualRevisionHeal mode trigger item

/-! ## The filtering loop -/

/-- The accumulators of the loop over the pushed items. -/
structure Admission where
  filtered : List Instance := []
  accepted : FiniteMap String IdentityRevision := ∅
  seen : Finset String := ∅
  stale : Bool := false

def duplicateIdentity (key : String) : GoError :=
  .errorf "worker: duplicate identity %q in full push" [key]

def filterItem (latest : FiniteMap String IdentityRevision) (mode : PushMode) (trigger : ℤ)
    (state : Admission) (item : Instance) : Except GoError Admission :=
  let key := identityKey item
  if mode.full ∧ key ∈ state.seen then .error (duplicateIdentity key)
  else
    let seen := if mode.full then insert key state.seen else state.seen
    if staleItem latest mode trigger item then .ok { state with seen := seen, stale := true }
    else .ok
      { state with
        filtered := state.filtered ++ [item]
        accepted := state.accepted.insert key (entryOf trigger item)
        seen := seen }

def filterItems (latest : FiniteMap String IdentityRevision) (mode : PushMode) (trigger : ℤ) :
    Admission → Instances → Except GoError Admission
  | state, [] => .ok state
  | state, none :: rest => filterItems latest mode trigger state rest
  | state, some item :: rest =>
    match filterItem latest mode trigger state item with
    | .error err => .error err
    | .ok next => filterItems latest mode trigger next rest

/-! ## The gate -/

def sinkClosed : GoError := .errorf "worker: sink is closed" []

/-- The scope an operation writes under; a missing operation and a missing scope write under none. -/
def operationScope (operation : Option RetryOperation) : String :=
  (operation.map RetryOperation.scope).getD ""

variable (operation : RetryOperation)

/-- The operation is an unconfirmed empty snapshot of a scope, which is a no-op. -/
def unconfirmedEmpty : Bool :=
  decide (operation.scope ≠ "" ∧ operation.instances = [] ∧ operation.emptyConfirmed = false)

/-- A full operation may delete what it omits: its scope is explicit, and an empty snapshot is confirmed. -/
def destructiveAuthorized : Bool :=
  decide (operation.scope ≠ "" ∧ (operation.instances ≠ [] ∨ operation.emptyConfirmed = true))

variable (s : OrderedSink)

namespace OrderedSink

/-- The scope recorded for an identity, empty when no scoped full operation accepted it. -/
def scopeOf (key : String) : String := (s.identityScope.lookup key).getD ""

/-- Some live identity of the ledger is missing from the snapshot. -/
def omitsLive (seen : Finset String) : Bool :=
  decide (∃ key ∈ s.latest.keys, key ∉ seen ∧ (s.latest.lookup key).any (fun state => !state.tombstone))

/-- The call the wrapped sink receives. The recording decorator forwards a typed operation to a
wrapped sink that knows it and degrades it to a plain full push otherwise. -/
def innerCall (filtered : List Instance) (mode : PushMode) :
    Option RetryOperation → InnerCall
  | some operation =>
    if mode.full then
      if s.typed then .pushAllOperation { operation with instances := filtered.map some }
      else .pushAll operation.trigger filtered
    else .push trigger filtered
  | none => if mode.full then .pushAll trigger filtered else .push trigger filtered

/-- A trusted complete snapshot tombstones every live identity it omits; under a scope, only the
identities recorded under the same scope. -/
def tombstoneOmitted (scope : String) (seen : Finset String) :
    FiniteMap String IdentityRevision :=
  s.latest.mapValues fun key state =>
    if state.tombstone ∨ (scope ≠ "" ∧ s.scopeOf key ≠ scope) ∨ key ∈ seen then state
    else ⟨state.revision, true⟩

/-- The ledger after the wrapped sink acknowledged the push. -/
def commit (mode : PushMode) (operation : Option RetryOperation) (admission : Admission) : OrderedSink :=
  let scope := operationScope operation
  let kept := if mode.full && mode.trustedComplete then s.tombstoneOmitted scope admission.seen else s.latest
  { s with
    latest := admission.accepted ∪ kept
    identityScope := if scope ≠ "" then admission.accepted.mapValues (fun _ _ => scope) ∪ s.identityScope
      else s.identityScope }

end OrderedSink

/-- What one call leaves behind: the gate, the call that reached the wrapped sink, the error. -/
structure Outcome where
  sink : OrderedSink
  call : Option InnerCall := none
  err : Option GoError := none

namespace OrderedSink

variable (items : Instances)

def runLocked (mode : PushMode) (operation : Option RetryOperation) (env : SinkEnv) : Outcome :=
  if s.closed then { sink := s, err := some sinkClosed }
  else match filterItems s.latest mode trigger {} items with
    | .error err => { sink := s, err := some err }
    | .ok admission =>
      if mode.full && !mode.trustedComplete && s.omitsLive admission.seen then
        { sink := s, err := some .staleFullPush }
      else if mode.full && admission.stale then { sink := s, err := some .staleFullPush }
      else if admission.filtered.isEmpty && !items.isEmpty then { sink := s }
      else
        let call := s.innerCall trigger admission.filtered mode operation
        match env.inner call with
        | some err => { sink := s, call := some call, err := some err }
        | none => { sink := s.commit mode operation admission, call := some call }

def push (env : SinkEnv) : Outcome :=
  s.runLocked trigger items ⟨false, false, false⟩ none env

def pushAll (env : SinkEnv) : Outcome :=
  s.runLocked trigger items ⟨true, false, false⟩ none env

/-- Rebuild the snapshot inside the gate and push it as a complete one, without an operation. -/
def pushAllWithRevalidate (revalidate : Bool) (env : SinkEnv) : Outcome :=
  if s.closed then { sink := s, err := some sinkClosed }
  else if revalidate then
    if env.answer.ok then s.runLocked trigger env.answer.instances ⟨true, true, true⟩ none env
    else { sink := s }
  else s.runLocked trigger items ⟨true, true, false⟩ none env

/-- The part of `PushAllOperation` after revalidation. -/
def runOperation (revalidated : Bool) (env : SinkEnv) :
    Outcome :=
  if unconfirmedEmpty operation then { sink := s }
  else
    let gate := { s with lastFullScope := operation.scope, lastFullBatchID := operation.batchID }
    gate.runLocked operation.trigger operation.instances ⟨true, destructiveAuthorized operation, revalidated⟩
      (some operation) env

def pushAllOperation (env : SinkEnv) : Outcome :=
  if s.closed then { sink := s, err := some sinkClosed }
  else if operation.revalidate then
    if env.answer.ok then s.runOperation { operation with instances := env.answer.instances } true env
    else { sink := s }
  else s.runOperation operation false env

/-- Closing drops the ledger; every later call fails. -/
def close : OrderedSink :=
  if s.closed then s else { s with closed := true, latest := ∅, identityScope := ∅ }

end OrderedSink

/-- The calls an ordered sink receives. -/
inductive SinkOp where
  | push (trigger : ℤ) (items : Instances)
  | pushAll (trigger : ℤ) (items : Instances)
  | pushAllWithRevalidate (trigger : ℤ) (items : Instances) (revalidate : Bool)
  | pushAllOperation (operation : RetryOperation)
  | close

/-- A call together with the environment it runs in. -/
abbrev SinkStep := SinkOp × SinkEnv

namespace OrderedSink

def apply : SinkStep → Outcome
  | (.push trigger items, env) => s.push trigger items env
  | (.pushAll trigger items, env) => s.pushAll trigger items env
  | (.pushAllWithRevalidate trigger items revalidate, env) =>
    s.pushAllWithRevalidate trigger items revalidate env
  | (.pushAllOperation operation, env) => s.pushAllOperation operation env
  | (.close, _) => { sink := s.close }

/-- A closed gate stays closed and lets no call through. -/
theorem apply_closed {s : OrderedSink} (closed : s.closed = true) (step : SinkStep) :
    (s.apply step).sink.closed = true ∧ (s.apply step).call = none := by
  obtain ⟨op, env⟩ := step
  cases op with
  | push trigger items | pushAll trigger items => simp [apply, push, pushAll, runLocked, closed]
  | pushAllWithRevalidate trigger items revalidate => simp [apply, pushAllWithRevalidate, closed]
  | pushAllOperation operation => simp [apply, pushAllOperation, closed]
  | close => simp [apply, close, closed]

/-- The gate after a history of calls. -/
def after (history : List SinkStep) : OrderedSink :=
  history.foldl (fun s step => (s.apply step).sink) s

end OrderedSink

end Spotter.Worker
