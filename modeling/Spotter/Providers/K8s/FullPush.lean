import Spotter.Providers.K8s.Provider

/-! # Full pushes and their retries

The provider's ticks, the handling of their events, the sinks' gates and the retry queue as one system.
A full operation takes a sink's gate, rebuilds its snapshot from the cache, and only then runs: these are
two steps, and anything may happen between them except to the gate. The handler's and the cycle's
bookkeeping is one step each.

Sinks answer as they like, so which of an event's sinks failed is an input, and an event may take a gate at
any time while it is handled. Other scopes' operations and incremental pushes appear as what other callers
do to a gate and to the queue. Every step takes an instant of the clock.
-/

namespace Spotter.Providers.K8s

open Library Domain Ports Robot Worker

/-- The scope of the provider's full operations. -/
def k8sScope : String := "k8s"

/-- What holds a gate after its snapshot was rebuilt: a typed operation or a handler's second attempt. -/
inductive Occupant where
  | operation (operation : RetryOperation) (revalidated : Bool)
  | second (trigger : ℤ) (items : Instances) (revalidated : Bool)

/-- The rest of the occupant's call. -/
def Occupant.run (sink : OrderedSink) (env : SinkEnv) : Occupant → Outcome
  | .operation request revalidated => sink.runOperation request revalidated env
  | .second trigger items revalidated => sink.runLocked trigger items ⟨true, true, revalidated⟩ none env

structure Gate where
  sink : OrderedSink
  occupant : Option Occupant := none

/-- No call holds the gate, and the sink is open. -/
def Gate.free (gate : Gate) : Bool := gate.occupant.isNone && !gate.sink.closed

structure FullPush where
  provider : Provider := {}
  service : UnsyncedService Instance
  /-- The provider's events that are being handled. -/
  handling : List (SyncAllEvent Instance) := []
  gates : String → Gate
  clock : ℤ := 0
  /-- The ticks that found the cache empty since it was last found non-empty. -/
  emptyTicks : ℕ := 0
  /-- When the cache was last found non-empty. -/
  lastNonEmpty : ℤ := -1

/-- Everything that can happen. -/
inductive FullPushStep where
  | change (cache : Cache)
  | compare
  | tick
  | enterEvent (index : ℕ) (sink : String)
  | enterSecond (index : ℕ) (sink : String)
  | enterRetry (sink : String)
  | leave (sink : String) (env : SinkEnv)
  | finish (index : ℕ) (failed : Option (List String))
  | queue (action : QueueAction Instance)
  | other (sink : String) (step : SinkStep)

/-- The call is a full operation of the provider's scope. -/
def ofProvider : SinkStep → Bool
  | (.pushAllOperation operation, _) => decide (operation.scope = k8sScope)
  | _ => false

/-- The action queues a full operation of the provider's scope. -/
def queuesProvider : QueueAction Instance → Bool
  | .addFullWithMeta pending _ => decide (pending.scope = k8sScope)
  | _ => false

namespace FullPush

variable (w : FullPush)

/-- Whoever looks at the cache records what was seen. -/
def seen (tick : Bool) : FullPush :=
  if w.provider.active.isEmpty then { w with emptyTicks := if tick then w.emptyTicks + 1 else w.emptyTicks }
  else { w with emptyTicks := 0, lastNonEmpty := w.clock }

/-- A read-only snapshot, as a comparison or a revalidation takes it. -/
def readOnly : FullPush :=
  { w.seen false with provider := (w.provider.snapshotForFullPushMode false).2 }

/-- A tick emits its event, whose handling begins unless the event is dropped at the door. -/
def tick (fullBatchID : FullBatchID) (w : FullPush) : FullPush :=
  let (event, next) := w.provider.emitSyncAll fullBatchID w.clock
  { w.seen true with
    provider := next
    handling := if event.unconfirmed then w.handling else w.handling ++ [event] }

/-- A call takes the gate of a sink. -/
def occupy (sink : String) (occupant : Occupant) : FullPush :=
  { w with gates := Function.update w.gates sink { w.gates sink with occupant := some occupant } }

/-- An operation takes a gate and rebuilds its snapshot. -/
def enter (sink : String) (operation : RetryOperation) : FullPush :=
  if (w.gates sink).free then
    if operation.revalidate then
      w.readOnly.occupy sink (.operation { operation with instances := w.provider.revalidation.instances } true)
    else w.occupy sink (.operation operation false)
  else w

/-- The second attempt of an event takes a gate. -/
def enterSecond (sink : String) (event : SyncAllEvent Instance) : FullPush :=
  if (w.gates sink).free then
    if event.revalidate then w.readOnly.occupy sink (.second w.clock w.provider.revalidation.instances true)
    else w.occupy sink (.second w.clock (derefAll id event.data) false)
  else w

/-- The call in a gate runs and leaves it. -/
def leave (sink : String) (env : SinkEnv) : FullPush :=
  match (w.gates sink).occupant with
  | some occupant =>
    { w with gates := Function.update w.gates sink { sink := (occupant.run (w.gates sink).sink env).sink } }
  | none => w

/-- The handling of an event ends; it is queued for the sinks that failed, if any did. -/
def finish (index : ℕ) (failed : Option (List String)) : FullPush :=
  match w.handling[index]?, failed with
  | some event, some sinks =>
    { w with handling := w.handling.eraseIdx index, service := w.service.addFullWithMeta event.pending sinks }
  | _, _ => { w with handling := w.handling.eraseIdx index }

variable (fullBatchID : FullBatchID)

def act : FullPushStep → FullPush
  | .change cache => { w with provider := { w.provider with cache := cache, generation := w.provider.generation + 1 } }
  | .compare => w.readOnly
  | .tick => w.tick fullBatchID
  | .enterEvent index sink =>
    match w.handling[index]? with
    | some event => w.enter sink { event.operation id with sink := sink }
    | none => w
  | .enterSecond index sink =>
    match w.handling[index]? with
    | some event => w.enterSecond sink event
    | none => w
  | .enterRetry sink =>
    match w.service.batch.fulls.lookup ⟨sink, k8sScope⟩ with
    | some pending => w.enter sink (pending.operation id sink)
    | none => w
  | .leave sink env => w.leave sink env
  | .finish index failed => w.finish index failed
  | .queue action => if queuesProvider action then w else { w with service := w.service.step id fullBatchID action }
  | .other sink step =>
    if (w.gates sink).occupant.isSome || ofProvider step then w
    else { w with gates := Function.update w.gates sink { sink := ((w.gates sink).sink.apply step).sink } }

def step (event : FullPushStep) : FullPush := { w.act fullBatchID event with clock := w.clock + 1 }

/-- The system after a history, from given sinks and an empty queue. -/
def after (names : List String) (sinks : String → OrderedSink) (history : List FullPushStep) : FullPush :=
  history.foldl (fun w event => w.step fullBatchID event)
    { service := { sinkNames := names }, gates := fun name => { sink := sinks name } }

/-- The destructive empty operation of the provider's scope that a step hands to a wrapped sink. -/
def delivered : FullPushStep → Option RetryOperation
  | .leave sink env =>
    match (w.gates sink).occupant with
    | some (.operation request revalidated) =>
      if request.scope = k8sScope ∧ request.instances = [] ∧
          ((w.gates sink).sink.runOperation request revalidated env).call.isSome then some request
      else none
    | _ => none
  | _ => none

end FullPush

end Spotter.Providers.K8s
