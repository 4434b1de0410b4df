import Spotter.Worker.Fanout
import Spotter.Worker.Ledger
import Spotter.Worker.RetryQueue

/-! # The worker's event handlers

A `Sync` event is pushed incrementally and queued per failed sink. A `SyncAll` event is pushed as a
typed full operation; when every failure is a stale rejection and the event can be revalidated, it
is attempted a second time on every sink through the untyped revalidating push, and other failures
are queued as one full entry per failed sink.

The two attempts are not one critical section. What other callers do to a sink between them is an
input, so that every interleaving per sink is covered; sinks share no state with each other.
-/

namespace Spotter.Worker

open Domain Ports

variable {Ptr : Type} (deref : Ptr → Instance)

/-- A full-snapshot event of a provider. -/
structure SyncAllEvent (Ptr : Type) where
  trigger : ℤ
  data : List (Option Ptr)
  scope : String
  batchID : String
  sequence : ℕ
  revalidate : Bool
  emptyConfirmed : Bool

structure DefaultWorker (Ptr : Type) where
  pusher : FanoutSink
  unsyncedService : UnsyncedService Ptr

/-- Read a slice of instance pointers. -/
def derefAll (items : List (Option Ptr)) : Instances := items.map (Option.map deref)

variable (event : SyncAllEvent Ptr)

/-- The typed operation a `SyncAll` event is pushed as. -/
def SyncAllEvent.operation : RetryOperation where
  operate := .syncAll
  scope := event.scope
  batchID := event.batchID
  sequence := event.sequence
  trigger := event.trigger
  instances := derefAll deref event.data
  revalidate := event.revalidate
  emptyConfirmed := event.emptyConfirmed

/-- The queue entry a failed `SyncAll` event leaves. -/
def SyncAllEvent.pending : PendingFull Ptr where
  trigger := event.trigger
  batch := event.data
  scope := event.scope
  batchID := event.batchID
  fullRevision := event.sequence
  revalidate := event.revalidate
  emptyConfirmed := event.emptyConfirmed

/-- The typed operation a retry cycle replays a full entry as. -/
def PendingFull.operation (pending : PendingFull Ptr) (sink : String) : RetryOperation where
  sink := sink
  operate := .syncAll
  provider := pending.scope
  scope := pending.scope
  batchID := pending.batchID
  sequence := pending.fullRevision
  trigger := pending.trigger
  instances := derefAll deref pending.batch
  revalidate := pending.revalidate
  emptyConfirmed := pending.emptyConfirmed

/-- The event is an unconfirmed empty snapshot of a scope, which is dropped at the door. -/
def SyncAllEvent.unconfirmed : Bool :=
  decide (event.scope ≠ "" ∧ event.data.length = 0 ∧ event.emptyConfirmed = false)

/-- What handling an event leaves: the worker, the attempts on the sinks, and the error returned. -/
structure Handling (Ptr : Type) where
  worker : DefaultWorker Ptr
  attempts : List SinkAttempt
  err : Option GoError := none

/-- Some failure is a stale rejection and none is anything else. -/
def staleOnly (err : Option GoError) : Bool :=
  err.any fun err => err.isStale && !hasNonStaleFanoutFailure err

namespace DefaultWorker

variable (w : DefaultWorker Ptr)

def queuedSinks (err : GoError) : List String :=
  failedSinkNames err w.unsyncedService.sinkNames

/-- The `Sync` handler. -/
def handleSync (trigger : ℤ) (data : List (Option Ptr)) (env : String → SinkEnv) :
    Handling Ptr :=
  let pushed := w.pusher.push trigger (derefAll deref data) env
  match pushed.err with
  | none => { worker := { w with pusher := pushed.fanout }, attempts := pushed.attempts }
  | some err =>
    let queued := if data.isEmpty then w.unsyncedService
      else w.unsyncedService.add deref trigger data (w.queuedSinks err)
    { worker := ⟨pushed.fanout, queued⟩, attempts := pushed.attempts, err := some err }

/-- The end of the `SyncAll` handler: a remaining error queues the whole event for the failed sinks. -/
def finishSyncAll (pushed : FanoutOutcome) (attempts : List SinkAttempt) : Handling Ptr :=
  if staleOnly pushed.err then { worker := { w with pusher := pushed.fanout }, attempts := attempts }
  else match pushed.err with
    | none => { worker := { w with pusher := pushed.fanout }, attempts := attempts }
    | some err =>
      { worker := ⟨pushed.fanout, w.unsyncedService.addFullWithMeta event.pending (w.queuedSinks err)⟩
        attempts := attempts
        err := some err }

/-- The second attempt of the `SyncAll` handler, on every sink and without the operation's metadata. -/
def secondAttempt (first : FanoutOutcome) (gap : String → List SinkStep) (now : ℤ) (second : String → SinkEnv) : Handling Ptr :=
  let pushed := (first.fanout.interfere gap).pushAllWithRevalidate now (derefAll deref event.data)
    event.revalidate second
  if pushed.err.all GoError.isStale then
    { worker := { w with pusher := pushed.fanout }, attempts := first.attempts ++ pushed.attempts }
  else w.finishSyncAll event pushed (first.attempts ++ pushed.attempts)

/-- The `SyncAll` handler. -/
def handleSyncAll (first : String → SinkEnv)
    (gap : String → List SinkStep) (now : ℤ) (second : String → SinkEnv) : Handling Ptr :=
  if event.unconfirmed then { worker := w, attempts := [] }
  else
    let pushed := w.pusher.pushAllOperation (event.operation deref) first
    if staleOnly pushed.err ∧ event.revalidate then w.secondAttempt deref event pushed gap now second
    else w.finishSyncAll event pushed pushed.attempts

end DefaultWorker

end Spotter.Worker
