import Spotter.Providers.Consul.Provider
import Spotter.Worker.Registrations

/-! # The watch path from the catalog to the sinks

A watch return makes the provider read the catalog, replace its cache and push what changed through the
worker. The cache is followed by the sinks as long as no identity comes back at a revision that the
ledgers have already buried: the incremental add of such an identity is dropped, and only the recovery
from an empty catalog is followed by a full push that could heal it.

The wrapped sinks acknowledge every write here, and a catalog stands still while it is being synced.
-/

namespace Spotter.Providers.Consul

open Library Domain Ports Worker

/-- A watch return: the catalog, the stamp of each event, and the clock of the full pushes. -/
structure WatchReturn where
  catalog : Catalog
  trigger : Instance → ℤ
  fullTrigger : ℤ
  now : ℤ

/-- The scope of the provider's full pushes. -/
def Config.fullScope (config : Config) : String := if config.sourceCluster = "" then "ecs" else config.sourceCluster

/-- What a full event's `Revalidate` function answers. -/
def Provider.revalidation (k : Provider) (catalog : Option Catalog) : Revalidation :=
  match (k.snapshotForFullPushMode false catalog).2 with
  | some (all, _, _) => ⟨all.map some, true⟩
  | none => ⟨[], false⟩

/-- The full event of a snapshot. -/
def fullEvent (config : Config) (fullBatchID : FullBatchID) (trigger : ℤ)
    (snapshot : List Instance × ℕ × Bool) : SyncAllEvent Instance where
  trigger := trigger
  data := snapshot.1.map some
  scope := config.fullScope
  batchID := fullBatchID config.fullScope (snapshot.1.map some)
  sequence := snapshot.2.1
  revalidate := true
  emptyConfirmed := snapshot.2.2

/-- The provider, the worker it pushes through, and the attempts on the sinks so far. -/
structure WatchPath where
  provider : Provider := {}
  worker : DefaultWorker Instance
  attempts : List SinkAttempt := []

namespace WatchPath

def handled (w : WatchPath) (handling : Handling Instance) : WatchPath :=
  { w with worker := handling.worker, attempts := w.attempts ++ handling.attempts }

def eventSync (w : WatchPath) (trigger : ℤ) (ins : Instance) : WatchPath :=
  w.handled (w.worker.handleSync id trigger [some ins] fun _ => .acknowledging)

/-- `eventsSyncAt`: one event for each instance, in order. -/
def eventsSyncAt (w : WatchPath) (trigger : Instance → ℤ) (events : List Instance) : WatchPath :=
  events.foldl (fun w ins => w.eventSync (trigger ins) ins) w

section Sync

variable (config : Config) (fullBatchID : FullBatchID)

/-- `emitSyncAllAt`: a full push of a snapshot that is read again, and rebuilt by each sink. -/
def emitSyncAllAt (w : WatchPath) (watch : WatchReturn) : WatchPath :=
  match w.provider.snapshotForFullPushMode true (some watch.catalog) with
  | (next, none) => { w with provider := next }
  | (next, some snapshot) =>
    let env : String → SinkEnv := fun _ => { answer := next.revalidation (some watch.catalog) }
    { w with provider := next }.handled
      (w.worker.handleSyncAll id (fullEvent config fullBatchID watch.fullTrigger snapshot) env (fun _ => []) watch.now env)

/-- `syncInstanceAt`: the read under the lock, and the dispatch after it. -/
def syncInstanceAt (w : WatchPath) (watch : WatchReturn) : WatchPath :=
  match w.provider.syncInstanceAt config (some watch.catalog) with
  | (next, none) => { w with provider := next }
  | (next, some dispatch) =>
    let read := { w with provider := next }
    let pushed := if dispatch.initialFull then read.emitSyncAllAt config fullBatchID watch
      else read.eventsSyncAt watch.trigger (dispatch.events.add ++ dispatch.events.update ++ dispatch.events.del)
    if dispatch.recovered then pushed.emitSyncAllAt config fullBatchID watch else pushed

/-- A new provider on a worker, after a sequence of watch returns. -/
def after (worker : DefaultWorker Instance) (watches : List WatchReturn) : WatchPath :=
  watches.foldl (syncInstanceAt config fullBatchID) { worker := worker }

end Sync

end WatchPath

/-! ## The sinks of a watch path -/

section Sinks

variable {w : WatchPath}

/-- After single events, every sink has been pushed each of them. -/
theorem eventsSyncAt_sinks (trigger : Instance → ℤ) (events : List Instance) {named : NamedSink}
    (registered : named ∈ (w.eventsSyncAt trigger events).worker.pusher.sinks) :
    ∃ before ∈ w.worker.pusher.sinks, named.name = before.name ∧
      named.sink = before.sink.after (OrderedSink.pushSteps trigger events) ∧
      forwarded (w.eventsSyncAt trigger events).attempts named.name =
        forwarded w.attempts before.name ++ before.sink.acceptedAlong (OrderedSink.pushSteps trigger events) := by
  induction events generalizing w with
  | nil => exact ⟨named, registered, rfl, rfl, (List.append_nil _).symm⟩
  | cons event rest ih =>
    obtain ⟨middle, pushed, sameName, afterwards, log⟩ := ih registered
    obtain ⟨pusher, attempts⟩ := handleSync_pusher (w := w.worker) id (trigger event) [some event] (fun _ => .acknowledging)
    have inBroadcast : middle ∈ (w.worker.pusher.push (trigger event) [some event] fun _ => .acknowledging).fanout.sinks := by
      have same := congrArg FanoutSink.sinks pusher
      exact same ▸ pushed
    obtain ⟨before, started, rfl⟩ := mem_broadcast_sinks.mp inBroadcast
    refine ⟨before, started, sameName, afterwards, log.trans ?_⟩
    have appended : forwarded (w.eventSync (trigger event) event).attempts before.name =
        forwarded w.attempts before.name ++ (before.answer fun _ => (.push (trigger event) [some event], .acknowledging)).accepted := by
      have split : (w.eventSync (trigger event) event).attempts = w.attempts ++ _ := congrArg (w.attempts ++ ·) attempts
      rw [split, forwarded_append]
      congr 1
      exact forwarded_broadcast started
    rw [appended, List.append_assoc]
    rfl

@[simp] theorem eventsSyncAt_provider (trigger : Instance → ℤ) (events : List Instance) :
    (w.eventsSyncAt trigger events).provider = w.provider := by
  induction events generalizing w with
  | nil => rfl
  | cons event rest ih => exact ih

end Sinks

end Spotter.Providers.Consul
