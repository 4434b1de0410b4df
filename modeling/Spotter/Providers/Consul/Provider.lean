import Spotter.Domain.CanonicalPayload
import Spotter.Providers.Cache
import Spotter.Providers.Common
import Spotter.Providers.Identities

/-! # The Consul provider

The provider reads the whole catalog under its lock, replaces its cache by what it read, and only
afterwards pushes what changed. An empty catalog replaces the cache after three healthy empty reads.

A catalog is given by the instances its endpoints convert to; a read that fails or converts only in
part yields none. The timers that repeat an empty read are left out: a read may happen at any time.
-/

namespace Spotter.Providers.Consul

open Library Domain

structure Config where
  json : PayloadJSON
  nacosReconcile : Bool
  sourceCluster : String := ""
  acceptLegacyRemote : Bool := true
  filters : List InstanceFilter := initInstanceFilters

/-- The instances of a complete catalog read. An endpoint converts to an online or an unhealthy instance. -/
structure Catalog where
  instances : List Instance
  present : ∀ ins ∈ instances, ins.status = instanceStatusOnline ∨ ins.status = instanceStatusUnhealthy

structure Provider where
  cache : Cache := {}
  generation : ℕ := 0
  emptyConfirmations : UInt32 := 0
  emptyConfirmationPending : Bool := false

/-- The add-only burst that is routed through a full push. -/
def consulInitialFullPushThreshold : ℕ := 100

/-- A read that is older than the cached instance keeps the cached one. -/
def mergeMonotonicInstances (old : Cache) (current : List Instance) : List Instance :=
  current.map fun ins =>
    match old.get (identityKey ins) with
    | some previous => if ins.reversion < previous.reversion then previous else ins
    | none => ins

/-- The events of a changed cache. -/
structure CacheDiff where
  add : List Instance
  update : List Instance
  del : List Instance

/-- An added instance is announced as running, whatever its checks say. -/
def announced (ins : Instance) : Instance :=
  { ins with status := instanceStatusOnline, enabled := true, state := instanceStateRunning }

/-- The instance's end. -/
def terminated (ins : Instance) : Instance :=
  { ins with status := instanceStatusOffline, enabled := false, state := instanceStateTerminated }

/-- The new instance is worth an update event. -/
def updated (json : PayloadJSON) (old new : Instance) : Bool :=
  decide (old.reversion < new.reversion ∨ (new.reversion = old.reversion ∧ canonicalPayload json new ≠ canonicalPayload json old))

def extractDiff (config : Config) (old new : Cache) : CacheDiff where
  add := (new.list.filter fun ins =>
    (old.get (identityKey ins)).isNone && (verifyInstance config.filters ins).isNone).map announced
  update := new.list.filter fun ins =>
    ((old.get (identityKey ins)).any fun previous => updated config.json previous ins) &&
      (verifyInstance config.filters ins).isNone
  del := (old.list.filter fun ins => (new.get (identityKey ins)).isNone).map terminated

/-- What a sync pushes after it released the lock: the events, or a full push for a large first snapshot, and
a full push more after a recovery. -/
structure Dispatch where
  events : CacheDiff
  recovered : Bool

def Dispatch.initialFull (dispatch : Dispatch) : Bool :=
  decide (consulInitialFullPushThreshold ≤ dispatch.events.add.length ∧ dispatch.events.update = [] ∧ dispatch.events.del = [])

/-- The source instances that a sync emits as single events; a large first snapshot is pushed as a whole instead. -/
def Dispatch.announces (dispatch : Dispatch) : List Instance :=
  if dispatch.initialFull then [] else dispatch.events.add ++ dispatch.events.update

theorem Dispatch.mem_announces (dispatch : Dispatch) {ins : Instance} (member : ins ∈ dispatch.announces) :
    ins ∈ dispatch.events.add ++ dispatch.events.update := by
  rw [announces] at member
  split_ifs at member
  · cases member
  · exact member

/-- A cache of the given instances. -/
def cacheOf (instances : List Instance) : Cache := instances.foldl SortedStore.replaceOrInsert {}

namespace Provider

/-- Replace the cache. -/
def replaceCache (k : Provider) (instances : List Instance) : Provider :=
  { k with cache := cacheOf instances, generation := k.generation + 1 }

/-- A failed or non-empty read forgets the empty reads before it. -/
def forgetEmpty (k : Provider) : Provider := { k with emptyConfirmations := 0, emptyConfirmationPending := false }

/-- The locked part of `syncInstanceAt`. -/
def syncInstanceAt (config : Config) (k : Provider) : Option Catalog → Provider × Option Dispatch
  | none => (k.forgetEmpty, none)
  | some catalog =>
    if catalog.instances.isEmpty then
      let confirmations := k.emptyConfirmations + 1
      if confirmations < 3 then
        ({ k with emptyConfirmations := confirmations, emptyConfirmationPending := true }, none)
      else
        let next := { k with emptyConfirmations := confirmations, emptyConfirmationPending := false }.replaceCache []
        (next, some ⟨extractDiff config k.cache next.cache, false⟩)
    else
      let next := k.forgetEmpty.replaceCache (mergeMonotonicInstances k.cache catalog.instances)
      (next, some ⟨extractDiff config k.cache next.cache, decide (0 < k.emptyConfirmations)⟩)

/-- `snapshotForFullPushMode`: the snapshot with its generation and confirmation, and the counters moved. -/
def snapshotForFullPushMode (k : Provider) (advanceEmptyConfirmation : Bool) :
    Option Catalog → Provider × Option (List Instance × ℕ × Bool)
  | none => (k.forgetEmpty, none)
  | some catalog =>
    let all := mergeMonotonicInstances k.cache catalog.instances
    let next := if all.isEmpty then
        if advanceEmptyConfirmation then
          if k.emptyConfirmationPending then { k with emptyConfirmationPending := false }
          else { k with emptyConfirmations := k.emptyConfirmations + 1 }
        else k
      else k.forgetEmpty
    (next, some (all, k.generation, decide (3 ≤ next.emptyConfirmations)))

/-- The locked part of `CompareAndFlush`: the snapshot that it goes on with, if it does. -/
def compareSnapshot (k : Provider) : Option Catalog → Provider × Option (List Instance)
  | none => (k.forgetEmpty, none)
  | some catalog =>
    if catalog.instances.isEmpty then
      let counted := if k.emptyConfirmationPending then k
        else { k with emptyConfirmations := k.emptyConfirmations + 1, emptyConfirmationPending := true }
      if counted.emptyConfirmations < 3 then (counted, none) else (counted.replaceCache [], some [])
    else
      let all := mergeMonotonicInstances k.cache catalog.instances
      (k.forgetEmpty.replaceCache all, some all)

end Provider

/-- A merged instance was read or was cached. -/
theorem mem_merge {old : Cache} {current : List Instance} {ins : Instance}
    (member : ins ∈ mergeMonotonicInstances old current) : ins ∈ current ∨ ins ∈ old.entries := by
  obtain ⟨read, among, rfl⟩ := List.mem_map.mp member
  split
  · next previous found =>
    split_ifs
    · exact .inr (Cache.get_mem found)
    · exact .inl among
  · exact .inl among

theorem cacheOf_mem {instances : List Instance} {ins : Instance} (cached : ins ∈ (cacheOf instances).entries) :
    ins ∈ instances := by
  rcases SortedStore.mem_foldl cached with member | nowhere
  · exact member
  · cases nowhere

/-- A dispatch comes with the merged catalog in the cache. -/
theorem sync_dispatch {config : Config} {k : Provider} {catalog : Catalog} {dispatch : Dispatch}
    (synced : (k.syncInstanceAt config (some catalog)).2 = some dispatch) :
    (k.syncInstanceAt config (some catalog)).1.cache = cacheOf (mergeMonotonicInstances k.cache catalog.instances) ∧
      dispatch.events = extractDiff config k.cache (cacheOf (mergeMonotonicInstances k.cache catalog.instances)) := by
  by_cases empty : catalog.instances = []
  · have merged : mergeMonotonicInstances k.cache catalog.instances = [] := by rw [empty, mergeMonotonicInstances, List.map_nil]
    rw [merged]
    by_cases early : k.emptyConfirmations + 1 < 3
    · simp [Provider.syncInstanceAt, empty, early] at synced
    · simp only [Provider.syncInstanceAt, empty, List.isEmpty_nil, ↓reduceIte, early, Option.some_inj] at synced ⊢
      rw [← synced]
      exact ⟨rfl, rfl⟩
  · have full : catalog.instances.isEmpty = false := by simpa using empty
    simp only [Provider.syncInstanceAt, full, Bool.false_eq_true, ↓reduceIte, Option.some_inj] at synced ⊢
    rw [← synced]
    exact ⟨rfl, rfl⟩

/-- The remote instances that this catalog has authority over. -/
def sourceScopedRemote (config : Config) (list : Instances) : Instances :=
  if config.sourceCluster = "" then list
  else list.filter fun item => item.any fun ins =>
    let source := if ins.sourceCluster ≠ "" then ins.sourceCluster else ins.labelValue "sourceCluster"
    decide (source = config.sourceCluster) || (decide (source = "") && config.acceptLegacyRemote)

end Spotter.Providers.Consul
