import Spotter.Providers.Cache
import Spotter.Providers.K8s.Conversion
import Spotter.Worker.Handler

/-! # The Kubernetes provider

The provider owns a processed cache and a generation that counts its changes. Events from the work
queue change the cache one pod at a time; a full push publishes the cache's instances that are not
offline, and an empty cache counts as confirmed after three pushes in a row.

The cache and its counters are guarded by one lock, so each function here is one critical section
unless it says otherwise.
-/

namespace Spotter.Providers.K8s

open Library Domain Ports Robot Worker

/-- The provider's configuration. -/
structure Config where
  lib : ConversionLib
  pushAppCodes : Option (List String) := none
  filters : List InstanceFilter := initInstanceFilters

structure Provider where
  cache : Cache := {}
  generation : ℕ := 0
  emptyConfirmations : UInt32 := 0
deriving DecidableEq

/-- The conversion of a pod with the provider's filters applied. -/
def Config.convert (config : Config) (obj : QueueObject) (pod : Pod) : Option Instance :=
  (formatInstanceWithDeps config.lib config.pushAppCodes (some obj) pod).filter fun ins =>
    (verifyInstance config.filters ins).isNone

/-- The differences that make a cached instance worth replacing. -/
def hasInstanceDiff (old new : Instance) : Bool :=
  if old.status = new.status ∧ old.status = instanceStatusOffline then false
  else decide (old.reversion < new.reversion ∨ new.envType ≠ old.envType ∨ new.state ≠ old.state ∨
    new.status ≠ old.status ∨ new.envGroup ≠ old.envGroup ∨ new.instanceId ≠ old.instanceId ∨ new.ip ≠ old.ip ∨
    new.enabled ≠ old.enabled)

/-- The pod's name out of its key. -/
def obj2InstanceId (obj : QueueObject) : String :=
  match obj.key.toList.splitOn '/' with
  | _ :: name :: _ => String.ofList name
  | _ => ""

/-- The cache key a deleted pod is looked up by. -/
def deletedKey (obj : QueueObject) : String :=
  if obj.clusterID = "" ∨ obj.uid = "" then "k8s:" ++ obj2InstanceId obj else obj.clusterID ++ "/" ++ obj.uid

/-- An instance without an address that announces its end. -/
def offlineShell (ins : Instance) : Bool := ins.offline && decide (ins.ip = "")

/-- The cached instance, ended at the revision of the pod's end. -/
def terminatedCopy (cached ins : Instance) : Instance :=
  { cached with
    status := instanceStatusOffline
    state := instanceStateTerminated
    enabled := false
    reversion := ins.reversion }

/-- The cached instance of a deleted pod: only its status changes. -/
def deletedCopy (cached : Instance) : Instance := { cached with status := instanceStatusOffline }

namespace Provider

variable (k : Provider)

/-- Every event puts the instance into the cache, a deletion as well. -/
def processCache (event : EventType) (ins : Instance) : Provider :=
  let cache := match event with
    | .add => k.cache.replaceOrInsert ins
    | .update => k.cache.replaceOrInsert ins
    | .delete => k.cache.replaceOrInsert ins
  { k with cache := cache, generation := k.generation + 1 }

theorem processCache_eq (event : EventType) (ins : Instance) :
    k.processCache event ins = { k with cache := k.cache.replaceOrInsert ins, generation := k.generation + 1 } := by
  cases event <;> rfl

/-- The cached copy of an instance that can stand in for its missing address. -/
def lastKnown (ins : Instance) : Option Instance :=
  (k.cache.get (identityKey ins)).filter fun cached => decide (cached.ip ≠ "")

/-- Put an instance into the cache and emit it if it differs from the cached one. -/
def publish (event : EventType) (ins : Instance) : Provider × Option Instance :=
  if (k.cache.get (identityKey ins)).all fun cached => hasInstanceDiff cached ins then (k.processCache event ins, some ins)
  else (k, none)

/-- `pod2Instance` when the store holds the event's pod. -/
def podFound (config : Config) (k : Provider) (obj : QueueObject) (pod : Pod) : Provider × Option Instance :=
  match config.convert obj pod with
  | none => (k, none)
  | some ins =>
    if offlineShell ins then
      match k.lastKnown ins with
      | none => (k, none)
      | some cached => k.publish obj.event (terminatedCopy cached ins)
    else k.publish obj.event ins

/-- `pod2Instance` when the store does not hold the event's pod: a deletion takes the instance from the cache. -/
def podGone (obj : QueueObject) : Provider × Option Instance :=
  match obj.event, k.cache.get (deletedKey obj) with
  | .delete, some cached =>
    if cached.status ≠ instanceStatusOffline then
      (k.processCache .delete (deletedCopy cached), some (deletedCopy cached))
    else (k, none)
  | _, _ => (k, none)

/-- `pod2Instance`, given the pods the stores hold under the event's key. -/
def pod2Instance (config : Config) (k : Provider) (obj : QueueObject) (items : List Pod) : Provider × Option Instance :=
  match items with
  | [] => k.podGone obj
  | [pod] => if obj.uid ≠ "" ∧ pod.uid ≠ obj.uid then k.podGone obj else k.podFound config obj pod
  | _ => (k, none)

/-- Install a rebuilt cache unless the cache changed since the given generation. -/
def replaceCacheIfGeneration (candidate : Cache) (observed : ℕ) : Provider :=
  if k.generation ≠ observed then k else { k with cache := candidate, generation := k.generation + 1 }

/-- The installing half of `bootstrapCacheFromSource`, given what `GetAll` read while the cache was untouched. -/
def installBootstrap (all : List Instance) : Provider :=
  if all.isEmpty then k else k.replaceCacheIfGeneration (all.foldl SortedStore.replaceOrInsert {}) 0

/-- `bootstrapCacheFromSource` without interference. -/
def bootstrapCacheFromSource (all : List Instance) : Provider :=
  if k.generation ≠ 0 then k else k.installBootstrap all

/-- The cached instances that are not offline. -/
def active : List Instance := k.cache.list.filter fun ins => !ins.offline

/-- The counter after a full-push snapshot. -/
def countEmpty (advanceEmptyConfirmation : Bool) : UInt32 :=
  if k.active.isEmpty then
    if advanceEmptyConfirmation then k.emptyConfirmations + 1 else k.emptyConfirmations
  else 0

/-- `snapshotForFullPushMode`: the snapshot with its generation and confirmation, and the counter moved. -/
def snapshotForFullPushMode (advanceEmptyConfirmation : Bool) : (List Instance × ℕ × Bool) × Provider :=
  let count := k.countEmpty advanceEmptyConfirmation
  ((k.active, k.generation, decide (3 ≤ count)), { k with emptyConfirmations := count })

/-- What the event's `Revalidate` function answers. -/
def revalidation : Revalidation := ⟨k.active.map some, true⟩

/-- The full-push event of a tick. -/
def emitSyncAll (fullBatchID : FullBatchID) (k : Provider) (now : ℤ) :
    SyncAllEvent Instance × Provider :=
  let ((all, generation, emptyConfirmed), next) := k.snapshotForFullPushMode true
  ({ trigger := now
     data := all.map some
     scope := "k8s"
     batchID := fullBatchID "k8s" (all.map some)
     sequence := generation
     revalidate := true
     emptyConfirmed := emptyConfirmed }, next)

end Provider

end Spotter.Providers.K8s
