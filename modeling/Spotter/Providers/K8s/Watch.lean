import Spotter.Providers.K8s.Provider

/-! # From informer stores to the processed cache

Each cluster has an informer with a store of pods. The informer changes its store first and notifies
the robot afterwards, in order but at any later time; the robot's callback offers the event to the
shared work queue. One consumer pops an event, reads the store as it is by then, and applies what it
read to the cache. A bootstrap lists the stores cluster by cluster and installs the result if no event
changed the cache meanwhile. Every one of these is a step, and the steps interleave freely.
-/

namespace Spotter.Providers.K8s

open Library Domain Robot Worker

abbrev PodStore := SortedStore Pod.key

/-- A callback the informer still has to make. -/
structure Notification where
  event : EventType
  pod : Pod
deriving DecidableEq

/-- The event the consumer works on, and the pods the stores held when it read them. -/
structure Work where
  obj : QueueObject
  items : Option (List Pod) := none
deriving DecidableEq

/-- The robot and the provider. The clusters' identities are distinct, so they name the stores. -/
structure Watch where
  stores : String → PodStore := fun _ => {}
  pending : String → List Notification := fun _ => []
  queue : CoalescingQueue
  hand : Option Work := none
  provider : Provider := {}
  bootstrap : Option (List Instance) := none

/-- The object of a pod listed from its cluster's store. -/
def sourceObject (cluster : String) (pod : Pod) : QueueObject :=
  { key := pod.key, clusterID := cluster, uid := pod.uid }

/-- The queue object of an informer callback. -/
def notified (cluster : String) (notification : Notification) (now : ℤ) : QueueObject :=
  { sourceObject cluster notification.pod with event := notification.event, createAt := now }

section Steps

variable (clusters : List String) (config : Config) (stores : String → PodStore)

/-- `GetByClusterKey`, or `GetByKey` over all clusters for an object without a cluster. -/
def lookupPods (obj : QueueObject) : List Pod :=
  if obj.clusterID = "" then clusters.filterMap fun cluster => (stores cluster).find obj.key
  else if obj.clusterID ∈ clusters then ((stores obj.clusterID).find obj.key).toList
  else []

/-- The instances of one cluster's store. -/
def listCluster (cluster : String) : List Instance :=
  (stores cluster).entries.filterMap fun pod => config.convert (sourceObject cluster pod) pod

/-- `GetAll`: the instances of every store. -/
def getAll : List Instance := clusters.flatMap (listCluster config stores)

/-- The identities of the stores' pods that convert, pass the filters and are not offline. -/
def sourceIdentities : List String :=
  ((getAll clusters config stores).filter fun ins => !ins.offline).map identityKey

/-- Everything that can happen. -/
inductive WatchStep where
  | set (cluster : String) (pod : Pod)
  | remove (cluster key : String)
  | deliver (cluster : String) (now : ℤ)
  | pop
  | fetch
  | apply
  | bootstrapBegin
  | bootstrapList (cluster : String)
  | bootstrapInstall

namespace Watch

variable (w : Watch)

/-- The informer receives a pod: its store holds the pod and a callback is due. -/
def set (cluster : String) (pod : Pod) : Watch :=
  let event := if ((w.stores cluster).find pod.key).isSome then .update else .add
  { w with
    stores := Function.update w.stores cluster ((w.stores cluster).replaceOrInsert pod)
    pending := Function.update w.pending cluster (w.pending cluster ++ [⟨event, pod⟩]) }

/-- The informer learns that a pod is gone. -/
def remove (cluster key : String) : Watch :=
  match (w.stores cluster).find key with
  | none => w
  | some pod =>
    { w with
      stores := Function.update w.stores cluster ((w.stores cluster).erase key)
      pending := Function.update w.pending cluster (w.pending cluster ++ [⟨.delete, pod⟩]) }

/-- The informer makes its oldest callback, which offers the event to the queue. -/
def deliver (cluster : String) (now : ℤ) : Watch :=
  match w.pending cluster with
  | [] => w
  | notification :: rest =>
    { w with
      pending := Function.update w.pending cluster rest
      queue := (w.queue.offer (notified cluster notification now)).1 }

/-- The idle consumer takes an event. -/
def pop (w : Watch) : Watch :=
  match w.hand, w.queue.pop with
  | none, some (obj, next) => { w with queue := next, hand := some { obj := obj } }
  | _, _ => w

/-- The consumer reads the stores. -/
def fetch : Watch :=
  match w.hand with
  | some { obj := obj, items := none } => { w with hand := some ⟨obj, some (lookupPods clusters w.stores obj)⟩ }
  | _ => w

/-- The consumer applies what it read to the cache. -/
def apply : Watch :=
  match w.hand with
  | some { obj := obj, items := some items } =>
    { w with provider := (w.provider.pod2Instance config obj items).1, hand := none }
  | _ => w

def bootstrapBegin : Watch :=
  if w.provider.generation = 0 ∧ w.bootstrap = none then { w with bootstrap := some [] } else w

def bootstrapList (cluster : String) : Watch :=
  { w with bootstrap := w.bootstrap.map (· ++ listCluster config w.stores cluster) }

def bootstrapInstall : Watch :=
  match w.bootstrap with
  | none => w
  | some all => { w with provider := w.provider.installBootstrap all, bootstrap := none }

def step : WatchStep → Watch
  | .set cluster pod => if cluster ∈ clusters then w.set cluster pod else w
  | .remove cluster key => if cluster ∈ clusters then w.remove cluster key else w
  | .deliver cluster now => w.deliver cluster now
  | .pop => w.pop
  | .fetch => w.fetch clusters
  | .apply => w.apply config
  | .bootstrapBegin => w.bootstrapBegin
  | .bootstrapList cluster => if cluster ∈ clusters then w.bootstrapList config cluster else w
  | .bootstrapInstall => w.bootstrapInstall

/-- The system after a history, started with empty stores and an empty queue. -/
def after (capacity : ℕ) (history : List WatchStep) : Watch :=
  history.foldl (fun w step => w.step clusters config step) { queue := newCoalescingQueue capacity }

/-- Every callback was made, the queue is drained, and nobody is at work. -/
structure Quiescent : Prop where
  silent : ∀ cluster ∈ clusters, w.pending cluster = []
  drained : w.queue.order = []
  idle : w.hand = none
  settled : w.bootstrap = none

/-- The part of `CompareAndFlush` that touches the provider; the comparison only reads its snapshot. -/
def compareAndFlush : Provider :=
  let all := getAll clusters config w.stores
  if w.provider.generation = 0 ∧ all.isEmpty then w.provider
  else ((w.provider.bootstrapCacheFromSource all).snapshotForFullPushMode false).2

/-- The full push of an interval tick. -/
def intervalTick (fullBatchID : FullBatchID) (w : Watch) (now : ℤ) :
    SyncAllEvent Instance :=
  ((w.compareAndFlush clusters config).emitSyncAll fullBatchID now).1

end Watch

/-- The identities a full push carries. -/
def pushedIdentities (event : SyncAllEvent Instance) : List String := event.data.filterMap (Option.map identityKey)

end Steps

end Spotter.Providers.K8s
