import Spotter.Library.History
import Spotter.Library.Separated
import Spotter.Providers.K8s.ProcessedCache
import Spotter.Providers.K8s.Watch

/-! # Keeping track of a pod

For one pod generation, the cache either agrees with the store or something on the way from the
informer to the cache will still make it agree: a callback that is due, a queued or buffered event, or
the event in the consumer's hand. A deletion can only be repaired by a deletion event, because any
other event of a pod that is gone is ignored; a pod in the store is repaired by any event.
-/

namespace Spotter.Providers.K8s

open Library Domain Robot Worker

/-- The separator of the queue's keys. -/
def nul : Char := Char.ofNat 0

/-- A pod's UID is a non-empty text without separators. -/
structure ValidUID (uid : String) : Prop where
  nonempty : uid ≠ ""
  slashless : '/' ∉ uid.toList
  plain : nul ∉ uid.toList

instance (uid : String) : Decidable (ValidUID uid) :=
  decidable_of_iff (uid ≠ "" ∧ '/' ∉ uid.toList ∧ nul ∉ uid.toList)
    ⟨fun valid => ⟨valid.1, valid.2.1, valid.2.2⟩, fun valid => ⟨valid.nonempty, valid.slashless, valid.plain⟩⟩

/-- A UID belongs to one namespace and name of its cluster, for ever. -/
structure PodNaming where
  home : String → String → String
  plain : ∀ cluster uid, nul ∉ (home cluster uid).toList

/-- The clusters are named and the pod has a valid UID under its own name. -/
structure PodNaming.Genuine (naming : PodNaming) (clusters : List String) (cluster : String) (pod : Pod) : Prop where
  watched : cluster ∈ clusters
  uid : ValidUID pod.uid
  home : pod.key = naming.home cluster pod.uid

/-- What Kubernetes promises of the pods an informer receives. -/
def PodNaming.Promised (naming : PodNaming) : WatchStep → Prop
  | .set cluster pod => ValidUID pod.uid ∧ pod.key = naming.home cluster pod.uid
  | _ => True

instance (naming : PodNaming) : DecidablePred naming.Promised := fun step => by
  cases step <;> unfold PodNaming.Promised <;> infer_instance

theorem podIdentity_inj {cluster uid cluster' uid' : String} (valid : ValidUID uid) (valid' : ValidUID uid')
    (same : podIdentity cluster uid = podIdentity cluster' uid') : cluster = cluster' ∧ uid = uid' :=
  join_inj (c := '/') rfl valid.slashless valid'.slashless same

section Tracking

variable (naming : PodNaming) (clusters : List String) (config : Config)

/-- The queue's key of a pod generation. -/
def podKey (cluster uid : String) : String :=
  QueueObject.identityKey { key := naming.home cluster uid, clusterID := cluster, uid := uid }

/-- A queue object of a watched pod. -/
structure GenuineObject (obj : QueueObject) : Prop where
  watched : obj.clusterID ∈ clusters
  uid : ValidUID obj.uid
  home : obj.key = naming.home obj.clusterID obj.uid

theorem podKey_eq {obj : QueueObject} (genuine : GenuineObject naming clusters obj) :
    obj.identityKey = podKey naming obj.clusterID obj.uid := by
  simp only [podKey, QueueObject.identityKey, genuine.home]

theorem podKey_inj {cluster uid cluster' uid' : String} (valid : ValidUID uid) (valid' : ValidUID uid')
    (same : podKey naming cluster uid = podKey naming cluster' uid') : cluster = cluster' ∧ uid = uid' := by
  simp only [podKey, QueueObject.identityKey, valid.nonempty, valid'.nonempty, and_false, ↓reduceIte] at same
  obtain ⟨fronts, uids⟩ := join_inj (c := nul) rfl valid.plain valid'.plain same
  exact ⟨(join_inj (c := nul) rfl (naming.plain _ _) (naming.plain _ _) fronts).1, uids⟩

variable (w : Watch)

/-- The pod generation as its store holds it. -/
def stored (cluster uid : String) : Option Pod :=
  ((w.stores cluster).find (naming.home cluster uid)).filter fun pod => decide (pod.uid = uid)

/-- The store holds the pod, and it converts, passes the filters and is not offline. -/
def Wanted (cluster uid : String) : Prop :=
  ∃ pod, stored naming w cluster uid = some pod ∧ config.Wants (sourceObject cluster pod) pod

/-- The callbacks about a pod that are still due. -/
def notices (cluster uid : String) : List EventType :=
  ((w.pending cluster).filter fun notification => decide (notification.pod.uid = uid)).map Notification.event

/-- An event can still make the cache agree with the store. -/
def Promising (cluster uid : String) (event : EventType) : Prop :=
  (stored naming w cluster uid).isSome = true ∨ event = .delete

/-- What the consumer read about its own pod. -/
def readPod (obj : QueueObject) : List Pod → Option Pod
  | [pod] => if pod.uid = obj.uid then some pod else none
  | _ => none

/-- What the consumer read, if it read anything, is still what the store holds. -/
def Current (work : Work) : Prop :=
  ∀ items, work.items = some items → readPod work.obj items = stored naming w work.obj.clusterID work.obj.uid

/-- The consumer works on the pod. -/
def Works (cluster uid : String) (work : Work) : Prop :=
  w.hand = some work ∧ work.obj.clusterID = cluster ∧ work.obj.uid = uid

/-- The consumer holds a copy of the pod that it has not applied yet. -/
def Holding (cluster uid : String) : Prop :=
  ∃ work, Works w cluster uid work ∧ work.items.isSome = true

/-- Something on its way will make the cache agree with the store. -/
def Covered (cluster uid : String) : Prop :=
  (∃ event, (notices w cluster uid).getLast? = some event ∧ Promising naming w cluster uid event) ∨
  (notices w cluster uid = [] ∧ ∃ obj, w.queue.effective (podKey naming cluster uid) = some obj ∧
    Promising naming w cluster uid obj.event) ∨
  (∃ work, Works w cluster uid work ∧ Promising naming w cluster uid work.obj.event ∧ Current naming w work)

/-- The cache holds the pod as live exactly when the store wants it. -/
def Agrees (cluster uid : String) : Prop :=
  w.provider.Live (podIdentity cluster uid) ↔ Wanted naming config w cluster uid

/-- The pod is on its way to agreement, or agrees and nothing outdated is about to be applied. -/
def OnTrack (cluster uid : String) : Prop :=
  Covered naming w cluster uid ∨ (Agrees naming config w cluster uid ∧ ∀ work, Works w cluster uid work → Current naming w work)

/-! ## What must not happen -/

/-- The event that is offered reaches the consumer as good as itself, or is not needed: the queue accepts
it, or it is no deletion and another event of its pod is buffered; another callback about the pod is due;
or the cache agrees already. -/
def Heard (cluster : String) (notification : Notification) (rest : List Notification) : Prop :=
  let uid := notification.pod.uid
  let key := podKey naming cluster uid
  w.queue.Accepts key ∨
  (notification.event ≠ .delete ∧ w.queue.buffered QueueObject.identityKey key ≠ none) ∨
  (∃ later ∈ rest, later.pod.uid = uid) ∨
  (Agrees naming config w cluster uid ∧ ¬Holding w cluster uid)

/-- The event in hand is not ignored while its pod is live, and is no deletion of a wanted pod; or more
events of the pod follow. -/
def Heeded (obj : QueueObject) (pod : Pod) : Prop :=
  notices w obj.clusterID obj.uid ≠ [] ∨ (w.queue.effective (podKey naming obj.clusterID obj.uid)).isSome = true ∨
  ((w.provider.Drops config obj pod → ¬w.provider.Live (podIdentity obj.clusterID obj.uid)) ∧
    (obj.event = .delete → ¬config.Wants (sourceObject obj.clusterID pod) pod))

/-- The step loses nothing. -/
def Steady : WatchStep → Prop
  | .set cluster pod => ∀ old, (w.stores cluster).find pod.key = some old → old.uid ≠ pod.uid →
      ¬w.provider.Live (podIdentity cluster old.uid) ∧ ¬Holding w cluster old.uid
  | .deliver cluster _ => ∀ notification rest, w.pending cluster = notification :: rest →
      Heard naming config w cluster notification rest
  | .apply => ∀ obj pod, w.hand = some ⟨obj, some [pod]⟩ → pod.uid = obj.uid → Heeded naming config w obj pod
  | .bootstrapInstall => ∀ all, w.bootstrap = some all → w.provider.generation = 0 →
      ∀ ins ∈ all, ins.offline = false → ∀ cluster uid, identityKey ins = podIdentity cluster uid →
        Wanted naming config w cluster uid ∨ Covered naming w cluster uid
  | _ => True

end Tracking

end Spotter.Providers.K8s
