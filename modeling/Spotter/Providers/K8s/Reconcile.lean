import Mathlib.Algebra.Order.BigOperators.Group.List
import Mathlib.Data.Multiset.OrderedMonoid
import Spotter.Domain.CanonicalPayload
import Spotter.Providers.Identities
import Spotter.Providers.K8s.Provider

/-! # Comparing the Kubernetes cache with the remote view

A compare takes the cache's snapshot, reads the remote view, gives up if the cache changed meanwhile, and
then decides about one cached instance after the other, in the order in which a map happens to be
iterated. The events go through a pool of workers, so they are a multiset. With Nacos as the remote view
a failed or an empty read ends the compare and hosts that only the remote view has are left to the full
push; with Atlas both mean that everything is sent, and such hosts are ended. Notices and log lines are
left out.
-/

namespace Spotter.Providers.K8s

open Library Domain Ports

/-- The provider's configuration with what a compare needs. -/
structure ReconcileConfig extends Config where
  json : PayloadJSON
  nacosReconcile : Bool := true

/-- `buildAndSendEvent`: an instance of unknown status is not sent. -/
def buildAndSendEvent (ins : Instance) : Multiset Instance := if ins.status = instanceStatusUnknown then 0 else {ins}

/-- The remote instance is to be overwritten by the cached one. -/
def ReconcileConfig.differs (config : ReconcileConfig) (k8sIns servIns : Instance) : Bool :=
  if config.nacosReconcile then diffNacosReconcile config.json k8sIns servIns else hasInstanceDiff servIns k8sIns

/-- The remote instances of the application codes to push, once for each time a code is listed. -/
def ofPushAppCodes (pushAppCodes : Option (List String)) (list : List Instance) : List Instance :=
  let codes := pushAppCodes.getD []
  if codes.isEmpty then list
  else list.flatMap fun ins => (codes.filter fun code => decide (code = ins.appCode)).map fun _ => ins

/-- What becomes of an instance that only the remote view has. -/
def retired (servIns : Instance) : Instance :=
  { servIns with enabled := false, status := instanceStatusOffline, state := instanceStateTerminated }

/-- The remote instances not matched yet, and the events sent so far. -/
structure CompareState where
  remote : FiniteMap String Instance
  events : Multiset Instance := 0

section Compare

variable (config : ReconcileConfig)

/-- The decision about one cached instance. -/
def compareOne (items : Instances) (state : CompareState) (k8sIns : Instance) : CompareState :=
  match lookupIdentity state.remote items k8sIns with
  | some servIns =>
    { remote := state.remote.erase (identityKey servIns)
      events := state.events + if config.differs k8sIns servIns then buildAndSendEvent k8sIns else 0 }
  | none =>
    { state with
      events := state.events + if k8sIns.status = instanceStatusOnline then buildAndSendEvent k8sIns else 0 }

/-- The comparison of a snapshot with a remote view that is not empty; `order` is the snapshot as the map over it
is iterated. -/
def compareViews (all items order : List Instance) : Multiset Instance :=
  let remote := strictListToMap (items.map some)
  let current := strictListToMap (all.map some)
  if remote.ambiguous ≠ [] ∨ current.ambiguous ≠ [] then 0
  else
    let compared := order.foldl (compareOne config (items.map some)) { remote := remote.index }
    if config.nacosReconcile then compared.events
    else compared.events + (compared.remote.entries.map fun entry => buildAndSendEvent (retired entry.2)).sum

/-- `CompareAndFlush`, given what the informer stores hold, what the remote read returned and the cache's generation
after that read. -/
def compareAndFlush (k : Provider) (source : List Instance) (read : Except GoError (List Instance)) (current : ℕ)
    (order : List Instance) : Multiset Instance :=
  if k.generation = 0 ∧ source.isEmpty then 0
  else
    let (all, generation, _) := ((k.bootstrapCacheFromSource source).snapshotForFullPushMode false).1
    if all.isEmpty then 0
    else
      let list := match read with
        | .ok list => list
        | .error _ => []
      if current ≠ generation then 0
      else if list.isEmpty then
        if config.nacosReconcile then 0 else (all.map buildAndSendEvent).sum
      else compareViews config all (ofPushAppCodes config.pushAppCodes list) order

end Compare

/-! ## The events of a compare -/

variable {config : ReconcileConfig} {items : Instances} {state : CompareState} {remote : FiniteMap String Instance}
  {target : Instance} {order : List Instance}

/-- What a compare sends because of a target. -/
def verdict (config : ReconcileConfig) (items : Instances) (remote : FiniteMap String Instance)
    (target : Instance) : Multiset Instance :=
  match lookupIdentity remote items target with
  | some found => if config.differs target found then buildAndSendEvent target else 0
  | none => if target.status = instanceStatusOnline then buildAndSendEvent target else 0

/-- The target is matched by its own identity or not at all. -/
def MatchesOwn (items : Instances) (remote : FiniteMap String Instance) (target : Instance) : Prop :=
  ∀ found, lookupIdentity remote items target = some found → identityKey found = identityKey target

/-- The decision about such a target leaves the other identities alone. -/
theorem compareOne_own (config : ReconcileConfig) (own : MatchesOwn items state.remote target) :
    (compareOne config items state target).events = state.events + verdict config items state.remote target ∧
      ∀ key, key ≠ identityKey target → (compareOne config items state target).remote.lookup key = state.remote.lookup key := by
  simp only [compareOne, verdict]
  cases match_ : lookupIdentity state.remote items target with
  | none => exact ⟨rfl, fun _ _ => rfl⟩
  | some found =>
    refine ⟨rfl, fun key other => ?_⟩
    rw [FiniteMap.lookup_erase_ite, own found match_, if_neg other]

/-- A compare of different identities sends what it has to say about each target. -/
theorem compare_events (distinct : (order.map identityKey).Nodup)
    (own : ∀ target ∈ order, MatchesOwn items state.remote target) :
    (order.foldl (compareOne config items) state).events =
      state.events + (order.map (verdict config items state.remote)).sum := by
  induction order generalizing state with
  | nil => exact (add_zero _).symm
  | cons target rest ih =>
    rw [List.map_cons, List.nodup_cons] at distinct
    obtain ⟨sent, others⟩ := compareOne_own config (own target List.mem_cons_self)
    -- The decision about the target does not change what is found for the rest.
    have same : ∀ other ∈ rest, lookupIdentity (compareOne config items state target).remote items other =
        lookupIdentity state.remote items other := by
      intro other member
      refine lookupIdentity_congr items (others _ ?_)
      exact fun equal => distinct.1 (equal ▸ List.mem_map_of_mem member)
    rw [List.foldl_cons, ih distinct.2, sent, List.map_cons, List.sum_cons, add_assoc]
    · congr 2
      refine congrArg List.sum (List.map_congr_left fun other member => ?_)
      rw [verdict, verdict, same other member]
    · intro other member found match_
      rw [same other member] at match_
      exact own other (List.mem_cons_of_mem target member) found match_

theorem compare_silent_iff (distinct : (order.map identityKey).Nodup) (own : ∀ target ∈ order, MatchesOwn items remote target) :
    (order.foldl (compareOne config items) { remote := remote }).events = 0 ↔
      ∀ target ∈ order, verdict config items remote target = 0 := by
  rw [compare_events distinct own, zero_add, List.sum_eq_zero_iff]
  exact List.forall_mem_map

end Spotter.Providers.K8s
