import Spotter.Providers.Consul.CacheEvents
import Spotter.Providers.Consul.Conversion

/-! # The incremental and the full view of one catalog

A sync sends events about what changed in the cache, and a full push sends a snapshot; both start from the instances that
the catalog's endpoints convert to. They differ where a sync announces an added instance as running whatever its checks
say, and where several endpoints share an identity.
-/

namespace Spotter.Providers.Consul

open Library Domain

/-- An entry of the catalog with the instance it converts to. -/
structure Endpoint (lib : ConversionLib) (sourceCluster : String) where
  entry : ServiceEntry
  ins : Instance
  converted : convertInstanceForSource lib (some entry) sourceCluster = .value ins

variable {lib : ConversionLib} {sourceCluster : String}

theorem convert_value {entry : ServiceEntry} {ins : Instance}
    (converted : convertInstanceForSource lib (some entry) sourceCluster = .value ins) :
    ∃ node service ports, entry.node = some node ∧ entry.service = some service ∧
      ins = entry.toInstance node service ports sourceCluster := by
  cases held : entry.service with
  | none => simp [convertInstanceForSource, convertPort, held, Outcome.deref, Outcome.mapError] at converted
  | some service =>
    rcases convertPort_cases lib held with ⟨crashed, _⟩ | ⟨⟨err, failed⟩, _⟩ | ⟨ports, ps, value, parsed, _⟩
    · simp [convertInstanceForSource, crashed, Outcome.mapError] at converted
    · simp [convertInstanceForSource, failed, Outcome.mapError] at converted
    · rw [convert_of_ports held value parsed] at converted
      split_ifs at converted with unnamed unversioned
      cases found : entry.node with
      | none =>
        rw [found] at converted
        cases converted
      | some node =>
        rw [found] at converted
        cases converted
        exact ⟨node, service, ports, rfl, rfl, rfl⟩

namespace Endpoint

variable (e : Endpoint lib sourceCluster)

/-- The check of the service itself passes. -/
def passing : Bool := e.entry.servicePassing e.ins.appCode

theorem status_eq :
    e.ins.status = if e.passing then instanceStatusOnline else instanceStatusUnhealthy := by
  obtain ⟨node, service, ports, _, _, made⟩ := convert_value e.converted
  rw [passing, made]
  rfl

/-- Announcing an instance changes it unless its service check passes. -/
theorem canonical_announced_iff :
    canonical e.ins = canonical (announced e.ins) ↔ e.passing = true := by
  constructor
  · intro same
    have online : e.ins.status = instanceStatusOnline := congrArg Instance.status same
    by_contra failing
    rw [e.status_eq, if_neg failing] at online
    cases online
  · intro passes
    obtain ⟨node, service, ports, _, _, made⟩ := convert_value e.converted
    have check : e.entry.servicePassing (service.metaValue metaAppcode) = true := by
      rw [passing, made] at passes
      exact passes
    have same : announced e.ins = e.ins := by
      rw [made]
      simp [announced, ServiceEntry.toInstance, check]
    rw [same]

end Endpoint

/-- The catalog of the endpoints. -/
def endpointCatalog (endpoints : List (Endpoint lib sourceCluster)) : Catalog where
  instances := endpoints.map Endpoint.ins
  present := by
    intro ins member
    obtain ⟨e, _, rfl⟩ := List.mem_map.mp member
    rw [e.status_eq]
    split_ifs
    · exact .inl rfl
    · exact .inr rfl

/-- The instances that a read collects come from endpoints. -/
theorem toInstanceWithSkipped_endpoints {entries : List (Option ServiceEntry)} {inss : List Instance} {skipped : ℕ}
    (collected : toInstanceWithSkipped lib sourceCluster entries = some (inss, skipped)) :
    ∃ endpoints : List (Endpoint lib sourceCluster), endpoints.map Endpoint.ins = inss := by
  induction entries generalizing inss skipped with
  | nil =>
    cases collected
    exact ⟨[], rfl⟩
  | cons ep rest ih =>
    cases converted : convertInstanceForSource lib ep sourceCluster with
    | crash => simp [toInstanceWithSkipped, converted] at collected
    | error err =>
      simp only [toInstanceWithSkipped, converted, Option.map_eq_some_iff, Prod.mk.injEq] at collected
      obtain ⟨⟨others, count⟩, later, rfl, _⟩ := collected
      exact ih later
    | value ins =>
      simp only [toInstanceWithSkipped, converted, Option.map_eq_some_iff, Prod.mk.injEq] at collected
      obtain ⟨⟨others, count⟩, later, rfl, _⟩ := collected
      obtain ⟨endpoints, equal⟩ := ih later
      cases ep with
      | none => cases converted
      | some entry => exact ⟨⟨entry, ins, converted⟩ :: endpoints, by rw [List.map_cons, equal]⟩

theorem readServices_endpoints {read : CatalogAnswers} {names : List String} {snapshot : ConsulSnapshot}
    (before : List (Endpoint lib sourceCluster))
    (taken : readServices lib sourceCluster read names (before.map Endpoint.ins) = some snapshot) :
    ∃ endpoints : List (Endpoint lib sourceCluster), snapshot.instances = (endpointCatalog endpoints).instances := by
  induction names generalizing before with
  | nil =>
    cases taken
    exact ⟨before, rfl⟩
  | cons name rest ih =>
    rw [readServices] at taken
    cases answered : read.entries name with
    | error err =>
      rw [answered] at taken
      cases taken
      exact ⟨[], rfl⟩
    | ok entries =>
      cases collected : toInstanceWithSkipped lib sourceCluster entries with
      | none => simp [answered, collected] at taken
      | some pair =>
        obtain ⟨inss, skipped⟩ := pair
        obtain ⟨endpoints, rfl⟩ := toInstanceWithSkipped_endpoints collected
        simp only [answered, collected] at taken
        by_cases malformed : 0 < skipped
        · rw [if_pos malformed] at taken
          cases taken
          exact ⟨[], rfl⟩
        · rw [if_neg malformed, ← List.map_append] at taken
          exact ih (before ++ endpoints) taken

/-- Every snapshot that a read returns is a catalog of endpoints. -/
theorem readSnapshot_endpoints {read : CatalogAnswers} {snapshot : ConsulSnapshot}
    (taken : readSnapshot lib sourceCluster read = some snapshot) :
    ∃ endpoints : List (Endpoint lib sourceCluster), snapshot.instances = (endpointCatalog endpoints).instances := by
  rw [readSnapshot] at taken
  cases services : read.services with
  | error err =>
    rw [services] at taken
    cases taken
    exact ⟨[], rfl⟩
  | ok names =>
    rw [services] at taken
    exact readServices_endpoints [] taken

/-- The last endpoint of an identity that the cache does not hold back: its revision is not below the cached one. -/
def lastCurrent (old : Cache) (endpoints : List (Endpoint lib sourceCluster)) (key : String) : Option (Endpoint lib sourceCluster) :=
  endpoints.reverse.find? fun e =>
    decide (identityKey e.ins = key) && (old.get key).all fun previous => decide (previous.reversion ≤ e.ins.reversion)

theorem merge_eq (old : Cache) (endpoints : List (Endpoint lib sourceCluster)) :
    mergeMonotonicInstances old (endpointCatalog endpoints).instances = endpoints.map fun e => mergeOne old e.ins := by
  rw [merge_eq_map, endpointCatalog, List.map_map]
  rfl

variable {endpoints : List (Endpoint lib sourceCluster)} {old : Cache}

/-- A cached instance that the old cache did not have is the last current endpoint's. -/
theorem changed_lastCurrent {value : Instance}
    (cached : value ∈ (cacheOf (mergeMonotonicInstances old (endpointCatalog endpoints).instances)).entries)
    (changed : old.get (identityKey value) ≠ some value) :
    ∃ last, lastCurrent old endpoints (identityKey value) = some last ∧ last.ins = value := by
  have found := SortedStore.find_eq_some_iff.mpr ⟨cached, rfl⟩
  rw [find_cacheOf, merge_eq, ← List.map_reverse, List.find?_map, Option.map_eq_some_iff] at found
  obtain ⟨last, found, kept⟩ := found
  obtain ⟨_, later, earlier, split, passed⟩ := List.find?_eq_some_iff_append.mp found
  have own : mergeOne old last.ins = last.ins ∧
      ∀ previous, old.get (identityKey last.ins) = some previous → previous.reversion ≤ last.ins.reversion := by
    rcases mergeOne_cases old last.ins with current | ⟨previous, held, _, stale⟩
    · exact current
    · refine absurd ?_ changed
      rw [← kept, stale]
      exact Cache.get_of_find (SortedStore.find_eq_some_iff.mpr ⟨Cache.get_mem held, rfl⟩)
  rw [own.1] at kept
  subst kept
  refine ⟨last, ?_, rfl⟩
  rw [lastCurrent, List.find?_eq_some_iff_append]
  refine ⟨?_, later, earlier, split, ?_⟩
  · rw [decide_eq_true rfl, Bool.true_and, Option.all_eq_true]
    exact fun previous held => decide_eq_true (own.2 previous held)
  · intro e after
    have other := passed e after
    simp only [Function.comp_apply, Bool.not_eq_true', decide_eq_false_iff_not] at other
    rw [Bool.not_eq_true', ← Bool.not_eq_true, Bool.and_eq_true, decide_eq_true_eq, Option.all_eq_true]
    rintro ⟨same, current⟩
    rcases mergeOne_cases old e.ins with ⟨equal, _⟩ | ⟨previous, held, behind, _⟩
    · rw [equal] at other
      exact other same
    · rw [same] at held
      exact absurd behind (not_lt.mpr (of_decide_eq_true (current previous held)))

/-- A full push has the cached instance of an identity and the endpoints that are not behind it. -/
theorem merge_forall_iff {cache : Cache} {last : Endpoint lib sourceCluster}
    (held : cache.find (identityKey last.ins) = some last.ins) (listed : last ∈ endpoints) (P : Instance → Prop) :
    (∀ ins ∈ mergeMonotonicInstances cache (endpointCatalog endpoints).instances, identityKey ins = identityKey last.ins → P ins) ↔
      ∀ e ∈ endpoints, identityKey e.ins = identityKey last.ins → last.ins.reversion ≤ e.ins.reversion → P e.ins := by
  have cached := Cache.get_of_find held
  rw [merge_eq]
  constructor
  · intro pushed e member same ahead
    have own : mergeOne cache e.ins = e.ins := by
      rcases mergeOne_cases cache e.ins with ⟨equal, _⟩ | ⟨previous, found, behind, _⟩
      · exact equal
      · rw [same, cached] at found
        cases found
        exact absurd behind (not_lt.mpr ahead)
    exact pushed e.ins (List.mem_map.mpr ⟨e, member, own⟩) same
  · intro agreed ins member same
    obtain ⟨e, among, rfl⟩ := List.mem_map.mp member
    rcases mergeOne_cases cache e.ins with ⟨equal, current⟩ | ⟨previous, found, _, stale⟩
    · rw [equal] at same ⊢
      rw [same] at current
      exact agreed e among same (current last.ins cached)
    · rw [stale] at same ⊢
      have stored := SortedStore.find_eq_some_iff.mpr ⟨Cache.get_mem found, same⟩
      rw [held] at stored
      cases stored
      exact agreed last listed rfl le_rfl

theorem updated_irrefl (json : PayloadJSON) (ins : Instance) : updated json ins ins = false := by
  simp [updated]

/-- An event is about a cached instance that the old cache did not have; an added one is announced. -/
theorem change_cases {config : Config} {new : Cache} {event : Instance}
    (carried : event ∈ (extractDiff config old new).add ++ (extractDiff config old new).update) :
    ∃ value ∈ new.entries, old.get (identityKey value) ≠ some value ∧
      (old.get (identityKey value) = none ∧ event = announced value ∨
        old.get (identityKey value) ≠ none ∧ event = value) := by
  rcases List.mem_append.mp carried with added | changed
  · obtain ⟨value, kept, rfl⟩ := List.mem_map.mp added
    obtain ⟨member, test⟩ := List.mem_filter.mp kept
    rw [Bool.and_eq_true, Option.isNone_iff_eq_none] at test
    refine ⟨value, member, ?_, .inl ⟨test.1, rfl⟩⟩
    rw [test.1]
    exact (Option.some_ne_none value).symm
  · obtain ⟨member, test⟩ := List.mem_filter.mp changed
    rw [Bool.and_eq_true, Option.any_eq_true] at test
    obtain ⟨⟨previous, held, differs⟩, _⟩ := test
    refine ⟨event, member, ?_, .inr ⟨?_, rfl⟩⟩
    · rw [held]
      intro same
      cases same
      rw [updated_irrefl] at differs
      cases differs
    · rw [held]
      exact Option.some_ne_none previous

/-- The full push of an identity agrees with its event: the identity was cached before or its last current endpoint passes its
own check, and no endpoint of the identity that is not behind the last one differs from it. -/
def Agrees (old : Cache) (endpoints : List (Endpoint lib sourceCluster)) (key : String) : Prop :=
  ∃ last, lastCurrent old endpoints key = some last ∧ (old.get key ≠ none ∨ last.passing = true) ∧
    ∀ e ∈ endpoints, identityKey e.ins = key → last.ins.reversion ≤ e.ins.reversion → canonical e.ins = canonical last.ins

theorem lastCurrent_spec {key : String} {last : Endpoint lib sourceCluster} (found : lastCurrent old endpoints key = some last) :
    last ∈ endpoints ∧ identityKey last.ins = key := by
  have test := List.find?_some found
  rw [Bool.and_eq_true, decide_eq_true_eq] at test
  exact ⟨List.mem_reverse.mp (List.mem_of_find?_eq_some found), test.1⟩

/-- The instance of an add or update event is canonically equal to all that a full push from the same catalog has for its
identity, exactly if the endpoints of the identity agree. -/
theorem event_agrees_iff {config : Config} {k : Provider} {endpoints : List (Endpoint lib config.sourceCluster)}
    {dispatch : Dispatch} {event : Instance} {advance : Bool} {all : List Instance} {generation : ℕ} {confirmed : Bool}
    (synced : (k.syncInstanceAt config (some (endpointCatalog endpoints))).2 = some dispatch) (carried : event ∈ dispatch.announces)
    (pushed : ((k.syncInstanceAt config (some (endpointCatalog endpoints))).1.snapshotForFullPushMode advance
      (some (endpointCatalog endpoints))).2 = some (all, generation, confirmed)) :
    (∀ ins ∈ all, identityKey ins = identityKey event → canonical ins = canonical event) ↔
      Agrees k.cache endpoints (identityKey event) := by
  obtain ⟨replaced, events⟩ := sync_dispatch synced
  obtain ⟨value, cached, changed, kind⟩ := change_cases (events ▸ dispatch.mem_announces carried)
  obtain ⟨last, found, rfl⟩ := changed_lastCurrent cached changed
  have key : identityKey event = identityKey last.ins := by
    rcases kind with ⟨_, rfl⟩ | ⟨_, rfl⟩
    · exact identityKey_announced last.ins
    · rfl
  have view : all = mergeMonotonicInstances (k.syncInstanceAt config (some (endpointCatalog endpoints))).1.cache
      (endpointCatalog endpoints).instances := by
    simp only [Provider.snapshotForFullPushMode, Option.some_inj, Prod.mk.injEq] at pushed
    exact pushed.1.symm
  have listed := (lastCurrent_spec found).1
  rw [view, replaced, key, merge_forall_iff (SortedStore.find_eq_some_iff.mpr ⟨cached, rfl⟩) listed]
  rcases kind with ⟨fresh, rfl⟩ | ⟨known, rfl⟩
  · constructor
    · intro agreed
      have passes := last.canonical_announced_iff.mp (agreed last listed rfl le_rfl)
      refine ⟨last, found, .inr passes, fun e member same ahead => ?_⟩
      rw [agreed e member same ahead, ← last.canonical_announced_iff.mpr passes]
    · rintro ⟨other, again, cause, agreed⟩ e member same ahead
      rw [found] at again
      cases again
      have passes := cause.resolve_left fun known => known fresh
      rw [agreed e member same ahead, last.canonical_announced_iff.mpr passes]
  · constructor
    · exact fun agreed => ⟨last, found, .inl known, agreed⟩
    · rintro ⟨other, again, _, agreed⟩
      rw [found] at again
      cases again
      exact agreed

/-- A library that reads no ports. -/
def portlessLib : ConversionLib := ⟨fun _ => .ok [], fun protocol _ => protocol⟩

def webNode : Node := { id := "n1", node := "host-1", address := "10.0.0.1" }

def webService : AgentService where
  id := "web-1"
  metadata := some ((((Finmap.singleton metaPorts "[]").insert metaAppcode "shop").insert metaVersion "v1").insert metaEnvType "dev")
  modifyIndex := 7

def agreementConfig : Config := { json := ⟨fun ins => ins.instanceId, fun _ => none⟩, nacosReconcile := true, sourceCluster := "dc1" }

/-- A registration with the given checks. -/
def registered (checks : List HealthCheck) : Endpoint portlessLib agreementConfig.sourceCluster where
  entry := { node := some webNode, service := some webService, checks := checks }
  ins := ({ node := some webNode, service := some webService, checks := checks } : ServiceEntry).toInstance webNode webService [] "dc1"
  converted := by
    have parsed : webService.PortsParse portlessLib [] := ⟨by decide, rfl⟩
    rw [convert_of_ports rfl rfl parsed, if_neg (by decide), if_neg (by decide)]
    rfl

/-- The node is up and the service has its own check. -/
def checkedWeb : List (Endpoint portlessLib agreementConfig.sourceCluster) :=
  [registered [⟨"serfHealth", "passing"⟩, ⟨"service:web-1", "passing"⟩]]

/-- The node is up and the service has no check of its own. -/
def uncheckedWeb : List (Endpoint portlessLib agreementConfig.sourceCluster) := [registered [⟨"serfHealth", "passing"⟩]]

/-- The first sync of the endpoints by a provider that has just started, as its events, and the full push after it. -/
def firstViews (endpoints : List (Endpoint portlessLib agreementConfig.sourceCluster)) : List Instance × List Instance :=
  let (k, dispatch) := ({} : Provider).syncInstanceAt agreementConfig (some (endpointCatalog endpoints))
  ((dispatch.map Dispatch.announces).getD [], ((k.snapshotForFullPushMode true (some (endpointCatalog endpoints))).2.map Prod.fst).getD [])

/-- The sync of the checked endpoint. -/
def checkedDispatch : Dispatch := ⟨extractDiff agreementConfig {} (cacheOf (checkedWeb.map Endpoint.ins)), false⟩

theorem checked_views_agree : (firstViews checkedWeb).1 = (firstViews checkedWeb).2 ∧
      ∀ ins ∈ (firstViews checkedWeb).2, identityKey ins = "dc1/n1/web-1" →
        canonical ins = canonical (registered [⟨"serfHealth", "passing"⟩, ⟨"service:web-1", "passing"⟩]).ins := by
  have event : (registered [⟨"serfHealth", "passing"⟩, ⟨"service:web-1", "passing"⟩]).ins ∈ checkedDispatch.announces := by
    decide +kernel
  have synced : (({} : Provider).syncInstanceAt agreementConfig (some (endpointCatalog checkedWeb))).2 = some checkedDispatch := rfl
  have pushed : ((({} : Provider).syncInstanceAt agreementConfig (some (endpointCatalog checkedWeb))).1.snapshotForFullPushMode true
      (some (endpointCatalog checkedWeb))).2 = some ((firstViews checkedWeb).2, 1, false) := rfl
  refine ⟨by decide +kernel, ?_⟩
  refine (event_agrees_iff synced event pushed).mpr ⟨_, rfl, .inr (by decide), ?_⟩
  intro e member _ _
  obtain rfl := List.mem_singleton.mp member
  rfl

/-- The event says online, and the full push of the same endpoint says unhealthy. -/
theorem unchecked_views_differ : (firstViews uncheckedWeb).1.map (fun ins => (identityKey ins, ins.status, ins.state)) =
        [("dc1/n1/web-1", instanceStatusOnline, instanceStateRunning)] ∧
      (firstViews uncheckedWeb).2.map (fun ins => (identityKey ins, ins.status, ins.state)) =
        [("dc1/n1/web-1", instanceStatusUnhealthy, instanceStateProbing)] := by
  decide +kernel

end Spotter.Providers.Consul
