import Spotter.Providers.Consul.Sources
import Spotter.Providers.Consul.ViewAgreement

/-! # The cache along a run of snapshots

A sync builds a new cache from a snapshot, and a compare clears and refills the one it has. Both merge the snapshot with what
was cached, so a stale read does not take a revision back, and both drop the identities that the snapshot omits.
-/

namespace Spotter.Providers.Consul

open Library Domain

variable {lib : ConversionLib}

theorem slash_mem_consulSourceKey (sourceCluster instanceID : String) {entry : ServiceEntry} {service : AgentService}
    (provided : entry.service = some service) : '/' ∈ (consulSourceKey sourceCluster (some entry) instanceID).toList := by
  rcases entry with ⟨node, _, checks⟩
  cases provided
  simp only [consulSourceKey, String.toList_append]
  exact List.mem_append_left _ (List.mem_append_right _ (List.mem_singleton_self '/'))

/-- The identity of a converted endpoint is its source key, which `Get` never takes for a wire id. -/
theorem Endpoint.qualified {sourceCluster : String} (named : sourceCluster ≠ "") (e : Endpoint lib sourceCluster) :
    Cache.sourceQualified (identityKey e.ins) = true := by
  obtain ⟨node, service, ports, _, provided, made⟩ := convert_value e.converted
  have slash := slash_mem_consulSourceKey sourceCluster (service.metaValue metaInstanceId) provided
  have key : e.ins.sourceKey = consulSourceKey sourceCluster (some e.entry) (service.metaValue metaInstanceId) := by
    rw [made]
    exact if_pos named
  rw [← key] at slash
  have keyed : e.ins.sourceKey ≠ "" := by
    intro empty
    rw [empty] at slash
    cases slash
  rw [identityKey, if_pos keyed, Cache.sourceQualified, Bool.or_eq_true]
  exact .inr (List.contains_iff_mem.mpr slash)

inductive RefreshKind
  | sync
  | compare
deriving DecidableEq

/-- A non-empty snapshot and what processes it. -/
structure Refresh (lib : ConversionLib) (sourceCluster : String) where
  kind : RefreshKind
  endpoints : List (Endpoint lib sourceCluster)
  occupied : endpoints ≠ []

section Run

variable {config : Config}

/-- The provider after the locked part of the sync or the compare. -/
def Provider.refreshed (config : Config) (k : Provider) (refresh : Refresh lib config.sourceCluster) : Provider :=
  match refresh.kind with
  | .sync => (k.syncInstanceAt config (some (endpointCatalog refresh.endpoints))).1
  | .compare => (k.compareSnapshot (some (endpointCatalog refresh.endpoints))).1

/-- The update events of a sync. -/
def Provider.updates (config : Config) (k : Provider) (refresh : Refresh lib config.sourceCluster) : List Instance :=
  match refresh.kind with
  | .sync => ((k.syncInstanceAt config (some (endpointCatalog refresh.endpoints))).2.map (·.events.update)).getD []
  | .compare => []

def Provider.after (config : Config) (k : Provider) (run : List (Refresh lib config.sourceCluster)) : Provider :=
  run.foldl (Provider.refreshed config) k

variable {k : Provider}

theorem after_append_singleton (run : List (Refresh lib config.sourceCluster)) (refresh : Refresh lib config.sourceCluster) :
    k.after config (run ++ [refresh]) = (k.after config run).refreshed config refresh := by
  rw [Provider.after, Provider.after, List.foldl_append]
  rfl

/-- Both kinds leave the merged snapshot in the cache. -/
theorem refreshed_cache (refresh : Refresh lib config.sourceCluster) : (k.refreshed config refresh).cache =
      cacheOf (mergeMonotonicInstances k.cache (endpointCatalog refresh.endpoints).instances) := by
  have full : (endpointCatalog refresh.endpoints).instances.isEmpty = false :=
    List.isEmpty_eq_false_iff.mpr fun none => refresh.occupied (List.map_eq_nil_iff.mp none)
  rw [Provider.refreshed]
  cases refresh.kind with
  | sync => simp only [Provider.syncInstanceAt, full, Bool.false_eq_true, ↓reduceIte, Provider.replaceCache]
  | compare => simp only [Provider.compareSnapshot, full, Bool.false_eq_true, ↓reduceIte, Provider.replaceCache]

section Named

variable (named : config.sourceCluster ≠ "")

include named

section

variable (refresh : Refresh lib config.sourceCluster)

include refresh

theorem catalog_qualified :
    ∀ ins ∈ (endpointCatalog refresh.endpoints).instances, Cache.sourceQualified (identityKey ins) = true := by
  intro ins member
  obtain ⟨e, _, rfl⟩ := List.mem_map.mp member
  exact e.qualified named

theorem refreshed_identities (key : String) :
    ((k.refreshed config refresh).cache.find key).isSome = true ↔ ∃ e ∈ refresh.endpoints, identityKey e.ins = key := by
  rw [refreshed_cache, cacheOf_find_isSome, merge_identities k.cache (catalog_qualified named refresh), endpointCatalog,
    List.map_map, List.mem_map]
  rfl

/-- One snapshot takes no cached revision back. -/
theorem refreshed_monotone {key : String} {previous ins : Instance}
    (cached : k.cache.find key = some previous) (now : (k.refreshed config refresh).cache.find key = some ins) :
    previous.reversion ≤ ins.reversion := by
  rw [refreshed_cache] at now
  obtain ⟨member, rfl⟩ := SortedStore.find_eq_some_iff.mp now
  have merged := cacheOf_mem member
  rw [merge_eq_map] at merged
  obtain ⟨read, listed, rfl⟩ := List.mem_map.mp merged
  exact (mergeOne_merges k.cache (catalog_qualified named refresh read listed)).monotone previous cached

/-- A sync updates an identity that was cached, at a higher revision or with another payload at the same one. -/
theorem updates_worth {event : Instance} (sent : event ∈ k.updates config refresh) :
    ∃ previous, k.cache.find (identityKey event) = some previous ∧
      (k.refreshed config refresh).cache.find (identityKey event) = some event ∧
        updated config.json previous event = true := by
  rw [refreshed_cache]
  rw [Provider.updates] at sent
  cases kind : refresh.kind with
  | compare =>
    rw [kind] at sent
    cases sent
  | sync =>
    rw [kind] at sent
    cases synced : (k.syncInstanceAt config (some (endpointCatalog refresh.endpoints))).2 with
    | none =>
      simp only [synced] at sent
      cases sent
    | some dispatch =>
      simp only [synced, Option.map_some, Option.getD_some, (sync_dispatch synced).2] at sent
      obtain ⟨member, test⟩ := List.mem_filter.mp sent
      rw [Bool.and_eq_true, Option.any_eq_true] at test
      obtain ⟨⟨previous, held, changed⟩, _⟩ := test
      have found := SortedStore.find_eq_some_iff.mpr ⟨member, rfl⟩
      have listed : ∃ e ∈ refresh.endpoints, identityKey e.ins = identityKey event := by
        rw [← refreshed_identities named (k := k), refreshed_cache, found]
        rfl
      obtain ⟨e, _, same⟩ := listed
      rw [← same, Cache.get_qualified (e.qualified named), same] at held
      exact ⟨previous, held, found, changed⟩

end

/-- A revision does not go back along a run at whose every point its identity is cached. -/
theorem after_monotone (run : List (Refresh lib config.sourceCluster)) {key : String}
    (present : ∀ n ≤ run.length, ((k.after config (run.take n)).cache.find key).isSome = true) {first last : Instance}
    (before : k.cache.find key = some first) (now : (k.after config run).cache.find key = some last) :
    first.reversion ≤ last.reversion := by
  induction run using List.reverseRecOn generalizing last with
  | nil =>
    have same : k.cache.find key = some last := now
    rw [before] at same
    cases same
    exact le_rfl
  | append_singleton run refresh ih =>
    have earlier : ∀ n ≤ run.length, ((k.after config (run.take n)).cache.find key).isSome = true := by
      intro n bound
      have step := present n (bound.trans (List.sublist_append_left _ _).length_le)
      rwa [List.take_append_of_le_length bound] at step
    have held := earlier run.length le_rfl
    rw [List.take_length] at held
    obtain ⟨middle, held⟩ := Option.isSome_iff_exists.mp held
    rw [after_append_singleton] at now
    exact (ih earlier held).trans (refreshed_monotone named refresh held now)

end Named

end Run

/-- For a provider of a resolved source and every run of non-empty snapshots, stale and repeated ones included: a revision does
not go back while its identity stays cached, each snapshot leaves exactly its identities in the cache, and a sync updates an
identity only at a higher revision or with another canonical payload at the same one. -/
theorem cached_revisions_monotone {sum256 : String → Vector UInt8 32} {sourceID : String} {addresses : List String}
    {config : Config} (resolved : consulSourceID sum256 sourceID addresses = .ok config.sourceCluster) (k : Provider)
    (run : List (Refresh lib config.sourceCluster)) :
    (∀ later key first last, (∀ n ≤ later.length, ((k.after config (run ++ later.take n)).cache.find key).isSome = true) →
        (k.after config run).cache.find key = some first → (k.after config (run ++ later)).cache.find key = some last →
          first.reversion ≤ last.reversion) ∧
      ∀ refresh, (∀ key, ((k.after config (run ++ [refresh])).cache.find key).isSome = true ↔
          ∃ e ∈ refresh.endpoints, identityKey e.ins = key) ∧
        ∀ event ∈ (k.after config run).updates config refresh, ∃ previous,
          (k.after config run).cache.find (identityKey event) = some previous ∧
            (k.after config (run ++ [refresh])).cache.find (identityKey event) = some event ∧
              (previous.reversion < event.reversion ∨ event.reversion = previous.reversion ∧
                  canonicalPayload config.json event ≠ canonicalPayload config.json previous) := by
  have named := (wireName_of_consulSourceID resolved).named
  have joined : ∀ later, k.after config (run ++ later) = (k.after config run).after config later := fun later => List.foldl_append
  refine ⟨?_, ?_⟩
  · intro later key first last present before now
    simp only [joined] at present now
    exact after_monotone named later present before now
  · intro refresh
    rw [after_append_singleton]
    refine ⟨refreshed_identities named refresh, ?_⟩
    intro event sent
    obtain ⟨previous, cached, found, worth⟩ := updates_worth named refresh sent
    exact ⟨previous, cached, found, of_decide_eq_true worth⟩

/-- The registration at the given index. -/
def registeredAt (modifyIndex : UInt64) : Endpoint portlessLib agreementConfig.sourceCluster where
  entry := { node := some webNode, service := some { webService with modifyIndex := modifyIndex }, checks := [] }
  ins := ({ node := some webNode, service := some { webService with modifyIndex := modifyIndex }, checks := [] } :
    ServiceEntry).toInstance webNode { webService with modifyIndex := modifyIndex } [] "dc1"
  converted := by
    have ports : webService.metaValue metaPorts ≠ "" := by decide
    have named : webService.metaValue metaAppcode ≠ "" := by decide
    have versioned : webService.metaValue metaVersion ≠ "" := by decide
    have parsed : ({ webService with modifyIndex := modifyIndex } : AgentService).PortsParse portlessLib [] := ⟨ports, rfl⟩
    rw [convert_of_ports rfl rfl parsed]
    exact (if_neg named).trans (if_neg versioned)

/-- A read, and a stale read that lists the registration twice. -/
def staleRun : List (Refresh portlessLib agreementConfig.sourceCluster) :=
  [⟨.sync, [registeredAt 7], List.cons_ne_nil _ _⟩, ⟨.compare, [registeredAt 5, registeredAt 6], List.cons_ne_nil _ _⟩]

theorem stale_read_keeps_revision :
    ∃ first last, (({} : Provider).after agreementConfig (staleRun.take 1)).cache.find "dc1/n1/web-1" = some first ∧
      (({} : Provider).after agreementConfig staleRun).cache.find "dc1/n1/web-1" = some last ∧ first.reversion ≤ last.reversion := by
  have resolved : consulSourceID (fun _ => Vector.replicate 32 0) "dc1" [] = .ok agreementConfig.sourceCluster := by
    rw [consulSourceID]
    rfl
  have before : (({} : Provider).after agreementConfig (staleRun.take 1)).cache.find "dc1/n1/web-1" = some (registeredAt 7).ins := by
    decide +kernel
  have now : (({} : Provider).after agreementConfig staleRun).cache.find "dc1/n1/web-1" = some (registeredAt 7).ins := by
    decide +kernel
  refine ⟨_, _, before, now, ?_⟩
  refine (cached_revisions_monotone resolved {} (staleRun.take 1)).1 (staleRun.drop 1) _ _ _ ?_ before now
  decide +kernel

end Spotter.Providers.Consul
