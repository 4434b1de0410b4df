import Spotter.Providers.Consul.CacheEvents
import Spotter.Providers.Consul.WatchPath

/-! # The sinks follow the catalog

A sink follows the provider's cache when it has registered the cached identities and no others, and its
ledger holds each of them live at no higher revision. A sync keeps this if every identity that is new to
the cache comes above what the ledgers hold of it, and if a read with a hundred new instances, which may
be pushed as one snapshot, names no identity twice.
-/

namespace Spotter.Providers.Consul

open Library Domain Ports Worker

/-- The sink has registered exactly the cached identities, and its ledger would accept each of them again. -/
structure Follows (cache : Cache) (sink : OrderedSink) (log : List Instance) : Prop where
  opened : sink.closed = false
  registered : ∀ key, registeredBy log key = (cache.find key).isSome
  live : ∀ key ins, cache.find key = some ins →
    ∃ entry, sink.latest.lookup key = some entry ∧ entry.tombstone = false ∧ entry.revision ≤ ins.reversion

/-- The filters ask for a revision. -/
theorem Admitted.revised {config : Config} {ins : Instance} (standard : config.filters = initInstanceFilters)
    (admitted : Admitted config ins) : ins.reversion ≠ 0 := by
  intro unrevised
  have verified := admitted.verified
  rw [standard] at verified
  simp only [verifyInstance, initInstanceFilters, List.findSome?_singleton, defaultInstanceFilter, unrevised, ↓reduceIte] at verified
  split_ifs at verified

theorem registeredBy_append (log later : List Instance) (key : String) : registeredBy (log ++ later) key =
      match lastWrite later key with
      | some item => listedStatus item
      | none => registeredBy log key := by
  rw [registeredBy, lastWrite_append]
  cases lastWrite later key <;> rfl

theorem offline_of_listed {ins : Instance} (listed : listedStatus ins = true) : ins.offline = false := by
  simp only [listedStatus, decide_eq_true_eq] at listed
  rcases listed with online | unhealthy
  · simp [Instance.offline, online, instanceStatusOnline, instanceStatusOffline]
  · simp [Instance.offline, unhealthy, instanceStatusUnhealthy, instanceStatusOffline]

section Sink

variable {config : Config} {old new : Cache} {sink : OrderedSink} {log : List Instance}

/-- What a sync may rely on of a sink: cached revisions do not fall, and new identities come above the ledger. -/
structure Onward (old new : Cache) (sink : OrderedSink) : Prop where
  monotone : ∀ key ins previous, new.find key = some ins → old.find key = some previous → previous.reversion ≤ ins.reversion
  fresh : ∀ key ins, new.find key = some ins → old.find key = none →
    ∀ entry, sink.latest.lookup key = some entry → entry.revision < ins.reversion

/-- A cached instance is welcome at a sink that follows the cache before it. -/
theorem Follows.welcomes (follows : Follows old sink log) (onward : Onward old new sink) {key : String} {ins : Instance}
    (cached : new.find key = some ins) (revised : ins.reversion ≠ 0) : sink.Welcomes ins := by
  obtain ⟨_, rfl⟩ := SortedStore.find_eq_some_iff.mp cached
  refine ⟨revised, ?_⟩
  intro entry held
  cases before : old.find (identityKey ins) with
  | none => exact .inl (onward.fresh _ ins cached before entry held)
  | some previous =>
    obtain ⟨entry', held', live, atMost⟩ := follows.live _ previous before
    rw [held] at held'
    cases held'
    exact .inr ⟨live, atMost.trans (onward.monotone _ ins previous cached before)⟩

section Incremental

variable (standard : config.filters = initInstanceFilters) (oldAdmitted : AllAdmitted config old)
  (newAdmitted : AllAdmitted config new)

include standard oldAdmitted newAdmitted

theorem Follows.welcomes_event (follows : Follows old sink log) (onward : Onward old new sink) {event : Instance}
    (sent : event ∈ (extractDiff config old new).events) : sink.Welcomes event := by
  have revised : ∀ {cache : Cache} {key : String} {ins : Instance}, AllAdmitted config cache → cache.find key = some ins →
      ins.reversion ≠ 0 := by
    intro cache key ins admitted found
    exact (admitted ins (SortedStore.find_eq_some_iff.mp found).1).revised standard
  rcases event_cases oldAdmitted newAdmitted sent with ⟨ins, cached, _, rfl⟩ | ⟨_, cached, _⟩ | ⟨ins, _, cached, rfl⟩
  · obtain ⟨nonzero, newer⟩ := follows.welcomes onward cached (revised newAdmitted cached)
    exact ⟨nonzero, newer⟩
  · exact follows.welcomes onward cached (revised newAdmitted cached)
  · have nonzero := revised oldAdmitted cached
    refine ⟨nonzero, ?_⟩
    intro entry held
    obtain ⟨entry', held', live, atMost⟩ := follows.live _ ins cached
    rw [held] at held'
    cases held'
    exact .inr ⟨live, atMost⟩

/-- The events of a diff take a sink from following the old cache to following the new one. -/
theorem Follows.events (follows : Follows old sink log) (onward : Onward old new sink) (trigger : Instance → ℤ) :
    let steps := OrderedSink.pushSteps trigger (extractDiff config old new).events
    Follows new (sink.after steps) (log ++ sink.acceptedAlong steps) := by
  obtain ⟨accepted, opened, recorded⟩ := OrderedSink.pushes_welcome trigger follows.opened
    (events_distinct oldAdmitted newAdmitted)
    (fun event sent => follows.welcomes_event standard oldAdmitted newAdmitted onward sent)
  intro steps
  refine ⟨opened, ?_, ?_⟩
  · intro key
    rw [accepted, registeredBy_append]
    cases now_cached : new.find key with
    | none =>
      cases cached : old.find key with
      | none => simp [lastWrite_absent oldAdmitted newAdmitted now_cached cached, follows.registered key, cached]
      | some ins =>
        rw [lastWrite_removed oldAdmitted newAdmitted now_cached cached]
        rfl
    | some ins =>
      have member := (SortedStore.find_eq_some_iff.mp now_cached).1
      cases cached : old.find key with
      | none =>
        rw [lastWrite_added oldAdmitted newAdmitted now_cached cached]
        rfl
      | some previous =>
        cases changed : updated config.json previous ins with
        | true =>
          rw [lastWrite_updated oldAdmitted newAdmitted now_cached cached changed]
          exact (newAdmitted ins member).listed
        | false => simp [lastWrite_unchanged oldAdmitted newAdmitted now_cached cached changed, follows.registered key, cached]
  · intro key ins now_cached
    have member := (SortedStore.find_eq_some_iff.mp now_cached).1
    have revision : ∀ item : Instance, item.reversion = ins.reversion → item.offline = false →
        lastWrite (extractDiff config old new).events key = some item →
        ∃ entry, (sink.after steps).latest.lookup key = some entry ∧ entry.tombstone = false ∧ entry.revision ≤ ins.reversion := by
      intro item same online last
      refine ⟨⟨item.reversion, item.offline⟩, ?_, online, same.le⟩
      rw [recorded, last, Option.map_some, Option.some_or]
    cases cached : old.find key with
    | none => exact revision (announced ins) rfl rfl (lastWrite_added oldAdmitted newAdmitted now_cached cached)
    | some previous =>
      cases changed : updated config.json previous ins with
      | true =>
        exact revision ins rfl (offline_of_listed (newAdmitted ins member).listed)
          (lastWrite_updated oldAdmitted newAdmitted now_cached cached changed)
      | false =>
        obtain ⟨entry, held, live, atMost⟩ := follows.live key previous cached
        refine ⟨entry, ?_, live, atMost.trans (onward.monotone key ins previous now_cached cached)⟩
        rw [recorded, lastWrite_unchanged oldAdmitted newAdmitted now_cached cached changed, Option.map_none,
          Option.none_or, held]

end Incremental

/-- A snapshot that a sink accepts as a whole takes it to following the snapshot's cache, if that has the old
identities. -/
theorem Follows.snapshot {items : List Instance} {after : OrderedSink} (follows : Follows old sink log)
    (distinct : (items.map identityKey).Nodup) (listed : ∀ ins ∈ items, listedStatus ins = true)
    (kept : ∀ key, (cacheOf items).find key = none → old.find key = none) (opened : after.closed = false)
    (recorded : ∀ ins ∈ items, after.latest.lookup (identityKey ins) = some ⟨ins.reversion, ins.offline⟩) :
    Follows (cacheOf items) after (log ++ items) := by
  refine ⟨opened, ?_, ?_⟩
  · intro key
    rw [registeredBy_append]
    cases cached : (cacheOf items).find key with
    | none =>
      have absent : lastWrite items key = none := by
        rw [lastWrite_eq_none]
        intro item member same
        rw [(cacheOf_find_eq_some_iff distinct).mpr ⟨member, same⟩] at cached
        cases cached
      simp only [absent, follows.registered key, kept key cached]
    | some ins =>
      obtain ⟨member, rfl⟩ := (cacheOf_find_eq_some_iff distinct).mp cached
      rw [lastWrite_of_mem distinct member]
      exact listed ins member
  · intro key ins cached
    obtain ⟨member, rfl⟩ := (cacheOf_find_eq_some_iff distinct).mp cached
    exact ⟨_, recorded ins member, offline_of_listed (listed ins member), le_refl _⟩

end Sink

/-! ## A sync -/

/-- The provider's cache holds admitted instances, no empty read is counted, and every sink follows the cache. -/
structure WatchPath.Steady (config : Config) (w : WatchPath) : Prop where
  uncounted : w.provider.emptyConfirmations = 0
  admitted : AllAdmitted config w.provider.cache
  follows : ∀ named ∈ w.worker.pusher.sinks, Follows w.provider.cache named.sink (forwarded w.attempts named.name)

/-- The identities that are new to the cache come above what the ledgers hold of them, and a read with a hundred
new instances names no identity twice. -/
structure WatchPath.Recoverable (w : WatchPath) (catalog : Catalog) : Prop where
  fresh : ∀ ins ∈ catalog.instances, w.provider.cache.find (identityKey ins) = none →
    ∀ named ∈ w.worker.pusher.sinks, ∀ entry, named.sink.latest.lookup (identityKey ins) = some entry →
      entry.revision < ins.reversion
  distinct : consulInitialFullPushThreshold ≤
      (catalog.instances.filter fun ins => (w.provider.cache.find (identityKey ins)).isNone).length →
    (catalog.instances.map identityKey).Nodup

instance (w : WatchPath) (catalog : Catalog) : Decidable (w.Recoverable catalog) :=
  decidable_of_iff
    ((∀ ins ∈ catalog.instances, w.provider.cache.find (identityKey ins) = none →
        ∀ named ∈ w.worker.pusher.sinks, ∀ entry ∈ named.sink.latest.lookup (identityKey ins), entry.revision < ins.reversion) ∧
      (consulInitialFullPushThreshold ≤
          (catalog.instances.filter fun ins => (w.provider.cache.find (identityKey ins)).isNone).length →
        (catalog.instances.map identityKey).Nodup))
    ⟨fun both => ⟨both.1, both.2⟩, fun recoverable => ⟨recoverable.fresh, recoverable.distinct⟩⟩

section Sync

variable {config : Config} {fullBatchID : FullBatchID} {w : WatchPath}
  {watch : WatchReturn}

/-- The cache after a non-empty read. -/
def WatchPath.readCache (w : WatchPath) (catalog : Catalog) : Cache :=
  cacheOf (mergeMonotonicInstances w.provider.cache catalog.instances)

/-- The path once the catalog is read, before anything is pushed. -/
def WatchPath.read (w : WatchPath) (catalog : Catalog) : WatchPath :=
  { w with provider := w.provider.forgetEmpty.replaceCache (mergeMonotonicInstances w.provider.cache catalog.instances) }

theorem WatchPath.read_worker (w : WatchPath) (catalog : Catalog) : (w.read catalog).worker = w.worker := rfl

theorem WatchPath.read_attempts (w : WatchPath) (catalog : Catalog) : (w.read catalog).attempts = w.attempts := rfl

variable (admitted : ∀ ins ∈ watch.catalog.instances, Admitted config ins)

include admitted

theorem merged_admitted (steady : w.Steady config) :
    ∀ ins ∈ mergeMonotonicInstances w.provider.cache watch.catalog.instances, Admitted config ins := by
  intro ins member
  rw [merge_eq_map] at member
  obtain ⟨read, among, rfl⟩ := List.mem_map.mp member
  rcases (mergeOne_merges w.provider.cache (admitted read among).qualified).origin with same | cached
  · rw [same]
    exact admitted read among
  · exact steady.admitted _ cached

theorem readCache_admitted (steady : w.Steady config) : AllAdmitted config (w.readCache watch.catalog) :=
  fun ins cached => merged_admitted admitted steady ins (cacheOf_mem cached)

theorem readCache_find_isSome {key : String} :
    ((w.readCache watch.catalog).find key).isSome = true ↔ key ∈ watch.catalog.instances.map identityKey := by
  rw [WatchPath.readCache, cacheOf_find_isSome, merge_identities _ fun ins member => (admitted ins member).qualified]

/-- The read cache goes onward at every sink. -/
theorem recoverable_onward (recoverable : w.Recoverable watch.catalog) {named : NamedSink}
    (registered : named ∈ w.worker.pusher.sinks) : Onward w.provider.cache (w.readCache watch.catalog) named.sink := by
  have origin : ∀ key ins, (w.readCache watch.catalog).find key = some ins →
      ∃ read ∈ watch.catalog.instances, key = identityKey read ∧ Merges w.provider.cache read ins := by
    intro key ins cached
    obtain ⟨member, rfl⟩ := SortedStore.find_eq_some_iff.mp cached
    have merged := cacheOf_mem member
    rw [merge_eq_map] at merged
    obtain ⟨read, among, rfl⟩ := List.mem_map.mp merged
    have merges := mergeOne_merges w.provider.cache (admitted read among).qualified
    exact ⟨read, among, merges.identity, merges⟩
  refine ⟨?_, ?_⟩
  · intro key ins previous cached before
    obtain ⟨read, among, rfl, merges⟩ := origin key ins cached
    rw [← merges.identity] at before
    exact merges.monotone previous before
  · intro key ins cached missing entry held
    obtain ⟨read, among, rfl, merges⟩ := origin key ins cached
    exact (recoverable.fresh read among missing named registered entry held).trans_le merges.atLeast

omit admitted in
/-- A sync of a non-empty catalog, with nothing counted, is the read and then one of the two dispatches. -/
theorem syncInstanceAt_eq (uncounted : w.provider.emptyConfirmations = 0) (nonEmpty : watch.catalog.instances ≠ []) :
    let diff := extractDiff config w.provider.cache (w.readCache watch.catalog)
    w.syncInstanceAt config fullBatchID watch =
      if (⟨diff, false⟩ : Dispatch).initialFull then (w.read watch.catalog).emitSyncAllAt config fullBatchID watch
      else (w.read watch.catalog).eventsSyncAt watch.trigger diff.events := by
  have unempty : watch.catalog.instances.isEmpty = false := by simpa using nonEmpty
  intro diff
  simp only [WatchPath.syncInstanceAt, Provider.syncInstanceAt, unempty, Bool.false_eq_true, ↓reduceIte, uncounted]
  rfl

/-- A burst of adds has at most as many events as the catalog has instances that were not cached. -/
theorem add_length_le (steady : w.Steady config) : (extractDiff config w.provider.cache (w.readCache watch.catalog)).add.length ≤
      (watch.catalog.instances.filter fun ins => (w.provider.cache.find (identityKey ins)).isNone).length := by
  have newAdmitted := readCache_admitted admitted steady
  have distinct := events_distinct steady.admitted newAdmitted
  rw [CacheDiff.events, List.map_append, List.map_append, List.nodup_append, List.nodup_append] at distinct
  have within : (extractDiff config w.provider.cache (w.readCache watch.catalog)).add.map identityKey ⊆
      (watch.catalog.instances.filter fun ins => (w.provider.cache.find (identityKey ins)).isNone).map identityKey := by
    intro key added
    obtain ⟨_, add, rfl⟩ := List.mem_map.mp added
    obtain ⟨ins, cached, missing, rfl⟩ := (mem_add newAdmitted).mp add
    have listed : identityKey ins ∈ watch.catalog.instances.map identityKey := by
      rw [← readCache_find_isSome (w := w) admitted, SortedStore.find_eq_some_iff.mpr ⟨cached, rfl⟩]
      rfl
    obtain ⟨read, among, same⟩ := List.mem_map.mp listed
    rw [identityKey_announced, ← same]
    refine List.mem_map_of_mem (List.mem_filter.mpr ⟨among, ?_⟩)
    rw [same, missing]
    rfl
  have shorter := (distinct.1.1.subperm within).length_le
  rwa [List.length_map, List.length_map] at shorter

omit admitted in
/-- A full push of a non-empty snapshot: every sink rebuilds the snapshot that the event carries. -/
theorem emitSyncAllAt_eq {all : List Instance}
    (merged : mergeMonotonicInstances w.provider.cache watch.catalog.instances = all) (listed : all ≠ []) :
    let env : String → SinkEnv := fun _ => { answer := ⟨all.map some, true⟩ }
    w.emitSyncAllAt config fullBatchID watch = WatchPath.handled { w with provider := w.provider.forgetEmpty }
        (w.worker.handleSyncAll id (fullEvent config fullBatchID watch.fullTrigger (all, w.provider.generation, false)) env
          (fun _ => []) watch.now env) := by
  have unempty : all.isEmpty = false := by simpa using listed
  have snapshot : ∀ (k : Provider) (advance : Bool), k.cache = w.provider.cache →
      k.snapshotForFullPushMode advance (some watch.catalog) = (k.forgetEmpty, some (all, k.generation, false)) := by
    intro k advance same
    simp only [Provider.snapshotForFullPushMode, same, merged, unempty, Bool.false_eq_true, ↓reduceIte]
    rfl
  intro env
  unfold WatchPath.emitSyncAllAt
  rw [snapshot w.provider true rfl]
  have answer : w.provider.forgetEmpty.revalidation (some watch.catalog) = ⟨all.map some, true⟩ := by
    rw [Provider.revalidation, snapshot w.provider.forgetEmpty false rfl]
  simp only [answer]
  rfl

omit admitted in
theorem fullEvent_scope_ne (trigger : ℤ) (snapshot : List Instance × ℕ × Bool) :
    (fullEvent config fullBatchID trigger snapshot).scope ≠ "" := by
  simp only [fullEvent, Config.fullScope]
  split_ifs with unnamed
  · decide
  · exact unnamed

variable (standard : config.filters = initInstanceFilters) (steady : w.Steady config)
  (recoverable : w.Recoverable watch.catalog)

include standard steady recoverable

/-- The single events of a sync keep the path steady. -/
theorem steady_events :
    ((w.read watch.catalog).eventsSyncAt watch.trigger
      (extractDiff config w.provider.cache (w.readCache watch.catalog)).events).Steady config := by
  have newAdmitted := readCache_admitted admitted steady
  refine ⟨?_, ?_, ?_⟩
  · rw [eventsSyncAt_provider]
    rfl
  · rw [eventsSyncAt_provider]
    exact newAdmitted
  · intro named registered
    obtain ⟨before, started, sameName, sink, log⟩ := eventsSyncAt_sinks watch.trigger _ registered
    rw [eventsSyncAt_provider, log, sink]
    exact (steady.follows before started).events standard steady.admitted newAdmitted
      (recoverable_onward admitted recoverable started) watch.trigger

/-- A full push of a burst of adds keeps the path steady. -/
theorem steady_full (nonEmpty : watch.catalog.instances ≠ [])
    (burst : (⟨extractDiff config w.provider.cache (w.readCache watch.catalog), false⟩ : Dispatch).initialFull = true) :
    ((w.read watch.catalog).emitSyncAllAt config fullBatchID watch).Steady config ∧
      ((w.read watch.catalog).emitSyncAllAt config fullBatchID watch).provider.cache = w.readCache watch.catalog := by
  have qualified : ∀ ins ∈ watch.catalog.instances, Cache.sourceQualified (identityKey ins) = true :=
    fun ins member => (admitted ins member).qualified
  simp only [Dispatch.initialFull, decide_eq_true_eq] at burst
  obtain ⟨large, _, noDeletes⟩ := burst
  have distinct := recoverable.distinct (large.trans (add_length_le admitted steady))
  have merged := merge_again w.provider.cache qualified distinct
  have mergedAdmitted := merged_admitted admitted steady
  have mergedDistinct := merge_identities w.provider.cache qualified ▸ distinct
  have kept : ∀ key, (w.readCache watch.catalog).find key = none → w.provider.cache.find key = none := by
    intro key missing
    cases cached : w.provider.cache.find key with
    | none => rfl
    | some ins =>
      obtain ⟨member, rfl⟩ := SortedStore.find_eq_some_iff.mp cached
      have deleted := (mem_del steady.admitted).mpr ⟨ins, member, missing, rfl⟩
      rw [noDeletes] at deleted
      cases deleted
  generalize snapshot : mergeMonotonicInstances w.provider.cache watch.catalog.instances = all at *
  have listed : all ≠ [] := by
    rw [← snapshot, merge_eq_map]
    simpa using nonEmpty
  have welcome : ∀ named ∈ w.worker.pusher.sinks, ∀ ins ∈ all, named.sink.Welcomes ins := by
    intro named registered ins member
    have cached : (w.readCache watch.catalog).find (identityKey ins) = some ins := by
      rw [WatchPath.readCache, snapshot]
      exact (cacheOf_find_eq_some_iff mergedDistinct).mpr ⟨member, rfl⟩
    exact (steady.follows named registered).welcomes (recoverable_onward admitted recoverable registered) cached
      ((mergedAdmitted ins member).revised standard)
  have again : mergeMonotonicInstances (w.read watch.catalog).provider.cache watch.catalog.instances = all := by
    rw [← snapshot] at merged ⊢
    exact merged
  have sameCache : w.readCache watch.catalog = cacheOf all := by rw [WatchPath.readCache, snapshot]
  rw [emitSyncAllAt_eq again listed]
  have provider : (w.read watch.catalog).provider.forgetEmpty.cache = cacheOf all := sameCache
  refine ⟨⟨rfl, ?_, ?_⟩, sameCache.symm ▸ provider⟩
  · intro ins cached
    exact mergedAdmitted ins (cacheOf_mem (provider ▸ cached))
  · intro named registered
    obtain ⟨before, started, sameName, stillOpen, recorded, accepted⟩ := handleSyncAll_welcome id
      (fullEvent_scope_ne watch.fullTrigger _) (by simp [SyncAllEvent.unconfirmed, fullEvent, listed]) rfl (fun _ => rfl)
      (fun _ _ => rfl) listed mergedDistinct (fun named registered => (steady.follows named registered).opened) welcome registered
    have followed := (steady.follows before started).snapshot mergedDistinct (fun ins member => (mergedAdmitted ins member).listed)
      (sameCache ▸ kept) stillOpen recorded
    simp only [WatchPath.handled, WatchPath.read_worker, WatchPath.read_attempts]
    rw [provider, forwarded_append, accepted, sameName]
    exact followed

variable (fullBatchID) in
/-- A sync keeps the path steady, and leaves the identities of the catalog cached. -/
theorem steady_sync (nonEmpty : watch.catalog.instances ≠ []) :
    (w.syncInstanceAt config fullBatchID watch).Steady config ∧
      (w.syncInstanceAt config fullBatchID watch).provider.cache = w.readCache watch.catalog := by
  rw [syncInstanceAt_eq steady.uncounted nonEmpty]
  split_ifs with burst
  · exact steady_full admitted standard steady recoverable nonEmpty burst
  · refine ⟨steady_events admitted standard steady recoverable, ?_⟩
    rw [eventsSyncAt_provider]
    rfl

end Sync

/-! ## Runs -/

/-- The sinks of the worker are new: open, with empty ledgers. -/
def NewSinks (worker : DefaultWorker Instance) : Prop :=
  ∀ named ∈ worker.pusher.sinks, named.sink.closed = false ∧ named.sink.latest = ∅

/-- The identities registered at a sink along a run of the watch path. -/
def WatchPath.registeredAt (w : WatchPath) (name key : String) : Bool := registeredBy (forwarded w.attempts name) key

theorem steady_start (config : Config) {worker : DefaultWorker Instance} (fresh : NewSinks worker) :
    WatchPath.Steady config { worker := worker } := by
  refine ⟨rfl, List.forall_mem_nil _, ?_⟩
  intro named registered
  refine ⟨(fresh named registered).1, fun key => rfl, ?_⟩
  intro key ins cached
  cases cached

section Runs

variable (config : Config) (fullBatchID : FullBatchID)

theorem after_append (worker : DefaultWorker Instance) (watches : List WatchReturn) (watch : WatchReturn) :
    WatchPath.after config fullBatchID worker (watches ++ [watch]) =
      (WatchPath.after config fullBatchID worker watches).syncInstanceAt config fullBatchID watch := by
  rw [WatchPath.after, List.foldl_append]
  rfl

/-- A watch return with a non-empty catalog of admitted instances. -/
@[mk_iff] structure WatchReturn.Healthy (config : Config) (watch : WatchReturn) : Prop where
  nonEmpty : watch.catalog.instances ≠ []
  admitted : ∀ ins ∈ watch.catalog.instances, Admitted config ins

instance (watch : WatchReturn) : Decidable (watch.Healthy config) := decidable_of_iff _ (watch.healthy_iff config).symm

theorem steady_after {worker : DefaultWorker Instance} {watches : List WatchReturn}
    (standard : config.filters = initInstanceFilters) (fresh : NewSinks worker)
    (healthy : ∀ watch ∈ watches, watch.Healthy config)
    (recoverable : History.AllSteps
      (fun before watch => (WatchPath.after config fullBatchID worker before).Recoverable watch.catalog) watches) :
    (WatchPath.after config fullBatchID worker watches).Steady config := by
  induction watches using List.reverseRecOn with
  | nil => exact steady_start config fresh
  | append_singleton earlier watch ih =>
    obtain ⟨before, last⟩ := History.allSteps_append.mp recoverable
    have steady := ih (fun other member => healthy other (List.mem_append_left _ member)) before
    obtain ⟨nonEmpty, admitted⟩ := healthy watch (List.mem_append_right _ (List.mem_singleton_self _))
    rw [after_append]
    exact (steady_sync fullBatchID admitted standard steady last nonEmpty).1

/-- The watch path converges: after healthy watch returns that were all recoverable, every sink has registered the
identities of the last catalog and no others. -/
theorem watch_converges (worker : DefaultWorker Instance) (watches : List WatchReturn) (last : WatchReturn)
    (standard : config.filters = initInstanceFilters) (fresh : NewSinks worker)
    (healthy : ∀ watch ∈ watches ++ [last], watch.Healthy config)
    (recoverable : History.AllSteps
      (fun before watch => (WatchPath.after config fullBatchID worker before).Recoverable watch.catalog)
      (watches ++ [last])) :
    let w := WatchPath.after config fullBatchID worker (watches ++ [last])
    ∀ named ∈ w.worker.pusher.sinks, ∀ key,
      w.registeredAt named.name key = true ↔ key ∈ last.catalog.instances.map identityKey := by
  obtain ⟨before, now⟩ := History.allSteps_append.mp recoverable
  have steady := steady_after config fullBatchID standard fresh
    (fun watch member => healthy watch (List.mem_append_left _ member)) before
  obtain ⟨nonEmpty, admitted⟩ := healthy last (List.mem_append_right _ (List.mem_singleton_self _))
  obtain ⟨next, cached⟩ := steady_sync fullBatchID admitted standard steady now nonEmpty
  intro w named registered key
  rw [← after_append] at next cached
  rw [← readCache_find_isSome (w := WatchPath.after config fullBatchID worker watches) admitted, ← cached,
    ← (next.follows named registered).registered key]
  rfl

end Runs

/-! ## Three watch returns -/

/-- A complete service instance at a revision. -/
def endpoint (name : String) (modifyIndex : ℤ) : Instance :=
  { sourceKey := "dc1/node/" ++ name, sourceCluster := "dc1", instanceId := name, provider := "ecs", appCode := name,
    envType := "product", ip := "10.0.0.1", reversion := modifyIndex, status := instanceStatusOnline }

def endpoints (listed : List (String × ℤ)) : Catalog where
  instances := listed.map fun item => endpoint item.1 item.2
  present := by
    intro ins member
    obtain ⟨item, _, rfl⟩ := List.mem_map.mp member
    exact .inl rfl

def watchOf (listed : List (String × ℤ)) : WatchReturn := ⟨endpoints listed, fun _ => 100, 100, 110⟩

def watchConfig : Config := { json := ⟨fun ins => ins.instanceId, fun _ => none⟩, nacosReconcile := true, sourceCluster := "dc1" }

/-- A run of watch returns over one new sink. -/
def watched (catalogs : List (List (String × ℤ))) : WatchPath :=
  WatchPath.after watchConfig (fun scope _ => scope) (workerAfter []) (catalogs.map watchOf)

/-- A service disappears and comes back at a higher revision. -/
theorem revised_service_returns :
    (watched [[("a", 1), ("b", 1)], [("b", 1)], [("a", 2), ("b", 1)]]).registeredAt "nacos" "dc1/node/a" = true ∧
      (watched [[("a", 1), ("b", 1)], [("b", 1)], [("a", 2), ("b", 1)]]).registeredAt "nacos" "dc1/node/b" = true := by
  have recoverable : History.AllSteps
      (fun before watch => (WatchPath.after watchConfig (fun scope _ => scope) (workerAfter []) before).Recoverable watch.catalog)
      ([watchOf [("a", 1), ("b", 1)], watchOf [("b", 1)]] ++ [watchOf [("a", 2), ("b", 1)]]) := by
    decide +kernel
  have healthy : ∀ watch ∈ [watchOf [("a", 1), ("b", 1)], watchOf [("b", 1)]] ++ [watchOf [("a", 2), ("b", 1)]],
      watch.Healthy watchConfig := by
    decide +kernel
  have converges := watch_converges watchConfig (fun scope _ => scope) (workerAfter [])
    [watchOf [("a", 1), ("b", 1)], watchOf [("b", 1)]] (watchOf [("a", 2), ("b", 1)]) rfl
    (fun named registered => List.mem_singleton.mp registered ▸ ⟨rfl, rfl⟩) healthy recoverable
  have names : (watched [[("a", 1), ("b", 1)], [("b", 1)], [("a", 2), ("b", 1)]]).worker.pusher.names = ["nacos"] := by
    decide +kernel
  obtain ⟨named, registered, name⟩ := List.mem_map.mp (names ▸ List.mem_singleton_self "nacos")
  have nacos := converges named registered
  rw [name] at nacos
  exact ⟨(nacos "dc1/node/a").mpr (by decide), (nacos "dc1/node/b").mpr (by decide)⟩

/-- A service disappears and comes back at its old revision: the sink never registers it again. -/
theorem unrevised_service_lost :
    let w := watched [[("a", 1), ("b", 1)], [("b", 1)], [("a", 1), ("b", 1)]]
    "dc1/node/a" ∈ (watchOf [("a", 1), ("b", 1)]).catalog.instances.map identityKey ∧
      w.worker.pusher.names = ["nacos"] ∧ w.registeredAt "nacos" "dc1/node/a" = false := by
  decide +kernel

end Spotter.Providers.Consul
