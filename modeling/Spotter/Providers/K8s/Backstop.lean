import Spotter.Providers.K8s.TrackingSteps

/-! # The full push as a backstop

Once the informers are silent and the queue is drained, a full push should publish exactly what the
informer stores hold, whatever was lost on the way. It publishes the processed cache, which is rebuilt
from the stores only as long as nothing ever changed it, so this is true of the runs that lose nothing.
-/

namespace Spotter.Providers.K8s

open Library Domain Robot Worker

variable {naming : PodNaming} {clusters : List String} {config : Config} {w : Watch}

/-! ## What the stores hold -/

theorem mem_getAll {stores : String → PodStore} {ins : Instance} : ins ∈ getAll clusters config stores ↔
      ∃ cluster ∈ clusters, ∃ pod ∈ (stores cluster).entries, config.convert (sourceObject cluster pod) pod = some ins := by
  simp only [getAll, listCluster, List.mem_flatMap, List.mem_filterMap]

variable {identity : String}

theorem mem_sourceIdentities {stores : String → PodStore} : identity ∈ sourceIdentities clusters config stores ↔
      ∃ ins ∈ getAll clusters config stores, ins.offline = false ∧ identityKey ins = identity := by
  simp only [sourceIdentities, List.mem_map, List.mem_filter, Bool.not_eq_eq_eq_not, Bool.not_true, and_assoc]

variable {cluster uid : String}

section

variable (sound : Sound naming clusters w)

include sound

/-- A pod of a store is the stored pod of its generation. -/
theorem stored_eq_some_iff {pod : Pod} :
    stored naming w cluster uid = some pod ↔ pod ∈ (w.stores cluster).entries ∧ pod.uid = uid := by
  rw [stored, Option.filter_eq_some_iff, SortedStore.find_eq_some_iff, decide_eq_true_eq]
  constructor
  · rintro ⟨⟨member, _⟩, own⟩
    exact ⟨member, own⟩
  · rintro ⟨member, rfl⟩
    exact ⟨⟨member, (sound.pods cluster pod member).home⟩, rfl⟩

/-- The stores list the identity of a pod exactly when they want the pod. -/
theorem podIdentity_mem_sourceIdentities (watched : cluster ∈ clusters) (valid : ValidUID uid) :
    podIdentity cluster uid ∈ sourceIdentities clusters config w.stores ↔ Wanted naming config w cluster uid := by
  rw [mem_sourceIdentities]
  constructor
  · rintro ⟨ins, listed, live, identity⟩
    obtain ⟨other, _, pod, member, converted⟩ := mem_getAll.mp listed
    have genuine := sound.pods other pod member
    rw [convert_identity converted genuine.uid.nonempty] at identity
    obtain ⟨rfl, rfl⟩ := podIdentity_inj genuine.uid valid identity
    exact ⟨pod, (stored_eq_some_iff sound).mpr ⟨member, rfl⟩, ins, converted, live⟩
  · rintro ⟨pod, held, ins, converted, live⟩
    obtain ⟨member, rfl⟩ := (stored_eq_some_iff sound).mp held
    refine ⟨ins, mem_getAll.mpr ⟨cluster, watched, pod, member, converted⟩, live, ?_⟩
    exact convert_identity converted valid.nonempty

theorem sourceIdentity_of_mem
    (member : identity ∈ sourceIdentities clusters config w.stores) : SourceIdentity clusters identity := by
  obtain ⟨ins, listed, _, rfl⟩ := mem_sourceIdentities.mp member
  obtain ⟨cluster, _, inCluster⟩ := List.mem_flatMap.mp listed
  exact sound.listed inCluster

end

/-! ## What the push carries -/

theorem mem_pushedIdentities {fullBatchID : FullBatchID} {k : Provider} {now : ℤ} :
    identity ∈ pushedIdentities (k.emitSyncAll fullBatchID now).1 ↔ k.Live identity := by
  have pushed : pushedIdentities (k.emitSyncAll fullBatchID now).1 = k.active.map identityKey := by
    simp [pushedIdentities, Provider.emitSyncAll, Provider.snapshotForFullPushMode, List.filterMap_map]
  rw [pushed, List.mem_map]
  constructor
  · rintro ⟨ins, active, rfl⟩
    obtain ⟨cached, live⟩ := List.mem_filter.mp active
    exact ⟨ins, SortedStore.find_eq_some_iff.mpr ⟨cached, rfl⟩, by simpa using live⟩
  · rintro ⟨ins, found, live⟩
    obtain ⟨cached, own⟩ := SortedStore.find_eq_some_iff.mp found
    exact ⟨ins, List.mem_filter.mpr ⟨cached, by simpa using live⟩, own⟩

/-- An identity is listed once: its cluster and UID determine the pod. -/
theorem getAll_unique (sound : Sound naming clusters w) {first second : Instance}
    (firstListed : first ∈ getAll clusters config w.stores) (secondListed : second ∈ getAll clusters config w.stores)
    (same : identityKey first = identityKey second) : first = second := by
  obtain ⟨cluster, _, pod, member, converted⟩ := mem_getAll.mp firstListed
  obtain ⟨cluster', _, pod', member', converted'⟩ := mem_getAll.mp secondListed
  have genuine := sound.pods cluster pod member
  have genuine' := sound.pods cluster' pod' member'
  rw [convert_identity converted genuine.uid.nonempty, convert_identity converted' genuine'.uid.nonempty] at same
  obtain ⟨rfl, uids⟩ := podIdentity_inj genuine.uid genuine'.uid same
  have held := (stored_eq_some_iff sound).mpr ⟨member, uids⟩
  have held' := (stored_eq_some_iff sound).mpr ⟨member', rfl⟩
  obtain rfl : pod = pod' := Option.some.inj (held.symm.trans held')
  exact Option.some.inj (converted.symm.trans converted')

/-- As long as nothing changed the cache, a tick takes the stores' pods into it. -/
theorem compareAndFlush_live_untouched (sound : Sound naming clusters w) (untouched : w.provider.generation = 0)
    (identity : String) :
    (w.compareAndFlush clusters config).Live identity ↔ identity ∈ sourceIdentities clusters config w.stores := by
  rw [mem_sourceIdentities]
  simp only [Watch.compareAndFlush, untouched, true_and]
  split_ifs with nothing
  · rw [List.isEmpty_iff] at nothing
    rw [nothing]
    simp [Provider.Live, SortedStore.find, sound.untouched untouched]
  · simp only [Provider.snapshotForFullPushMode, Provider.bootstrapCacheFromSource, Provider.installBootstrap, nothing,
      Provider.replaceCacheIfGeneration, untouched, ne_eq, not_true_eq_false, ↓reduceIte, Bool.false_eq_true]
    rw [Provider.Live]
    constructor
    · rintro ⟨ins, found, live⟩
      obtain ⟨listed, own⟩ := (SortedStore.find_foldl_eq_some_iff fun first among second also =>
        getAll_unique sound among also).mp found
      exact ⟨ins, listed, live, own⟩
    · rintro ⟨ins, listed, live, own⟩
      exact ⟨ins, (SortedStore.find_foldl_eq_some_iff fun first among second also =>
        getAll_unique sound among also).mpr ⟨listed, own⟩, live⟩

/-! ## Runs -/

theorem onTrack_start {capacity : ℕ} : OnTrack naming config { queue := newCoalescingQueue capacity } cluster uid := by
  refine .inr ⟨iff_of_false ?_ ?_, fun work idle => nomatch idle.1⟩
  · rintro ⟨ins, found, _⟩
    cases found
  · rintro ⟨pod, held, _⟩
    cases held

/-- In a quiescent state nothing is on its way. -/
theorem not_covered_of_quiescent (sound : Sound naming clusters w) (quiescent : w.Quiescent clusters)
    (watched : cluster ∈ clusters) : ¬Covered naming w cluster uid := by
  rintro (⟨event, last, _⟩ | ⟨_, obj, queued, _⟩ | ⟨work, ⟨taken, _⟩, _⟩)
  · simp [notices, quiescent.silent cluster watched] at last
  · rw [CoalescingQueue.effective, sound.queue.effective_of_drained quiescent.drained] at queued
    cases queued
  · rw [quiescent.idle] at taken
    cases taken

/-- A quiescent state on track publishes what its stores hold. -/
theorem pushedIdentities_of_quiescent (sound : Sound naming clusters w) (quiescent : w.Quiescent clusters)
    (onTrack : ∀ cluster uid, ValidUID uid → OnTrack naming config w cluster uid)
    (fullBatchID : FullBatchID) (now : ℤ) (identity : String) :
    identity ∈ pushedIdentities (w.intervalTick clusters config fullBatchID now) ↔
      identity ∈ sourceIdentities clusters config w.stores := by
  rw [Watch.intervalTick, mem_pushedIdentities]
  rcases eq_or_ne w.provider.generation 0 with untouched | changed
  · exact compareAndFlush_live_untouched sound untouched identity
  · -- Once the cache changed, a tick takes it as it is.
    have same : (w.compareAndFlush clusters config).Live identity ↔ w.provider.Live identity := by
      simp only [Watch.compareAndFlush, changed, false_and, ↓reduceIte, Provider.snapshotForFullPushMode,
        Provider.bootstrapCacheFromSource, ne_eq, not_false_eq_true]
      rfl
    rw [same]
    have agrees : ∀ cluster ∈ clusters, ∀ uid, ValidUID uid → Agrees naming config w cluster uid := by
      intro cluster watched uid valid
      exact ((onTrack cluster uid valid).resolve_left (not_covered_of_quiescent sound quiescent watched)).1
    constructor
    · intro live
      obtain ⟨ins, found, _⟩ := id live
      obtain ⟨cached, own⟩ := SortedStore.find_eq_some_iff.mp found
      obtain ⟨cluster, watched, uid, valid, source⟩ := sound.cached ins cached
      obtain rfl := own.symm.trans source
      exact (podIdentity_mem_sourceIdentities sound watched valid).mpr ((agrees cluster watched uid valid).mp live)
    · intro listed
      obtain ⟨cluster, watched, uid, valid, rfl⟩ := sourceIdentity_of_mem sound listed
      exact (agrees cluster watched uid valid).mpr ((podIdentity_mem_sourceIdentities sound watched valid).mp listed)

/-- Every run with promised, steady steps reaches sound states with every pod on track. -/
theorem run_onTrack (named : "" ∉ clusters) {capacity : ℕ} {history : List WatchStep}
    (steps : History.AllSteps (fun before step => naming.Promised step ∧
      Steady naming config (Watch.after clusters config capacity before) step) history) :
    Sound naming clusters (Watch.after clusters config capacity history) ∧
      ∀ cluster uid, ValidUID uid → OnTrack naming config (Watch.after clusters config capacity history) cluster uid := by
  refine History.invariant (fun history => Sound naming clusters (Watch.after clusters config capacity history) ∧
    ∀ cluster uid, ValidUID uid → OnTrack naming config (Watch.after clusters config capacity history) cluster uid)
    ⟨sound_start capacity, fun cluster uid _ => onTrack_start⟩ ?_ steps
  rintro earlier step ⟨promised, steady⟩ ⟨sound, onTrack⟩
  rw [Watch.after, List.foldl_append]
  exact ⟨sound.step named promised,
    fun cluster uid valid => onTrack_step sound named promised steady valid (onTrack cluster uid valid)⟩

/-- In every run that loses nothing, a full push after the informers fell silent and the queue was drained
publishes exactly the identities of the stores' pods that convert, pass the filters and are not offline. -/
theorem intervalTick_exact_of_steady (naming : PodNaming) (config : Config) (named : "" ∉ clusters) (capacity : ℕ)
    (history : List WatchStep)
    (steps : History.AllSteps (fun before step => naming.Promised step ∧
      Steady naming config (Watch.after clusters config capacity before) step) history)
    (quiescent : (Watch.after clusters config capacity history).Quiescent clusters)
    (fullBatchID : FullBatchID) (now : ℤ) (identity : String) :
    identity ∈ pushedIdentities ((Watch.after clusters config capacity history).intervalTick clusters config fullBatchID now) ↔
      identity ∈ sourceIdentities clusters config (Watch.after clusters config capacity history).stores := by
  obtain ⟨sound, onTrack⟩ := run_onTrack named steps
  exact pushedIdentities_of_quiescent sound quiescent onTrack fullBatchID now identity

/-! ## Two runs -/

/-- A library whose text functions leave ASCII lower case alone and whose arithmetic is never looked at. -/
def plainLib : ConversionLib := ⟨id, fun _ => 0, fun _ => 0, fun _ _ => 0⟩

/-- A ready pod whose name is its UID. -/
def readyPod (name version : String) : Pod where
  podNamespace := "default"
  name := name
  uid := name
  resourceVersion := version
  labels := ((∅ : FiniteMap String String).insert "app-code" "shop").insert "K8S_CLUSTER_TYPE" "product"
  phase := .running
  podIP := "10.0.0.1"
  containers := [{ name := "main" }]
  containerStatuses := [{ ready := true, running := true }]

/-- Two pods in one namespace. -/
def twoPods : PodNaming where
  home := fun _ uid => if uid = "a" then "default/a" else "default/b"
  plain := by
    intro _ uid
    split_ifs <;> decide

/-- A pod appears and its event is processed. -/
def podAppears : List WatchStep := [.set "c1" (readyPod "b" "1"), .deliver "c1" 1, .pop, .fetch, .apply]

/-- The queue holds one event and its buffer another. While they wait, the deletion of the cached pod finds
neither room; the consumer then works off both. -/
def deletionDropped : List WatchStep :=
  podAppears ++ [.set "c1" (readyPod "a" "2"), .deliver "c1" 2, .set "c1" (readyPod "b" "3"), .deliver "c1" 3,
      .remove "c1" "default/b", .deliver "c1" 4, .pop, .fetch, .apply, .pop, .fetch, .apply]

theorem intervalTick_exact_podAppears : "" ∉ ["c1"] ∧ (Watch.after ["c1"] { lib := plainLib } 1 podAppears).Quiescent ["c1"] ∧
      "c1/b" ∈ pushedIdentities ((Watch.after ["c1"] { lib := plainLib } 1 podAppears).intervalTick ["c1"]
        { lib := plainLib } (fun scope _ => scope) 5) := by
  have steps : History.AllSteps (fun before step => twoPods.Promised step ∧
      Steady twoPods { lib := plainLib } (Watch.after ["c1"] { lib := plainLib } 1 before) step) podAppears := by
    simp only [podAppears, History.allSteps_cons]
    refine ⟨⟨by decide, ?_⟩, ⟨by decide, ?_⟩, ⟨by decide, trivial⟩, ⟨by decide, trivial⟩, ⟨by decide, ?_⟩, History.allSteps_nil _⟩
    · intro old found
      cases found
    · rintro notification rest ⟨⟩
      exact .inl (.inr (.inl (by decide)))
    · rintro obj pod ⟨⟩ own
      refine .inr (.inr ⟨fun _ live => ?_, fun deleted => absurd deleted (by decide)⟩)
      obtain ⟨ins, found, _⟩ := live
      cases found
  have quiescent : (Watch.after ["c1"] { lib := plainLib } 1 podAppears).Quiescent ["c1"] :=
    ⟨by decide +kernel, by decide +kernel, by decide +kernel, by decide +kernel⟩
  refine ⟨by decide, quiescent, ?_⟩
  exact (intervalTick_exact_of_steady twoPods { lib := plainLib } (by decide) 1 podAppears steps quiescent
    (fun scope _ => scope) 5 "c1/b").mpr (by decide +kernel)

theorem intervalTick_publishes_deleted_pod : (∀ step ∈ deletionDropped, twoPods.Promised step) ∧
      (Watch.after ["c1"] { lib := plainLib } 1 deletionDropped).Quiescent ["c1"] ∧
      pushedIdentities ((Watch.after ["c1"] { lib := plainLib } 1 deletionDropped).intervalTick ["c1"]
        { lib := plainLib } (fun scope _ => scope) 5) = ["c1/a", "c1/b"] ∧
      sourceIdentities ["c1"] { lib := plainLib } (Watch.after ["c1"] { lib := plainLib } 1 deletionDropped).stores =
        ["c1/a"] := by
  refine ⟨?_, ⟨?_, ?_, ?_, ?_⟩, ?_, ?_⟩
  · decide
  · decide +kernel
  · decide +kernel
  · decide +kernel
  · decide +kernel
  · decide +kernel
  · decide +kernel

end Spotter.Providers.K8s
