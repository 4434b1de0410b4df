import Spotter.Providers.K8s.Provider

/-! # What events do to the processed cache

An identity is live while the cache holds an instance of it that is not offline. An event changes
the liveness of its own pod's identity only, and to what the pod in the store says, up to the cases
in which the provider drops the event.
-/

namespace Spotter.Providers.K8s

open Library Domain Robot

/-- The identity of a pod generation of a cluster. -/
def podIdentity (cluster uid : String) : String := cluster ++ "/" ++ uid

/-- The cache holds an instance of the identity that is not offline. -/
def Provider.Live (k : Provider) (identity : String) : Prop :=
  ∃ ins, k.cache.find identity = some ins ∧ ins.offline = false

/-- The pod converts, passes the filters and is not offline. -/
def Config.Wants (config : Config) (obj : QueueObject) (pod : Pod) : Prop :=
  ∃ ins, config.convert obj pod = some ins ∧ ins.offline = false

variable {config : Config} {k : Provider} {obj : QueueObject} {pod : Pod} {ins : Instance} {identity : String}

theorem podIdentity_qualified (cluster uid : String) : Cache.sourceQualified (podIdentity cluster uid) = true := by
  simp [Cache.sourceQualified, podIdentity]

/-- A converted instance carries its pod's identity. -/
theorem convert_identity (converted : config.convert obj pod = some ins) (generation : obj.uid ≠ "") :
    identityKey ins = podIdentity obj.clusterID pod.uid := by
  have formatted := (Option.filter_eq_some_iff.mp converted).1
  simp only [formatInstanceWithDeps, generation, ne_eq, not_false_eq_true, ↓reduceIte] at formatted
  split_ifs at formatted <;>
    · cases formatted
      simp [identityKey, podIdentity]

/-- An instance that replaces nothing different is the cached one as far as liveness goes. -/
theorem offline_of_no_diff {old new : Instance} (same : hasInstanceDiff old new = false) : old.offline = new.offline := by
  unfold hasInstanceDiff at same
  split_ifs at same with both
  · simp [Instance.offline, both.1]
  · simp only [decide_eq_false_iff_not, not_or, not_not] at same
    rw [Instance.offline, Instance.offline, same.2.2.2.1]

variable {event : EventType}

theorem processCache_live :
    (k.processCache event ins).Live identity ↔ if identity = identityKey ins then ins.offline = false else k.Live identity := by
  simp only [Provider.Live, Provider.processCache_eq, SortedStore.find_replaceOrInsert]
  split_ifs
  · simp
  · rfl

/-- Publishing an instance makes its identity as live as the instance and leaves the others alone. -/
theorem publish_live (qualified : Cache.sourceQualified (identityKey ins) = true) :
    (k.publish event ins).1.Live identity ↔ if identity = identityKey ins then ins.offline = false else k.Live identity := by
  unfold Provider.publish
  rw [Cache.get_qualified qualified]
  split_ifs with differs same same
  · exact processCache_live.trans (by rw [if_pos same])
  · exact processCache_live.trans (by rw [if_neg same])
  · -- Nothing differs from the cached instance, which is therefore as live as the new one.
    rw [Option.all_eq_true, not_forall] at differs
    obtain ⟨cached, kept⟩ := differs
    simp only [Classical.not_imp, Bool.not_eq_true] at kept
    rw [Provider.Live, same, kept.1, ← offline_of_no_diff kept.2]
    simp
  · rfl

/-- The provider ignores the event: the pod does not convert or pass the filters, or it is an offline
shell of which no address is known. -/
def Provider.Drops (config : Config) (k : Provider) (obj : QueueObject) (pod : Pod) : Prop :=
  ∀ ins, config.convert obj pod = some ins → offlineShell ins = true ∧ k.lastKnown ins = none

theorem podFound_of_drops (drops : k.Drops config obj pod) : (k.podFound config obj pod).1 = k := by
  unfold Provider.podFound
  split
  · rfl
  · next ins converted =>
    obtain ⟨shell, unknown⟩ := drops ins converted
    simp [shell, unknown]

/-- An event that finds its pod makes the pod's identity as live as the pod is wanted. -/
theorem podFound_live (generation : obj.uid ≠ "") (heeded : ¬k.Drops config obj pod) :
    (k.podFound config obj pod).1.Live identity ↔
      if identity = podIdentity obj.clusterID pod.uid then config.Wants obj pod else k.Live identity := by
  simp only [Provider.Drops, not_forall, not_and] at heeded
  obtain ⟨ins, converted, known⟩ := heeded
  have own := convert_identity converted generation
  have qualified : Cache.sourceQualified (identityKey ins) = true := own ▸ podIdentity_qualified _ _
  have wants : config.Wants obj pod ↔ ins.offline = false := by
    simp [Config.Wants, converted]
  rw [Provider.podFound, converted, wants, ← own]
  cases shell : offlineShell ins with
  | false =>
    simp only [shell, Bool.false_eq_true, ↓reduceIte]
    exact publish_live qualified
  | true =>
    obtain ⟨cached, found⟩ := Option.ne_none_iff_exists'.mp (known shell)
    simp only [shell, found, ↓reduceIte]
    have sameKey : identityKey (terminatedCopy cached ins) = identityKey ins := by
      rw [Provider.lastKnown, Option.filter_eq_some_iff, Cache.get_qualified qualified, SortedStore.find_eq_some_iff] at found
      exact found.1.2
    have offline : ins.offline = true := (Bool.and_eq_true_iff.mp shell).1
    rw [publish_live (sameKey ▸ qualified), sameKey, offline]
    rfl

/-- An event that does not find its pod changes the cache only if it is a deletion. -/
theorem podGone_live (cluster : obj.clusterID ≠ "") (generation : obj.uid ≠ "") : (k.podGone obj).1.Live identity ↔
      if identity = podIdentity obj.clusterID obj.uid ∧ obj.event = .delete then False else k.Live identity := by
  have key : deletedKey obj = podIdentity obj.clusterID obj.uid := by
    simp [deletedKey, cluster, generation, podIdentity]
  unfold Provider.podGone
  rw [key, Cache.get_qualified (podIdentity_qualified _ _)]
  cases event : obj.event with
  | delete =>
    simp only [and_true]
    cases found : k.cache.find (podIdentity obj.clusterID obj.uid) with
    | none =>
      split_ifs with same
      · subst same
        simp [Provider.Live, found]
      · rfl
    | some cached =>
      have own : identityKey (deletedCopy cached) = podIdentity obj.clusterID obj.uid := (SortedStore.find_eq_some_iff.mp found).2
      simp only
      split_ifs with live same same
      · refine processCache_live.trans ?_
        rw [if_pos (same.trans own.symm)]
        simp [Instance.offline, deletedCopy]
      · refine processCache_live.trans ?_
        rw [if_neg (fun other => same (other.trans own))]
      · subst same
        rw [not_not] at live
        simp [Provider.Live, found, Instance.offline, live]
      · rfl
  | add => simp
  | update => simp

/-- An event changes the liveness of its own pod only. -/
theorem pod2Instance_live_of_ne {items : List Pod} (cluster : obj.clusterID ≠ "") (generation : obj.uid ≠ "")
    (other : identity ≠ podIdentity obj.clusterID obj.uid) :
    (k.pod2Instance config obj items).1.Live identity ↔ k.Live identity := by
  have gone : (k.podGone obj).1.Live identity ↔ k.Live identity := by
    rw [podGone_live cluster generation, if_neg fun same => other same.1]
  unfold Provider.pod2Instance
  split
  · exact gone
  · next pod =>
    split_ifs with replaced
    · exact gone
    · have own : pod.uid = obj.uid := by
        by_contra different
        exact replaced ⟨generation, different⟩
      by_cases drops : k.Drops config obj pod
      · rw [podFound_of_drops drops]
      · rw [podFound_live generation drops, own, if_neg other]
  · rfl

/-! ## Where cached instances come from -/

theorem publish_cases : (k.publish event ins).1 = k ∨ (k.publish event ins).1 = k.processCache event ins := by
  unfold Provider.publish
  split_ifs
  · exact .inr rfl
  · exact .inl rfl

/-- A processing step leaves the cache alone or writes one instance of an identity. -/
def Provider.Writes (k next : Provider) (identity : String) : Prop :=
  next = k ∨ ∃ event ins, next = k.processCache event ins ∧
    (identityKey ins = identity ∨ ∃ cached ∈ k.cache.entries, identityKey cached = identityKey ins)

theorem podGone_writes : k.Writes (k.podGone obj).1 identity := by
  unfold Provider.podGone
  split
  · next cached event found =>
    split_ifs
    · exact .inr ⟨.delete, deletedCopy cached, rfl, .inr ⟨cached, Cache.get_mem found, rfl⟩⟩
    · exact .inl rfl
  · exact .inl rfl

theorem podFound_writes (generation : obj.uid ≠ "") :
    k.Writes (k.podFound config obj pod).1 (podIdentity obj.clusterID pod.uid) := by
  unfold Provider.podFound
  split
  · exact .inl rfl
  · next ins converted =>
    split_ifs
    · split
      · exact .inl rfl
      · next cached known =>
        have found := (Option.filter_eq_some_iff.mp known).1
        refine publish_cases.imp_right fun written => ?_
        exact ⟨_, terminatedCopy cached ins, written, .inr ⟨cached, Cache.get_mem found, rfl⟩⟩
    · refine publish_cases.imp_right fun written => ?_
      exact ⟨_, ins, written, .inl (convert_identity converted generation)⟩

/-- An event writes at most its own pod or an identity that is cached already. -/
theorem pod2Instance_writes (items : List Pod) (generation : obj.uid ≠ "") :
    k.Writes (k.pod2Instance config obj items).1 (podIdentity obj.clusterID obj.uid) := by
  unfold Provider.pod2Instance
  split
  · exact podGone_writes
  · next pod =>
    split_ifs with other
    · exact podGone_writes
    · have same : pod.uid = obj.uid := by
        by_contra different
        exact other ⟨generation, different⟩
      rw [← same]
      exact podFound_writes generation
  · exact .inl rfl

end Spotter.Providers.K8s
