import Spotter.Providers.K8s.Tracking

/-! # What every state of the pipeline satisfies

Whatever is lost or not, the stores, the callbacks, the queue and the consumer hold genuine pods only,
the queue keeps its shape, every cached identity is a pod's, and the cache is empty until its first
change.
-/

namespace Spotter.Providers.K8s

open Library Domain Robot Worker

/-- The identity of some watched pod. -/
def SourceIdentity (clusters : List String) (identity : String) : Prop :=
  ∃ cluster ∈ clusters, ∃ uid, ValidUID uid ∧ identity = podIdentity cluster uid

structure Sound (naming : PodNaming) (clusters : List String) (w : Watch) : Prop where
  queue : w.queue.WellFormed
  objects : Coalescing.Holds (GenuineObject naming clusters) w.queue
  hand : ∀ work, w.hand = some work → GenuineObject naming clusters work.obj
  read : ∀ work items, w.hand = some work → work.items = some items → items.length ≤ 1
  pods : ∀ cluster pod, pod ∈ (w.stores cluster).entries → naming.Genuine clusters cluster pod
  due : ∀ cluster notification, notification ∈ w.pending cluster → naming.Genuine clusters cluster notification.pod
  cached : ∀ ins ∈ w.provider.cache.entries, SourceIdentity clusters (identityKey ins)
  candidate : ∀ all, w.bootstrap = some all → ∀ ins ∈ all, SourceIdentity clusters (identityKey ins)
  untouched : w.provider.generation = 0 → w.provider.cache.entries = []

variable {naming : PodNaming} {clusters : List String} {config : Config} {w : Watch}

theorem sound_start (capacity : ℕ) : Sound naming clusters { queue := newCoalescingQueue capacity } where
  queue := CoalescingQueue.newCoalescingQueue_wellFormed capacity
  objects := ⟨fun k event found => by simp [newCoalescingQueue] at found, fun event member => nomatch member⟩
  hand := fun work taken => nomatch taken
  read := fun work items taken => nomatch taken
  pods := fun cluster pod member => nomatch member
  due := fun cluster notification member => nomatch member
  cached := fun ins member => nomatch member
  candidate := fun all building => nomatch building
  untouched := fun _ => rfl

theorem GenuineObject.supersede {obj : QueueObject} (genuine : GenuineObject naming clusters obj) (old : QueueObject) :
    GenuineObject naming clusters (QueueObject.supersede old obj) := by
  unfold QueueObject.supersede
  split_ifs
  · exact ⟨genuine.watched, genuine.uid, genuine.home⟩
  · exact genuine

variable {cluster : String}

theorem genuine_notified {notification : Notification} (genuine : naming.Genuine clusters cluster notification.pod) (now : ℤ) :
    GenuineObject naming clusters (notified cluster notification now) :=
  ⟨genuine.watched, genuine.uid, genuine.home⟩

/-- An object of a watched cluster is looked up in that cluster's store. -/
theorem lookupPods_of_watched {stores : String → PodStore} {obj : QueueObject} (named : "" ∉ clusters)
    (watched : obj.clusterID ∈ clusters) :
    lookupPods clusters stores obj = ((stores obj.clusterID).find obj.key).toList := by
  have isNamed : obj.clusterID ≠ "" := fun unnamed => named (unnamed ▸ watched)
  simp [lookupPods, isNamed, watched]

namespace Sound

section

variable (sound : Sound naming clusters w)

include sound

theorem due_append {last : Notification}
    (genuine : naming.Genuine clusters cluster last.pod) (other : String) (notification : Notification)
    (member : notification ∈ Function.update w.pending cluster (w.pending cluster ++ [last]) other) :
    naming.Genuine clusters other notification.pod := by
  rw [Function.update_apply] at member
  split_ifs at member with same
  · subst same
    rcases List.mem_append.mp member with earlier | final
    · exact sound.due _ notification earlier
    · rwa [List.mem_singleton.mp final]
  · exact sound.due other notification member

theorem set {pod : Pod} (watched : cluster ∈ clusters)
    (promised : naming.Promised (.set cluster pod)) : Sound naming clusters (w.set cluster pod) := by
  have genuine : naming.Genuine clusters cluster pod := ⟨watched, promised.1, promised.2⟩
  refine { sound with pods := ?_, due := sound.due_append genuine }
  intro other held member
  simp only [Watch.set, Function.update_apply] at member
  split_ifs at member with same
  · subst same
    rcases (SortedStore.mem_place (w.stores _).sorted).mp member with rfl | ⟨earlier, _⟩
    · exact genuine
    · exact sound.pods _ held earlier
  · exact sound.pods other held member

theorem remove (cluster key : String) :
    Sound naming clusters (w.remove cluster key) := by
  unfold Watch.remove
  split
  · exact sound
  · next pod found =>
    have genuine := sound.pods cluster pod (SortedStore.find_eq_some_iff.mp found).1
    refine { sound with pods := ?_, due := sound.due_append genuine }
    intro other held member
    simp only [Function.update_apply] at member
    split_ifs at member with same
    · subst same
      exact sound.pods _ held (List.mem_of_mem_filter member)
    · exact sound.pods other held member

theorem deliver (cluster : String) (now : ℤ) :
    Sound naming clusters (w.deliver cluster now) := by
  unfold Watch.deliver
  split
  · exact sound
  · next notification rest waiting =>
    have genuine : naming.Genuine clusters cluster notification.pod :=
      sound.due cluster notification (by rw [waiting]; exact List.mem_cons_self ..)
    have offered := genuine_notified genuine now
    refine { sound with queue := ?_, objects := ?_, due := ?_ }
    · exact (CoalescingQueue.offer_spec sound.queue _).1
    · exact sound.objects.offer (fun old new valid => valid.supersede old) offered
    · intro other due member
      simp only [Function.update_apply] at member
      split_ifs at member with same
      · subst same
        exact sound.due _ due (by rw [waiting]; exact List.mem_cons_of_mem _ member)
      · exact sound.due other due member

theorem pop : Sound naming clusters w.pop := by
  unfold Watch.pop
  split
  · next obj next idle popped =>
    obtain ⟨genuine, objects⟩ := sound.objects.pop popped
    refine { sound with queue := (Coalescing.pop_spec sound.queue popped).1, objects := objects, hand := ?_, read := ?_ }
    · rintro work ⟨⟩
      exact genuine
    · rintro work items ⟨⟩ ⟨⟩
  · exact sound

theorem fetch (named : "" ∉ clusters) : Sound naming clusters (w.fetch clusters) := by
  unfold Watch.fetch
  split
  · next obj taken =>
    have genuine := sound.hand _ taken
    refine { sound with hand := ?_, read := ?_ }
    · rintro work ⟨⟩
      exact genuine
    · rintro work items ⟨⟩ ⟨⟩
      rw [lookupPods_of_watched named genuine.watched]
      exact Option.length_toList_le
  · exact sound

theorem apply : Sound naming clusters (w.apply config) := by
  unfold Watch.apply
  split
  · next obj items taken =>
    have genuine := sound.hand _ taken
    have kept : ∀ work, (none : Option Work) = some work → False := fun work idle => nomatch idle
    rcases pod2Instance_writes (k := w.provider) items genuine.uid.nonempty with same | ⟨_, ins, written, own⟩
    · rw [same]
      exact { sound with hand := fun work idle => (kept work idle).elim, read := fun work _ idle => (kept work idle).elim }
    · rw [written]
      refine { sound with
        hand := fun work idle => (kept work idle).elim
        read := fun work _ idle => (kept work idle).elim
        cached := ?_
        untouched := fun none => absurd none (Nat.succ_ne_zero _) }
      intro other member
      rw [Provider.processCache_eq] at member
      rcases SortedStore.mem_replaceOrInsert.mp member with rfl | ⟨earlier, _⟩
      · rcases own with own | ⟨before, cached, same⟩
        · exact ⟨obj.clusterID, genuine.watched, obj.uid, genuine.uid, own⟩
        · exact same ▸ sound.cached before cached
      · exact sound.cached other earlier
  · exact sound

theorem bootstrapBegin : Sound naming clusters w.bootstrapBegin := by
  unfold Watch.bootstrapBegin
  split_ifs
  · refine { sound with candidate := ?_ }
    rintro all ⟨⟩ ins member
    cases member
  · exact sound

/-- What a bootstrap lists carries the identities of the store's pods. -/
theorem listed {ins : Instance}
    (member : ins ∈ listCluster config w.stores cluster) : SourceIdentity clusters (identityKey ins) := by
  obtain ⟨pod, held, converted⟩ := List.mem_filterMap.mp member
  have genuine := sound.pods cluster pod held
  exact ⟨cluster, genuine.watched, pod.uid, genuine.uid, convert_identity converted genuine.uid.nonempty⟩

theorem bootstrapList (cluster : String) :
    Sound naming clusters (w.bootstrapList config cluster) := by
  refine { sound with candidate := ?_ }
  intro all building ins member
  obtain ⟨before, built, rfl⟩ := Option.map_eq_some_iff.mp building
  rcases List.mem_append.mp member with earlier | fresh
  · exact sound.candidate before built ins earlier
  · exact sound.listed fresh

theorem bootstrapInstall : Sound naming clusters w.bootstrapInstall := by
  unfold Watch.bootstrapInstall
  split
  · exact sound
  · next all built =>
    simp only [Provider.installBootstrap, Provider.replaceCacheIfGeneration]
    split_ifs
    · exact { sound with candidate := fun all stopped => nomatch stopped }
    · exact { sound with candidate := fun all stopped => nomatch stopped }
    · refine { sound with
        candidate := fun all stopped => nomatch stopped
        cached := ?_
        untouched := fun none => absurd none (Nat.succ_ne_zero _) }
      intro ins member
      rcases SortedStore.mem_foldl member with listed | nothing
      · exact sound.candidate all built ins listed
      · cases nothing

/-- Every step that keeps Kubernetes' promises keeps the state sound. -/
theorem step (named : "" ∉ clusters) {event : WatchStep}
    (promised : naming.Promised event) : Sound naming clusters (w.step clusters config event) := by
  cases event with
  | set cluster pod =>
    simp only [Watch.step]
    split_ifs with watched
    · exact sound.set watched promised
    · exact sound
  | remove cluster key =>
    simp only [Watch.step]
    split_ifs
    · exact sound.remove cluster key
    · exact sound
  | deliver cluster now => exact sound.deliver cluster now
  | pop => exact sound.pop
  | fetch => exact sound.fetch named
  | apply => exact sound.apply
  | bootstrapBegin => exact sound.bootstrapBegin
  | bootstrapList cluster =>
    simp only [Watch.step]
    split_ifs
    · exact sound.bootstrapList cluster
    · exact sound
  | bootstrapInstall => exact sound.bootstrapInstall

end

end Sound

end Spotter.Providers.K8s
