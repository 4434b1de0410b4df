import Spotter.Providers.K8s.WatchInvariants

/-! # Every steady step keeps every pod on track

A step concerns one pod at most. For every other pod it changes nothing that its track depends on;
for its own pod, each kind of step has a lemma.
-/

namespace Spotter.Providers.K8s

open Library Domain Robot Worker

variable {naming : PodNaming} {clusters : List String} {config : Config} {w next : Watch} {cluster uid : String}

/-- The step changes nothing that the pod's track depends on. -/
structure SameView (naming : PodNaming) (w next : Watch) (cluster uid : String) : Prop where
  stored : stored naming next cluster uid = stored naming w cluster uid
  notices : notices next cluster uid = notices w cluster uid
  effective : next.queue.effective (podKey naming cluster uid) = w.queue.effective (podKey naming cluster uid)
  works : ∀ work, Works next cluster uid work ↔ Works w cluster uid work
  live : next.provider.Live (podIdentity cluster uid) ↔ w.provider.Live (podIdentity cluster uid)

section

variable (same : stored naming next cluster uid = stored naming w cluster uid)

include same

theorem promising_congr (event : EventType) :
    Promising naming next cluster uid event ↔ Promising naming w cluster uid event := by
  rw [Promising, Promising, same]

theorem wanted_congr :
    Wanted naming config next cluster uid ↔ Wanted naming config w cluster uid := by
  rw [Wanted, Wanted, same]

/-- What the consumer read of the pod is as current after the step as before. -/
theorem current_congr {work : Work} (works : Works w cluster uid work) : Current naming next work ↔ Current naming w work := by
  obtain ⟨_, rfl, rfl⟩ := works
  rw [Current, Current, same]

end

theorem current_of_unread {work : Work} (unread : work.items = none) : Current naming w work := by
  intro items read
  rw [unread] at read
  cases read

theorem SameView.covered (same : SameView naming w next cluster uid) (covered : Covered naming w cluster uid) :
    Covered naming next cluster uid := by
  rcases covered with ⟨event, last, promising⟩ | ⟨silent, obj, queued, promising⟩ | ⟨work, works, promising, current⟩
  · exact .inl ⟨event, same.notices ▸ last, (promising_congr same.stored event).mpr promising⟩
  · exact .inr (.inl ⟨same.notices ▸ silent, obj, same.effective ▸ queued, (promising_congr same.stored obj.event).mpr promising⟩)
  · exact .inr (.inr ⟨work, (same.works work).mpr works, (promising_congr same.stored _).mpr promising,
      (current_congr same.stored works).mpr current⟩)

theorem SameView.agrees (same : SameView naming w next cluster uid) (agrees : Agrees naming config w cluster uid) :
    Agrees naming config next cluster uid :=
  same.live.trans (agrees.trans (wanted_congr same.stored).symm)

theorem OnTrack.frame (onTrack : OnTrack naming config w cluster uid) (same : SameView naming w next cluster uid) :
    OnTrack naming config next cluster uid := by
  rcases onTrack with covered | ⟨agrees, current⟩
  · exact .inl (same.covered covered)
  · refine .inr ⟨same.agrees agrees, fun work works => ?_⟩
    have before := (same.works work).mp works
    exact (current_congr same.stored before).mpr (current work before)

/-! ## The informer's store -/

variable {pod : Pod}

theorem stored_set : stored naming (w.set cluster pod) cluster uid =
      if naming.home cluster uid = pod.key then (if pod.uid = uid then some pod else none)
      else stored naming w cluster uid := by
  simp only [stored, Watch.set, Function.update_self, SortedStore.find_replaceOrInsert]
  split_ifs with home own
  · simp [own]
  · simp [own]
  · rfl

variable {other : String}

theorem notices_append {last : Notification}
    (pending : next.pending = Function.update w.pending cluster (w.pending cluster ++ [last])) :
    notices next other uid = notices w other uid ++ if other = cluster ∧ last.pod.uid = uid then [last.event] else [] := by
  rw [notices, notices, pending, Function.update_apply]
  split_ifs with here both both
  · simp [here, both.2]
  · have foreign : last.pod.uid ≠ uid := fun own => both ⟨here, own⟩
    simp [here, foreign]
  · exact absurd both.1 here
  · simp

/-- A changed store and a callback about one pod leave the other pods' view alone once their stored pod stays. -/
theorem sameView_of_append {last : Notification} {stores : String → PodStore}
    (same : stored naming { w with stores := stores } other uid = stored naming w other uid)
    (foreign : ¬(other = cluster ∧ last.pod.uid = uid)) :
    SameView naming w
      { w with stores := stores, pending := Function.update w.pending cluster (w.pending cluster ++ [last]) } other uid where
  stored := same
  notices := by rw [notices_append rfl, if_neg foreign, List.append_nil]
  effective := rfl
  works := fun _ => Iff.rfl
  live := Iff.rfl

theorem stored_update_of_ne {store : PodStore} (elsewhere : other ≠ cluster) :
    stored naming { w with stores := Function.update w.stores cluster store } other uid = stored naming w other uid := by
  simp only [stored, Function.update_of_ne elsewhere]

theorem onTrack_set (promised : naming.Promised (.set cluster pod)) (steady : Steady naming config w (.set cluster pod))
    (onTrack : OnTrack naming config w other uid) : OnTrack naming config (w.set cluster pod) other uid := by
  rcases eq_or_ne other cluster with rfl | elsewhere
  · rcases eq_or_ne pod.uid uid with rfl | foreign
    · -- The pod itself: its callback is due, and it is in the store.
      have held : stored naming (w.set other pod) other pod.uid = some pod := by
        rw [stored_set, if_pos promised.2.symm, if_pos rfl]
      have due : ∃ event, (notices (w.set other pod) other pod.uid).getLast? = some event :=
        ⟨_, by rw [notices_append rfl, if_pos ⟨rfl, rfl⟩, List.getLast?_concat]⟩
      obtain ⟨event, last⟩ := due
      exact .inl (.inl ⟨event, last, .inl (by rw [held]; rfl)⟩)
    · have after : stored naming (w.set other pod) other uid =
          if naming.home other uid = pod.key then none else stored naming w other uid := by
        rw [stored_set, if_neg foreign]
      cases before : stored naming w other uid with
      | none =>
        refine onTrack.frame (sameView_of_append ?_ fun own => foreign own.2)
        exact after.trans (by rw [before, ite_self])
      | some old =>
        obtain ⟨found, own⟩ := Option.filter_eq_some_iff.mp before
        rw [decide_eq_true_eq] at own
        rcases eq_or_ne (naming.home other uid) pod.key with home | apart
        · -- Another generation under the same name pushed the pod out of the store.
          subst own
          obtain ⟨dead, unheld⟩ := steady old (home ▸ found) foreign.symm
          rw [if_pos home] at after
          refine .inr ⟨⟨fun live => absurd live dead, ?_⟩, ?_⟩
          · rintro ⟨held, still, _⟩
            rw [after] at still
            cases still
          · intro work works
            refine current_of_unread (Option.not_isSome_iff_eq_none.mp fun read => unheld ⟨work, works, read⟩)
        · exact onTrack.frame (sameView_of_append (after.trans (if_neg apart)) fun own => foreign own.2)
  · exact onTrack.frame (sameView_of_append (stored_update_of_ne elsewhere) fun own => elsewhere own.1)

theorem onTrack_remove {key : String} (onTrack : OnTrack naming config w other uid) :
    OnTrack naming config (w.remove cluster key) other uid := by
  unfold Watch.remove
  split
  · exact onTrack
  · next pod found =>
    rcases eq_or_ne other cluster with rfl | elsewhere
    · rcases eq_or_ne pod.uid uid with rfl | foreign
      · refine .inl (.inl ⟨.delete, ?_, .inr rfl⟩)
        rw [notices_append rfl, if_pos ⟨rfl, rfl⟩, List.getLast?_concat]
      · refine onTrack.frame (sameView_of_append ?_ fun own => foreign own.2)
        -- The store held another generation under the key, if it is this pod's key at all.
        simp only [stored, Function.update_self, SortedStore.find_erase]
        split_ifs with home
        · rw [home, found, Option.filter_some_neg (by simpa using foreign)]
          rfl
        · rfl
    · exact onTrack.frame (sameView_of_append (stored_update_of_ne elsewhere) fun own => elsewhere own.1)

/-! ## The queue -/

variable {notification : Notification} {rest : List Notification}

/-- The first callback of a cluster is made; what is due afterwards is the rest. -/
theorem notices_deliver {queue : CoalescingQueue} (waiting : w.pending cluster = notification :: rest) (other : String) :
    notices w other uid = (if other = cluster ∧ notification.pod.uid = uid then [notification.event] else []) ++
      notices { w with pending := Function.update w.pending cluster rest, queue := queue } other uid := by
  simp only [notices, Function.update_apply]
  split_ifs with both here here
  · simp [here, waiting, both.2]
  · exact absurd both.1 here
  · have foreign : notification.pod.uid ≠ uid := fun own => both ⟨here, own⟩
    simp [here, waiting, foreign]
  · rfl

variable {now : ℤ}

section

variable (sound : Sound naming clusters w)

include sound

/-- The last callback about a pod is as good in the queue as it was before, or is not needed. -/
theorem onTrack_offered
    (last : notices { w with pending := Function.update w.pending cluster rest } cluster notification.pod.uid = [])
    (key : (notified cluster notification now).identityKey = podKey naming cluster notification.pod.uid)
    (heard : Heard naming config w cluster notification rest)
    (promising : Promising naming w cluster notification.pod.uid notification.event) :
    OnTrack naming config
      { w with
        pending := Function.update w.pending cluster rest
        queue := (w.queue.offer (notified cluster notification now)).1 } cluster notification.pod.uid := by
  rcases heard with accepted | ⟨kept, known⟩ | ⟨other, member, same⟩ | ⟨agrees, unheld⟩
  · rw [← key] at accepted
    obtain ⟨obj, queued, event⟩ := CoalescingQueue.offer_effective_event sound.queue accepted
    exact .inl (.inr (.inl ⟨last, obj, key ▸ queued, event ▸ promising⟩))
  · -- The event comes after a buffered one, which is as good for a pod that the store holds.
    have held := promising.resolve_right kept
    have pending : (w.queue.effective (podKey naming cluster notification.pod.uid)).isSome = true := by
      rw [CoalescingQueue.effective, Coalescing.effective, Option.isSome_or, Option.isSome_iff_ne_none.mpr known, Bool.or_true]
    obtain ⟨obj, queued⟩ := Option.isSome_iff_exists.mp (CoalescingQueue.offer_effective_isSome sound.queue pending)
    exact .inl (.inr (.inl ⟨last, obj, queued, .inl held⟩))
  · have due : other.event ∈ notices { w with pending := Function.update w.pending cluster rest } cluster notification.pod.uid := by
      simp only [notices, Function.update_self]
      exact List.mem_map_of_mem (List.mem_filter.mpr ⟨member, decide_eq_true same⟩)
    rw [last] at due
    cases due
  · refine .inr ⟨agrees, fun work works => current_of_unread ?_⟩
    exact Option.not_isSome_iff_eq_none.mp fun read => unheld ⟨work, works, read⟩

/-- A callback that is heard keeps its pod on track. -/
theorem onTrack_heard (waiting : w.pending cluster = notification :: rest)
    (key : (notified cluster notification now).identityKey = podKey naming cluster notification.pod.uid)
    (heard : Heard naming config w cluster notification rest) (onTrack : OnTrack naming config w cluster notification.pod.uid) :
    OnTrack naming config
      { w with
        pending := Function.update w.pending cluster rest
        queue := (w.queue.offer (notified cluster notification now)).1 } cluster notification.pod.uid := by
  set next : Watch :=
    { w with
      pending := Function.update w.pending cluster rest
      queue := (w.queue.offer (notified cluster notification now)).1 }
  have due : notices w cluster notification.pod.uid = notification.event :: notices next cluster notification.pod.uid := by
    rw [notices_deliver waiting, if_pos ⟨rfl, rfl⟩]
    rfl
  rcases onTrack with (⟨event, last, promising⟩ | ⟨silent, _⟩ | hand) | agreement
  · cases later : notices next cluster notification.pod.uid with
    | cons first others =>
      -- Another callback about the pod is due, and the last one is still the last.
      rw [due, later, List.getLast?_cons_cons] at last
      exact .inl (.inl ⟨event, later ▸ last, promising⟩)
    | nil =>
      rw [due, later] at last
      obtain rfl : notification.event = event := Option.some.inj last
      exact onTrack_offered sound later key heard promising
  · rw [due] at silent
    cases silent
  · exact .inl (.inr (.inr hand))
  · exact .inr agreement

theorem onTrack_deliver (valid : ValidUID uid)
    (steady : Steady naming config w (.deliver cluster now)) (onTrack : OnTrack naming config w other uid) :
    OnTrack naming config (w.deliver cluster now) other uid := by
  unfold Watch.deliver
  split
  · exact onTrack
  · next notification rest waiting =>
    have genuine : naming.Genuine clusters cluster notification.pod :=
      sound.due cluster notification (by rw [waiting]; exact List.mem_cons_self ..)
    have key : (notified cluster notification now).identityKey = podKey naming cluster notification.pod.uid :=
      podKey_eq naming clusters (genuine_notified genuine now)
    by_cases own : other = cluster ∧ notification.pod.uid = uid
    · obtain ⟨rfl, rfl⟩ := own
      exact onTrack_heard sound waiting key (steady notification rest waiting) onTrack
    · refine onTrack.frame ⟨rfl, ?_, ?_, fun _ => Iff.rfl, Iff.rfl⟩
      · rw [notices_deliver waiting other, if_neg own, List.nil_append]
      refine (CoalescingQueue.offer_spec sound.queue _).2.2 _ fun same => own ?_
      obtain ⟨here, pod⟩ := podKey_inj naming valid genuine.uid (same.trans key)
      exact ⟨here, pod.symm⟩

theorem onTrack_pop (valid : ValidUID uid)
    (onTrack : OnTrack naming config w cluster uid) : OnTrack naming config w.pop cluster uid := by
  unfold Watch.pop
  split
  · next obj rest idle popped =>
    obtain ⟨genuine, _⟩ := sound.objects.pop popped
    have key := podKey_eq naming clusters genuine
    obtain ⟨_, _, taken, kept⟩ := Coalescing.pop_spec sound.queue popped
    by_cases own : obj.clusterID = cluster ∧ obj.uid = uid
    · have works : Works { w with queue := rest, hand := some { obj := obj } } cluster uid { obj := obj } := ⟨rfl, own⟩
      rcases onTrack with (⟨event, last, promising⟩ | ⟨silent, queued, found, promising⟩ | ⟨work, working, _⟩) | ⟨agrees, _⟩
      · exact .inl (.inl ⟨event, last, promising⟩)
      · -- The pod's next event is the one the consumer took.
        rw [key, own.1, own.2] at taken
        obtain rfl : obj = queued := Option.some.inj (taken.symm.trans found)
        exact .inl (.inr (.inr ⟨_, works, promising, current_of_unread rfl⟩))
      · rw [working.1] at idle
        cases idle
      · refine .inr ⟨agrees, ?_⟩
        rintro work ⟨⟨⟩, _⟩
        exact current_of_unread rfl
    · refine onTrack.frame ⟨rfl, rfl, ?_, ?_, Iff.rfl⟩
      · refine (kept (podKey naming cluster uid)).trans (if_neg fun same => own ?_)
        obtain ⟨here, pod⟩ := podKey_inj naming valid genuine.uid (same.trans key)
        exact ⟨here.symm, pod.symm⟩
      · intro work
        constructor
        · rintro ⟨⟨⟩, same⟩
          exact absurd same own
        · rintro ⟨working, _⟩
          rw [working] at idle
          cases idle
  · exact onTrack

end

/-! ## The consumer -/

variable {obj : QueueObject}

theorem readPod_toList {found : Option Pod} :
    readPod obj found.toList = found.filter fun pod => decide (pod.uid = obj.uid) := by
  cases found with
  | none => rfl
  | some pod =>
    simp only [Option.toList_some, readPod]
    split_ifs with own
    · rw [Option.filter_some_pos (by simpa using own)]
    · rw [Option.filter_some_neg (by simpa using own)]

theorem onTrack_fetch (sound : Sound naming clusters w) (named : "" ∉ clusters)
    (onTrack : OnTrack naming config w cluster uid) : OnTrack naming config (w.fetch clusters) cluster uid := by
  unfold Watch.fetch
  split
  · next obj taken =>
    have genuine := sound.hand _ taken
    have current : Current naming w ⟨obj, some (lookupPods clusters w.stores obj)⟩ := by
      rintro items ⟨⟩
      rw [lookupPods_of_watched named genuine.watched, readPod_toList, genuine.home]
      rfl
    rcases onTrack with (noticed | queued | ⟨work, ⟨working, own⟩, promising, _⟩) | ⟨agrees, _⟩
    · exact .inl (.inl noticed)
    · exact .inl (.inr (.inl queued))
    · obtain rfl : ⟨obj, none⟩ = work := Option.some.inj (taken.symm.trans working)
      exact .inl (.inr (.inr ⟨_, ⟨rfl, own⟩, promising, current⟩))
    · refine .inr ⟨agrees, ?_⟩
      rintro work ⟨⟨⟩, _⟩
      exact current
  · exact onTrack

/-- A conversion depends on the event only through its pod and whether it is a deletion. -/
theorem convert_sourceObject (generation : obj.uid ≠ "") (own : pod.uid = obj.uid) (present : obj.event ≠ .delete) :
    config.convert (sourceObject obj.clusterID pod) pod = config.convert obj pod := by
  have same : formatInstanceWithDeps config.lib config.pushAppCodes (some (sourceObject obj.clusterID pod)) pod =
      formatInstanceWithDeps config.lib config.pushAppCodes (some obj) pod := by
    simp [formatInstanceWithDeps, sourceObject, formatStatus, own, generation, present]
  rw [Config.convert, Config.convert, same]

/-- A deletion converts to an offline instance. -/
theorem not_wants_of_delete (deleted : obj.event = .delete) : ¬config.Wants obj pod := by
  rintro ⟨ins, converted, live⟩
  have formatted := (Option.filter_eq_some_iff.mp converted).1
  simp only [formatInstanceWithDeps] at formatted
  split_ifs at formatted <;>
  · cases formatted
    simp [Instance.offline, formatStatus, deleted] at live

theorem not_wants_of_drops (drops : w.provider.Drops config obj pod) : ¬config.Wants obj pod := by
  rintro ⟨ins, converted, live⟩
  have shell := (drops ins converted).1
  rw [offlineShell, live] at shell
  cases shell

/-- An event that finds its pod and is heeded makes the cache agree with the store. -/
theorem live_podFound (generation : obj.uid ≠ "") (own : pod.uid = obj.uid)
    (kept : w.provider.Drops config obj pod → ¬w.provider.Live (podIdentity obj.clusterID obj.uid))
    (deleted : obj.event = .delete → ¬config.Wants (sourceObject obj.clusterID pod) pod) :
    (w.provider.podFound config obj pod).1.Live (podIdentity obj.clusterID obj.uid) ↔
      config.Wants (sourceObject obj.clusterID pod) pod := by
  have source : config.Wants (sourceObject obj.clusterID pod) pod ↔ config.Wants obj pod := by
    rcases eq_or_ne obj.event .delete with gone | present
    · exact iff_of_false (deleted gone) (not_wants_of_delete gone)
    · rw [Config.Wants, Config.Wants, convert_sourceObject generation own present]
  rw [source]
  by_cases drops : w.provider.Drops config obj pod
  · rw [podFound_of_drops drops]
    exact iff_of_false (kept drops) (not_wants_of_drops drops)
  · rw [podFound_live generation drops, own, if_pos rfl]

variable {items : List Pod}

/-- The consumer found its pod in the store, so it read exactly that pod. -/
theorem readPod_eq_some (read : readPod obj items = some pod) : items = [pod] ∧ pod.uid = obj.uid := by
  unfold readPod at read
  split at read
  · split_ifs at read with own
    cases read
    exact ⟨rfl, own⟩
  · cases read

/-- The consumer did not find its pod, so the event is treated as one of a pod that is gone. -/
theorem pod2Instance_of_unread (few : items.length ≤ 1) (generation : obj.uid ≠ "") (read : readPod obj items = none) :
    w.provider.pod2Instance config obj items = w.provider.podGone obj := by
  match items with
  | [] => rfl
  | [pod] =>
    have other : pod.uid ≠ obj.uid := by
      intro own
      simp [readPod, own] at read
    rw [Provider.pod2Instance, if_pos ⟨generation, other⟩]
  | _ :: _ :: _ => simp at few

/-- An event that does not find its pod leaves the cache in agreement with the store. -/
theorem live_podGone (cluster : obj.clusterID ≠ "") (generation : obj.uid ≠ "")
    (absent : stored naming w obj.clusterID obj.uid = none)
    (awaited : Promising naming w obj.clusterID obj.uid obj.event ∨ Agrees naming config w obj.clusterID obj.uid) :
    (w.provider.podGone obj).1.Live (podIdentity obj.clusterID obj.uid) ↔
      Wanted naming config w obj.clusterID obj.uid := by
  have unwanted : ¬Wanted naming config w obj.clusterID obj.uid := by
    rintro ⟨pod, held, _⟩
    rw [absent] at held
    cases held
  rw [podGone_live cluster generation]
  rcases eq_or_ne obj.event .delete with deleted | present
  · rw [if_pos ⟨rfl, deleted⟩]
    exact iff_of_false id unwanted
  · rw [if_neg fun both => present both.2]
    rcases awaited with (held | deleted) | agrees
    · rw [absent] at held
      cases held
    · exact absurd deleted present
    · exact agrees

/-- Applying an event on what the store still holds keeps the event's pod on track. -/
theorem onTrack_applied (genuine : GenuineObject naming clusters obj) (named : "" ∉ clusters) (few : items.length ≤ 1)
    (heeded : ∀ pod, items = [pod] → pod.uid = obj.uid → Heeded naming config w obj pod)
    (current : readPod obj items = stored naming w obj.clusterID obj.uid)
    (awaited : Promising naming w obj.clusterID obj.uid obj.event ∨ Agrees naming config w obj.clusterID obj.uid) :
    OnTrack naming config { w with provider := (w.provider.pod2Instance config obj items).1, hand := none }
      obj.clusterID obj.uid := by
  have cluster : obj.clusterID ≠ "" := fun unnamed => named (unnamed ▸ genuine.watched)
  have generation := genuine.uid.nonempty
  cases read : readPod obj items with
  | none =>
    rw [pod2Instance_of_unread few generation read]
    exact .inr ⟨live_podGone cluster generation (current.symm.trans read) awaited, fun work idle => nomatch idle.1⟩
  | some pod =>
    have held : stored naming w obj.clusterID obj.uid = some pod := current.symm.trans read
    have inStore : (stored naming w obj.clusterID obj.uid).isSome = true := by
      rw [held]
      rfl
    obtain ⟨rfl, own⟩ := readPod_eq_some read
    have found : w.provider.pod2Instance config obj [pod] = w.provider.podFound config obj pod :=
      if_neg fun replaced => replaced.2 own
    -- More events of the pod follow, or this one makes the cache agree.
    rcases heeded pod rfl own with due | pending | ⟨kept, deleted⟩
    · exact .inl (.inl ⟨_, List.getLast?_eq_some_getLast due, .inl inStore⟩)
    · obtain ⟨next, queued⟩ := Option.isSome_iff_exists.mp pending
      cases due : notices w obj.clusterID obj.uid with
      | nil => exact .inl (.inr (.inl ⟨due, next, queued, .inl inStore⟩))
      | cons first rest =>
        refine .inl (.inl ⟨_, List.getLast?_eq_some_getLast ?_, .inl inStore⟩)
        exact fun silent => List.cons_ne_nil first rest (due.symm.trans silent)
    · refine .inr ⟨?_, fun work idle => nomatch idle.1⟩
      have agrees := live_podFound generation own kept deleted
      have wanted : Wanted naming config w obj.clusterID obj.uid ↔
          config.Wants (sourceObject obj.clusterID pod) pod := by
        simp [Wanted, held]
      rw [found]
      exact agrees.trans wanted.symm

theorem onTrack_apply (sound : Sound naming clusters w) (named : "" ∉ clusters) (valid : ValidUID uid)
    (steady : Steady naming config w .apply) (onTrack : OnTrack naming config w cluster uid) :
    OnTrack naming config (w.apply config) cluster uid := by
  unfold Watch.apply
  split
  · next obj items taken =>
    have genuine := sound.hand _ taken
    have few := sound.read _ items taken rfl
    by_cases own : obj.clusterID = cluster ∧ obj.uid = uid
    · obtain ⟨rfl, rfl⟩ := own
      have works : Works w obj.clusterID obj.uid ⟨obj, some items⟩ := ⟨taken, rfl, rfl⟩
      have heeded : ∀ pod, items = [pod] → pod.uid = obj.uid → Heeded naming config w obj pod := by
        rintro pod rfl same
        exact steady obj pod taken same
      rcases onTrack with (noticed | queued | ⟨work, working, promising, current⟩) | ⟨agrees, current⟩
      · exact .inl (.inl noticed)
      · exact .inl (.inr (.inl queued))
      · obtain rfl : ⟨obj, some items⟩ = work := Option.some.inj (taken.symm.trans working.1)
        exact onTrack_applied genuine named few heeded (current items rfl) (.inl promising)
      · exact onTrack_applied genuine named few heeded (current _ works items rfl) (.inr agrees)
    · refine onTrack.frame ⟨rfl, rfl, rfl, ?_, ?_⟩
      · intro work
        constructor
        · rintro ⟨⟨⟩, _⟩
        · rintro ⟨working, same⟩
          obtain rfl : ⟨obj, some items⟩ = work := Option.some.inj (taken.symm.trans working)
          exact absurd same own
      · refine pod2Instance_live_of_ne (fun unnamed => named (unnamed ▸ genuine.watched)) genuine.uid.nonempty ?_
        intro same
        obtain ⟨here, pod⟩ := podIdentity_inj valid genuine.uid same
        exact own ⟨here.symm, pod.symm⟩
  · exact onTrack

/-! ## The bootstrap -/

theorem onTrack_bootstrapInstall (sound : Sound naming clusters w) (steady : Steady naming config w .bootstrapInstall)
    (onTrack : OnTrack naming config w cluster uid) : OnTrack naming config w.bootstrapInstall cluster uid := by
  unfold Watch.bootstrapInstall
  split
  · exact onTrack
  · next all built =>
    simp only [Provider.installBootstrap, Provider.replaceCacheIfGeneration]
    split_ifs with nothing changed
    · exact onTrack
    · exact onTrack
    · rw [ne_eq, not_not] at changed
      rcases onTrack with covered | ⟨agrees, current⟩
      · exact .inl covered
      · -- The cache was empty, so the store does not want the pod.
        have dead : ¬w.provider.Live (podIdentity cluster uid) := by
          rintro ⟨ins, found, _⟩
          rw [SortedStore.find, sound.untouched changed] at found
          cases found
        by_cases listed : ∃ ins ∈ all, identityKey ins = podIdentity cluster uid ∧ ins.offline = false
        · obtain ⟨ins, member, identity, live⟩ := listed
          rcases steady all built changed ins member live cluster uid identity with wanted | covered
          · exact absurd (agrees.mpr wanted) dead
          · exact .inl covered
        · refine .inr ⟨⟨?_, fun wanted => absurd (agrees.mpr wanted) dead⟩, current⟩
          rintro ⟨ins, found, live⟩
          obtain ⟨member, identity⟩ := SortedStore.find_eq_some_iff.mp found
          rcases SortedStore.mem_foldl member with among | nowhere
          · exact absurd ⟨ins, among, identity, live⟩ listed
          · cases nowhere

/-- A promised, steady step keeps every pod on track. -/
theorem onTrack_step (sound : Sound naming clusters w) (named : "" ∉ clusters) {event : WatchStep}
    (promised : naming.Promised event) (steady : Steady naming config w event) (valid : ValidUID uid)
    (onTrack : OnTrack naming config w cluster uid) : OnTrack naming config (w.step clusters config event) cluster uid := by
  cases event with
  | set other pod =>
    simp only [Watch.step]
    split_ifs
    · exact onTrack_set promised steady onTrack
    · exact onTrack
  | remove other key =>
    simp only [Watch.step]
    split_ifs
    · exact onTrack_remove onTrack
    · exact onTrack
  | deliver other now => exact onTrack_deliver sound valid steady onTrack
  | pop => exact onTrack_pop sound valid onTrack
  | fetch => exact onTrack_fetch sound named onTrack
  | apply => exact onTrack_apply sound named valid steady onTrack
  | bootstrapBegin =>
    simp only [Watch.step, Watch.bootstrapBegin]
    split_ifs
    · exact onTrack
    · exact onTrack
  | bootstrapList other =>
    simp only [Watch.step]
    split_ifs
    · exact onTrack
    · exact onTrack
  | bootstrapInstall => exact onTrack_bootstrapInstall sound steady onTrack

end Spotter.Providers.K8s
