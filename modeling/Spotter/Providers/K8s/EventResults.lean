import Spotter.Providers.K8s.Backstop

/-! # What an event caches and sends

An event puts one instance forward, the one its pod converts to, or it ends the cached one. Whatever is cached is also
sent. The comparison with the cached instance looks at the revision and, whatever the revisions are, at a projection of
the fields; a deletion whose pod is no longer in the stores changes the status of the cached instance and nothing else.
-/

namespace Spotter.Providers.K8s

open Library Domain Robot

/-- The pod that the stores hold for an event: the only one under its key, of the event's pod generation. -/
def storedPod (obj : QueueObject) : List Pod → Option Pod
  | [pod] => if obj.uid ≠ "" ∧ pod.uid ≠ obj.uid then none else some pod
  | _ => none

/-- The instance that an event's pod puts forward: the converted one or, for an offline shell, the cached one ended. -/
def Provider.offered (config : Config) (k : Provider) (obj : QueueObject) (items : List Pod) : Option Instance :=
  (storedPod obj items).bind fun pod => (config.convert obj pod).bind fun ins =>
    if offlineShell ins then (k.lastKnown ins).map fun cached => terminatedCopy cached ins else some ins

/-- What an event can do to the provider, and what it sends. -/
inductive EventMove (config : Config) (k : Provider) (obj : QueueObject) (items : List Pod) :
    Provider → Option Instance → Prop where
  | ignored (nothing : k.offered config obj items = none) : EventMove config k obj items k none
  | unchanged {ins cached : Instance} (offered : k.offered config obj items = some ins)
      (found : k.cache.get (identityKey ins) = some cached) (same : hasInstanceDiff cached ins = false) :
      EventMove config k obj items k none
  | published {ins : Instance} (offered : k.offered config obj items = some ins)
      (differs : ∀ cached, k.cache.get (identityKey ins) = some cached → hasInstanceDiff cached ins = true) :
      EventMove config k obj items (k.processCache obj.event ins) (some ins)
  | ended {cached : Instance} (gone : storedPod obj items = none) (deletion : obj.event = .delete)
      (found : k.cache.find (deletedKey obj) = some cached) (present : cached.status ≠ instanceStatusOffline) :
      EventMove config k obj items (k.processCache .delete (deletedCopy cached)) (some (deletedCopy cached))

variable {config : Config} {k next : Provider} {obj : QueueObject} {items : List Pod} {emitted : Option Instance}

theorem deletedKey_qualified (obj : QueueObject) : Cache.sourceQualified (deletedKey obj) = true := by
  unfold deletedKey
  split_ifs
  · simp [Cache.sourceQualified]
  · simp [Cache.sourceQualified]

variable {ins : Instance}

theorem publish_move (offered : k.offered config obj items = some ins) :
    EventMove config k obj items (k.publish obj.event ins).1 (k.publish obj.event ins).2 := by
  unfold Provider.publish
  split_ifs with differs
  · exact .published offered (Option.all_eq_true _ _ |>.mp differs)
  · rw [Option.all_eq_true, not_forall] at differs
    obtain ⟨cached, kept⟩ := differs
    obtain ⟨found, same⟩ := Classical.not_imp.mp kept
    exact .unchanged offered found (Bool.eq_false_iff.mpr same)

theorem podGone_move (gone : storedPod obj items = none) :
    EventMove config k obj items (k.podGone obj).1 (k.podGone obj).2 := by
  have nothing : k.offered config obj items = none := by rw [Provider.offered, gone, Option.bind_none]
  unfold Provider.podGone
  split
  · next cached deletion found =>
    split_ifs with present
    · rw [Cache.get_qualified (deletedKey_qualified obj)] at found
      exact .ended gone deletion found present
    · exact .ignored nothing
  · exact .ignored nothing

variable {pod : Pod}

theorem podFound_move (stored : storedPod obj items = some pod) :
    EventMove config k obj items (k.podFound config obj pod).1 (k.podFound config obj pod).2 := by
  unfold Provider.podFound
  cases converted : config.convert obj pod with
  | none => exact .ignored (by simp [Provider.offered, stored, converted])
  | some ins =>
    have offered : k.offered config obj items =
        if offlineShell ins then (k.lastKnown ins).map fun cached => terminatedCopy cached ins else some ins := by
      rw [Provider.offered, stored, Option.bind_some, converted, Option.bind_some]
    cases shell : offlineShell ins with
    | false =>
      simp only [shell, Bool.false_eq_true, ↓reduceIte] at offered ⊢
      exact publish_move offered
    | true =>
      cases known : k.lastKnown ins with
      | none =>
        simp only [shell, ↓reduceIte, known] at offered ⊢
        exact .ignored offered
      | some cached =>
        simp only [shell, ↓reduceIte, known] at offered ⊢
        exact publish_move offered

theorem pod2Instance_move (config : Config) (k : Provider) (obj : QueueObject) (items : List Pod) :
    EventMove config k obj items (k.pod2Instance config obj items).1 (k.pod2Instance config obj items).2 := by
  unfold Provider.pod2Instance
  rcases items with _ | ⟨pod, _ | ⟨second, rest⟩⟩
  · exact podGone_move rfl
  · simp only
    split_ifs with other
    · exact podGone_move (if_pos other)
    · exact podFound_move (if_neg other)
  · exact .ignored rfl

/-! ## The cache's order in time -/

/-- No identity goes back to an earlier revision, and a tombstone gives way to a later revision only. -/
def Forward (old new : Cache) : Prop :=
  ∀ identity cached, old.find identity = some cached → ∃ later, new.find identity = some later ∧
    cached.reversion ≤ later.reversion ∧ (cached.offline = true → later = cached ∨ cached.reversion < later.reversion)

theorem Forward.refl (cache : Cache) : Forward cache cache :=
  fun _ cached found => ⟨cached, found, le_rfl, fun _ => .inl rfl⟩

theorem Forward.trans {first second third : Cache} (earlier : Forward first second) (later : Forward second third) :
    Forward first third := by
  intro identity cached found
  obtain ⟨middle, reached, above, tombstone⟩ := earlier identity cached found
  obtain ⟨last, held, higher, kept⟩ := later identity middle reached
  refine ⟨last, held, above.trans higher, ?_⟩
  intro offline
  rcases tombstone offline with rfl | replaced
  · exact kept offline
  · exact .inr (replaced.trans_le higher)

/-- The fields that are compared whatever the revisions are. -/
structure SameProjection (old new : Instance) : Prop where
  envType : new.envType = old.envType
  state : new.state = old.state
  status : new.status = old.status
  envGroup : new.envGroup = old.envGroup
  instanceId : new.instanceId = old.instanceId
  ip : new.ip = old.ip
  enabled : new.enabled = old.enabled

/-- The stores hold an outdated version of the event's pod: the cached instance of its identity is a tombstone of no lower
revision, or has a higher revision and looks different. -/
def Provider.Outdates (config : Config) (k : Provider) (obj : QueueObject) (items : List Pod) : Prop :=
  ∃ ins cached, k.offered config obj items = some ins ∧ k.cache.find (identityKey ins) = some cached ∧
    if cached.offline then ins.offline = false ∧ ins.reversion ≤ cached.reversion
    else ins.reversion < cached.reversion ∧ ¬SameProjection cached ins

theorem hasInstanceDiff_iff {old new : Instance} : hasInstanceDiff old new = true ↔
      ¬(old.offline = true ∧ new.offline = true) ∧ (old.reversion < new.reversion ∨ ¬SameProjection old new) := by
  have projection : SameProjection old new ↔ new.envType = old.envType ∧ new.state = old.state ∧ new.status = old.status ∧
      new.envGroup = old.envGroup ∧ new.instanceId = old.instanceId ∧ new.ip = old.ip ∧ new.enabled = old.enabled := by
    constructor
    · rintro ⟨envType, state, status, envGroup, instanceId, ip, enabled⟩
      exact ⟨envType, state, status, envGroup, instanceId, ip, enabled⟩
    · rintro ⟨envType, state, status, envGroup, instanceId, ip, enabled⟩
      exact ⟨envType, state, status, envGroup, instanceId, ip, enabled⟩
  have ended : (old.status = new.status ∧ old.status = instanceStatusOffline) ↔ (old.offline = true ∧ new.offline = true) := by
    simp only [Instance.offline, beq_iff_eq]
    constructor
    · rintro ⟨same, offline⟩
      exact ⟨offline, same ▸ offline⟩
    · rintro ⟨offline, other⟩
      exact ⟨offline.trans other.symm, offline⟩
  unfold hasInstanceDiff
  rw [projection]
  split_ifs with both
  · simp [ended.mp both]
  · rw [ended] at both
    simp only [both, not_false_eq_true, true_and, decide_eq_true_eq, not_and_or, ne_eq]

/-- Writing an instance concerns the cached instance of its identity only. -/
theorem processCache_forward_iff {event : EventType} :
    Forward k.cache (k.processCache event ins).cache ↔ ∀ cached, k.cache.find (identityKey ins) = some cached →
      cached.reversion ≤ ins.reversion ∧ (cached.offline = true → ins = cached ∨ cached.reversion < ins.reversion) := by
  simp only [Forward, Provider.processCache_eq, SortedStore.find_replaceOrInsert]
  constructor
  · intro forward cached found
    obtain ⟨later, held, above⟩ := forward _ cached found
    rw [if_pos rfl] at held
    cases held
    exact above
  · intro own identity cached found
    split_ifs with same
    · subst same
      exact ⟨ins, rfl, own cached found⟩
    · exact ⟨cached, found, le_rfl, fun _ => .inl rfl⟩

theorem publish_forward_iff (offered : k.offered config obj items = some ins)
    (differs : ∀ cached, k.cache.get (identityKey ins) = some cached → hasInstanceDiff cached ins = true) :
    Forward k.cache (k.processCache obj.event ins).cache ↔ ¬k.Outdates config obj items := by
  have outdates : k.Outdates config obj items ↔ ∃ cached, k.cache.find (identityKey ins) = some cached ∧
      if cached.offline then ins.offline = false ∧ ins.reversion ≤ cached.reversion
      else ins.reversion < cached.reversion ∧ ¬SameProjection cached ins := by
    constructor
    · rintro ⟨again, cached, same, outdated⟩
      rw [offered] at same
      cases same
      exact ⟨cached, outdated⟩
    · rintro ⟨cached, outdated⟩
      exact ⟨ins, cached, offered, outdated⟩
  rw [processCache_forward_iff, outdates, not_exists]
  refine forall_congr' fun cached => ?_
  rw [not_and]
  refine forall_congr' fun found => ?_
  obtain ⟨unended, newer⟩ := hasInstanceDiff_iff.mp (differs cached (Cache.get_of_find found))
  split_ifs with tombstone
  · -- The new instance is not offline, so it is not the tombstone.
    have online : ins.offline = false := Bool.eq_false_iff.mpr fun offline => unended ⟨tombstone, offline⟩
    have other : ins ≠ cached := by
      rintro rfl
      rw [tombstone] at online
      cases online
    simp only [tombstone, online, other, false_or, true_and, forall_const, not_le]
    exact ⟨fun above => above.2, fun above => ⟨above.le, above⟩⟩
  · simp only [tombstone, not_and, not_not]
    constructor
    · intro above below
      exact absurd above.1 (not_le.mpr below)
    · intro same
      refine ⟨?_, fun offline => absurd offline (by simp)⟩
      by_contra below
      rcases newer with above | apart
      · exact below above.le
      · exact apart (same (not_le.mp below))

/-- An event takes the cache forward exactly when the stores do not hold an outdated pod. -/
theorem move_forward_iff (move : EventMove config k obj items next emitted) :
    Forward k.cache next.cache ↔ ¬k.Outdates config obj items := by
  cases move with
  | ignored nothing =>
    refine iff_of_true (Forward.refl _) ?_
    rintro ⟨ins, cached, offered, _⟩
    rw [nothing] at offered
    cases offered
  | unchanged offered found same =>
    refine iff_of_true (Forward.refl _) ?_
    rintro ⟨ins, cached, again, held, outdated⟩
    rw [offered] at again
    cases again
    rw [Cache.get_of_find held] at found
    cases found
    refine absurd (hasInstanceDiff_iff.mpr ?_) (Bool.eq_false_iff.mp same)
    split_ifs at outdated with tombstone
    · refine ⟨fun both => absurd both.2 (Bool.eq_false_iff.mp outdated.1), .inr fun projection => ?_⟩
      have status := projection.status
      simp_all [Instance.offline]
    · exact ⟨fun both => tombstone both.1, .inr outdated.2⟩
  | published offered differs => exact publish_forward_iff offered differs
  | ended gone deletion found present =>
    refine iff_of_true ?_ ?_
    · rw [processCache_forward_iff]
      intro cached held
      have own := (SortedStore.find_eq_some_iff.mp found).2
      have key : identityKey (deletedCopy _) = deletedKey obj := own
      rw [key, found] at held
      cases held
      refine ⟨le_rfl, ?_⟩
      intro offline
      exact absurd (beq_iff_eq.mp offline) present
    · rintro ⟨ins, cached, offered, _⟩
      rw [Provider.offered, gone, Option.bind_none] at offered
      cases offered

/-- The provider after events, each with the pods that the stores hold under its key when it is processed. -/
def Provider.afterEvents (config : Config) (k : Provider) (events : List (QueueObject × List Pod)) : Provider :=
  events.foldl (fun k event => (k.pod2Instance config event.1 event.2).1) k

/-- For every cache, every sequence of events and all store contents: from every point of the sequence to every later one the
cached revisions never decrease and tombstones give way to higher revisions only, exactly when no event reads an outdated pod. -/
theorem cache_forward_iff (config : Config) (k : Provider) (events : List (QueueObject × List Pod)) :
    (∀ earlier later rest, events = earlier ++ later ++ rest →
        Forward (k.afterEvents config earlier).cache (k.afterEvents config (earlier ++ later)).cache) ↔
      History.AllSteps (fun before event => ¬(k.afterEvents config before).Outdates config event.1 event.2) events := by
  have step : ∀ before event, Forward (k.afterEvents config before).cache (k.afterEvents config (before ++ [event])).cache ↔
      ¬(k.afterEvents config before).Outdates config event.1 event.2 := by
    intro before event
    rw [Provider.afterEvents, Provider.afterEvents, List.foldl_append]
    exact move_forward_iff (pod2Instance_move config _ event.1 event.2)
  constructor
  · intro forward before event rest split
    refine (step before event).mp (forward before [event] rest ?_)
    rw [split, List.append_assoc, List.singleton_append]
  · intro current earlier later
    induction later using List.reverseRecOn with
    | nil =>
        intro rest _
        rw [List.append_nil]
        exact Forward.refl _
    | append_singleton later event ih =>
        intro rest split
        rw [← List.append_assoc, List.append_assoc _ [event], List.singleton_append] at split
        refine (ih (event :: rest) split).trans ?_
        rw [← List.append_assoc]
        exact (step (earlier ++ later) event).mpr (current _ event rest split)

def podEvent (event : EventType) : QueueObject := { key := "default/b", clusterID := "c1", uid := "b", event := event }

/-- An earlier version of a pod, from before it was ready. -/
def earlierPod (version : String) : Pod :=
  { readyPod "b" version with containerStatuses := [{ ready := false, running := true }] }

/-- The revision and the status cached for the pod after events. -/
def cachedAfter (events : List (QueueObject × List Pod)) : Option (ℤ × ℤ) :=
  ((Provider.afterEvents { lib := plainLib } {} events).cache.find "c1/b").map fun ins => (ins.reversion, ins.status)

/-- The stores return an earlier version of a cached pod, and the version of a deleted one. -/
theorem stale_store_takes_cache_back : cachedAfter [(podEvent .add, [readyPod "b" "5"])] = some (5, instanceStatusOnline) ∧
      cachedAfter [(podEvent .add, [readyPod "b" "5"]), (podEvent .update, [earlierPod "3"])] =
        some (3, instanceStatusUnhealthy) ∧
      cachedAfter [(podEvent .add, [readyPod "b" "5"]), (podEvent .delete, [])] = some (5, instanceStatusOffline) ∧
      cachedAfter [(podEvent .add, [readyPod "b" "5"]), (podEvent .delete, []), (podEvent .update, [readyPod "b" "5"])] =
        some (5, instanceStatusOnline) := by
  decide +kernel

/-! ## What is sent agrees with itself -/

/-- An instance is enabled exactly when it is online, and it runs only when it is online. -/
structure SelfConsistent (ins : Instance) : Prop where
  enabled : ins.enabled = true ↔ ins.status = instanceStatusOnline
  running : ins.state = instanceStateRunning → ins.status = instanceStatusOnline

/-- The pod runs and every container of it is ready. -/
def Pod.ready (pod : Pod) : Bool := decide (pod.phase = .running) && containersReady pod

theorem formatStatus_online_iff :
    formatStatus (some obj) pod = instanceStatusOnline ↔ obj.event ≠ .delete ∧ pod.deleting = false ∧ pod.ready = true := by
  have unready : pod.phase ≠ .running → ¬(obj.event ≠ .delete ∧ pod.deleting = false ∧ pod.ready = true) := by
    intro other live
    simp [Pod.ready, other] at live
  have unhealthy : instanceStatusUnhealthy ≠ instanceStatusOnline := by decide
  have offline : instanceStatusOffline ≠ instanceStatusOnline := by decide
  unfold formatStatus
  simp only [Option.any_some, decide_eq_true_eq]
  by_cases deletion : obj.event = .delete
  · rw [if_pos deletion]
    exact iff_of_false offline fun live => live.1 deletion
  rw [if_neg deletion]
  by_cases deleting : pod.deleting = true
  · rw [if_pos deleting]
    exact iff_of_false offline fun live => absurd live.2.1 (by simp [deleting])
  rw [if_neg deleting]
  cases phase : pod.phase with
  | running =>
    cases ready : containersReady pod with
    | true => simp [Pod.ready, phase, ready, deletion, deleting]
    | false => exact iff_of_false unhealthy fun live => absurd live.2.2 (by simp [Pod.ready, ready])
  | failed =>
    refine iff_of_false ?_ (unready (by simp [phase]))
    by_cases evicted : pod.reason = "Evicted"
    · exact (if_pos evicted).trans_ne unhealthy
    · exact (if_neg evicted).trans_ne offline
  | pending => exact iff_of_false unhealthy (unready (by simp [phase]))
  | succeeded | unknown | other => exact iff_of_false offline (unready (by simp [phase]))

theorem formatContainerEnabled_iff : formatContainerEnabled pod = true ↔ pod.ready = true ∧ pod.deletionTimestamp = none := by
  simp [formatContainerEnabled, Pod.ready]

theorem formatState_running_iff : formatState pod = instanceStateRunning ↔ pod.deleting = false ∧ pod.ready = true := by
  have unready : pod.phase ≠ .running → ¬(pod.deleting = false ∧ pod.ready = true) := by
    intro other live
    simp [Pod.ready, other] at live
  have terminated : instanceStateTerminated ≠ instanceStateRunning := by decide
  have unknown : instanceStateUnknown ≠ instanceStateRunning := by decide
  unfold formatState
  by_cases deleting : pod.deleting = true
  · rw [if_pos deleting]
    exact iff_of_false terminated fun live => absurd live.1 (by simp [deleting])
  rw [if_neg deleting]
  cases phase : pod.phase with
  | running =>
    cases ready : containersReady pod with
    | true => simp [Pod.ready, phase, ready, deleting]
    | false =>
      refine iff_of_false ?_ fun live => absurd live.2 (by simp [Pod.ready, ready])
      simp only [Bool.false_eq_true, ↓reduceIte]
      split_ifs
      · decide
      · decide
      · decide
  | failed =>
    refine iff_of_false ?_ (unready (by simp [phase]))
    simp only
    split_ifs
    · decide
    · decide
  | pending =>
    have pending : instanceStatePending ≠ instanceStateRunning := by decide
    exact iff_of_false pending (unready (by simp [phase]))
  | succeeded => exact iff_of_false terminated (unready (by simp [phase]))
  | unknown | other => exact iff_of_false unknown (unready (by simp [phase]))

/-- What a converted instance takes from its pod about being online. -/
theorem convert_fields (converted : config.convert obj pod = some ins) :
    ins.status = formatStatus (some obj) pod ∧ ins.enabled = formatContainerEnabled pod ∧ ins.state = formatState pod ∧
      ins.ip = pod.podIP := by
  have formatted := (Option.filter_eq_some_iff.mp converted).1
  unfold formatInstanceWithDeps at formatted
  simp only at formatted
  by_cases refused : formatAppCode pod = "" ∨ (config.pushAppCodes.any fun codes => !codes.contains (formatAppCode pod)) = true
  · rw [if_pos refused] at formatted
    cases formatted
  · rw [if_neg refused] at formatted
    cases formatted
    exact ⟨rfl, rfl, rfl, rfl⟩

/-- The stored pod and its event do not contradict each other: the pod is marked as deleted or it is not ready, or its event
is a deletion that finds no address, or its event is no deletion and the pod carries no deletion time, not even a void one. -/
def Coherent (obj : QueueObject) (pod : Pod) : Prop :=
  pod.deleting = true ∨ pod.ready = false ∨ if obj.event = .delete then pod.podIP = "" else pod.deletionTimestamp = none

/-- A deletion whose pod is no longer in the stores finds no cached instance that is enabled or running; a stored pod does not
contradict its event. -/
def Provider.FindsCoherent (k : Provider) (obj : QueueObject) (items : List Pod) : Prop :=
  match storedPod obj items with
  | some pod => Coherent obj pod
  | none => ∀ cached, k.cache.find (deletedKey obj) = some cached → cached.enabled = false ∧ cached.state ≠ instanceStateRunning

theorem selfConsistent_of_offline (offline : ins.status = instanceStatusOffline) :
    SelfConsistent ins ↔ ins.enabled = false ∧ ins.state ≠ instanceStateRunning := by
  have unlike : ins.status ≠ instanceStatusOnline := by
    rw [offline]
    decide
  constructor
  · rintro ⟨enabled, running⟩
    exact ⟨Bool.eq_false_iff.mpr fun on => unlike (enabled.mp on), fun runs => unlike (running runs)⟩
  · rintro ⟨disabled, stopped⟩
    exact ⟨iff_of_false (Bool.eq_false_iff.mp disabled) unlike, fun runs => absurd runs stopped⟩

/-- A converted instance that is no shell agrees with itself exactly when its pod does not contradict its event. -/
theorem convert_selfConsistent_iff (converted : config.convert obj pod = some ins) (shell : offlineShell ins = false) :
    SelfConsistent ins ↔ Coherent obj pod := by
  obtain ⟨status, enabled, state, ip⟩ := convert_fields converted
  have online : ins.status = instanceStatusOnline ↔ obj.event ≠ .delete ∧ pod.deleting = false ∧ pod.ready = true := by
    rw [status, formatStatus_online_iff]
  have fields : SelfConsistent ins ↔ (pod.ready = true ∧ pod.deletionTimestamp = none ↔ ins.status = instanceStatusOnline) ∧
      (pod.deleting = false ∧ pod.ready = true → ins.status = instanceStatusOnline) := by
    rw [← formatContainerEnabled_iff, ← formatState_running_iff, ← enabled, ← state]
    exact ⟨fun consistent => ⟨consistent.1, consistent.2⟩, fun consistent => ⟨consistent.1, consistent.2⟩⟩
  rw [fields, online]
  unfold Coherent
  cases deleting : pod.deleting with
  | true =>
    have dated : pod.deletionTimestamp ≠ none := by
      intro undated
      simp [Pod.deleting, undated] at deleting
    simp [dated]
  | false =>
    cases ready : pod.ready with
    | false => simp
    | true =>
      by_cases deletion : obj.event = .delete
      · -- The instance is offline but was converted from a ready pod.
        have offline : ins.offline = true := by
          simp [Instance.offline, status, formatStatus, deletion]
        have addressed : ins.ip ≠ "" := by
          intro unaddressed
          simp [offlineShell, offline, unaddressed] at shell
        rw [ip] at addressed
        simp [deletion, addressed]
      · simp [deletion]

/-- An instance sent in place of an offline shell was ended, and its pod did not contradict its event. -/
theorem shell_coherent (converted : config.convert obj pod = some ins) (shell : offlineShell ins = true) :
    Coherent obj pod := by
  obtain ⟨status, _, _, ip⟩ := convert_fields converted
  obtain ⟨offline, unaddressed⟩ := Bool.and_eq_true_iff.mp shell
  have notOnline : ¬(obj.event ≠ .delete ∧ pod.deleting = false ∧ pod.ready = true) := by
    rw [← formatStatus_online_iff, ← status, beq_iff_eq.mp offline]
    decide
  unfold Coherent
  by_contra contradicts
  simp only [not_or, Bool.not_eq_true, Bool.not_eq_false] at contradicts
  obtain ⟨current, ready, rest⟩ := contradicts
  by_cases deletion : obj.event = .delete
  · rw [if_pos deletion] at rest
    exact rest (ip ▸ of_decide_eq_true unaddressed)
  · exact notOnline ⟨deletion, current, ready⟩

/-- For every cache, every event and all store contents: the sent instance is enabled exactly when it is online, and running only
when it is online, exactly when the event contradicts neither the stored pod nor, the pod being gone, the cached instance. -/
theorem emitted_selfConsistent_iff (config : Config) (k : Provider) (obj : QueueObject) (items : List Pod) (ins : Instance)
    (emits : (k.pod2Instance config obj items).2 = some ins) : SelfConsistent ins ↔ k.FindsCoherent obj items := by
  have move := pod2Instance_move config k obj items
  rw [emits] at move
  generalize (k.pod2Instance config obj items).1 = next at move
  cases move with
  | published offered _ =>
      obtain ⟨pod, stored, rest⟩ := Option.bind_eq_some_iff.mp offered
      obtain ⟨converted, made, chosen⟩ := Option.bind_eq_some_iff.mp rest
      rw [Provider.FindsCoherent, stored]
      simp only
      split_ifs at chosen with shell
      · obtain ⟨cached, _, rfl⟩ := Option.map_eq_some_iff.mp chosen
        refine iff_of_true ?_ (shell_coherent made shell)
        exact (selfConsistent_of_offline rfl).mpr ⟨rfl, by simp [terminatedCopy, instanceStateTerminated, instanceStateRunning]⟩
      · cases chosen
        exact convert_selfConsistent_iff made (Bool.eq_false_iff.mpr shell)
  | ended gone _ found _ =>
      rw [Provider.FindsCoherent, gone, selfConsistent_of_offline rfl]
      simp [found, deletedCopy]

/-- The instance of a ready pod that appeared. -/
theorem ready_pod_selfConsistent :
    ∃ ins, (Provider.pod2Instance { lib := plainLib } {} (podEvent .add) [readyPod "b" "5"]).2 = some ins ∧ SelfConsistent ins := by
  have emits : (Provider.pod2Instance { lib := plainLib } {} (podEvent .add) [readyPod "b" "5"]).2.isSome = true := by
    decide +kernel
  obtain ⟨ins, sent⟩ := Option.isSome_iff_exists.mp emits
  exact ⟨ins, sent, (emitted_selfConsistent_iff _ _ _ _ ins sent).mpr (.inr (.inr rfl))⟩

/-- The pod was cached as ready, and its deletion finds the stores without it. -/
theorem deletion_sent_enabled :
    let k := Provider.afterEvents { lib := plainLib } {} [(podEvent .add, [readyPod "b" "5"])]
    (k.pod2Instance { lib := plainLib } (podEvent .delete) []).2.map (fun ins => (ins.status, ins.enabled, ins.state)) =
      some (instanceStatusOffline, true, instanceStateRunning) := by
  decide +kernel

end Spotter.Providers.K8s
