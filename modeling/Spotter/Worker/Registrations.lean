import Spotter.Worker.DeliveryOrder
import Spotter.Worker.FailedSinks
import Spotter.Worker.SourceRevisions

/-! # What a sink has registered

The registrations of a wrapped sink are read off the writes forwarded to it: an identity is registered
when the last forwarded write of it left it online or unhealthy. A write that the ledger welcomes, being
newer than what it holds of the identity or as new and not removed, is forwarded and recorded.
-/

namespace Spotter.Worker

open Library Domain Ports

/-- Among values of different keys, only one has the key of a given value. -/
theorem filter_key_eq_singleton {V K : Type} [DecidableEq K] (key : V → K) {values : List V} {value : V}
    (distinct : (values.map key).Nodup) (member : value ∈ values) :
    values.filter (fun other => key other == key value) = [value] := by
  induction values with
  | nil => cases member
  | cons head rest ih =>
    obtain ⟨unrepeated, restDistinct⟩ := List.nodup_cons.mp distinct
    rcases List.mem_cons.mp member with rfl | later
    · have others : rest.filter (fun other => key other == key value) = [] := by
        rw [List.filter_eq_nil_iff]
        intro other among same
        exact unrepeated (List.mem_map.mpr ⟨other, among, beq_iff_eq.mp same⟩)
      simp [others]
    · rw [List.filter_cons_of_neg, ih restDistinct later]
      intro same
      exact unrepeated (List.mem_map.mpr ⟨value, later, (beq_iff_eq.mp same).symm⟩)

/-- The last write of an identity. -/
def lastWrite (log : List Instance) (key : String) : Option Instance :=
  log.reverse.find? fun item => decide (identityKey item = key)

/-- The instance can take traffic or is kept as unhealthy. -/
def listedStatus (item : Instance) : Bool :=
  decide (item.status = instanceStatusOnline ∨ item.status = instanceStatusUnhealthy)

/-- The last write of the identity registered it. -/
def registeredBy (log : List Instance) (key : String) : Bool := (lastWrite log key).any listedStatus

theorem lastWrite_append (log later : List Instance) (key : String) :
    lastWrite (log ++ later) key = (lastWrite later key).or (lastWrite log key) := by
  simp only [lastWrite, List.reverse_append, List.find?_append]

theorem lastWrite_cons (item : Instance) (later : List Instance) (key : String) :
    lastWrite (item :: later) key = (lastWrite later key).or (if identityKey item = key then some item else none) := by
  rw [← List.singleton_append, lastWrite_append]
  congr 1
  simp [lastWrite, List.find?_singleton]

variable {log : List Instance}

theorem lastWrite_eq_none {key : String} :
    lastWrite log key = none ↔ ∀ item ∈ log, identityKey item ≠ key := by
  simp [lastWrite, List.find?_eq_none]

theorem lastWrite_mem {key : String} {item : Instance} (last : lastWrite log key = some item) :
    item ∈ log ∧ identityKey item = key := by
  refine ⟨List.mem_reverse.mp (List.mem_of_find?_eq_some last), ?_⟩
  simpa using List.find?_some last

/-- Among writes of different identities, each is the last of its own. -/
theorem lastWrite_of_mem {item : Instance} (distinct : (log.map identityKey).Nodup)
    (member : item ∈ log) : lastWrite log (identityKey item) = some item := by
  cases last : lastWrite log (identityKey item) with
  | none => exact absurd rfl (lastWrite_eq_none.mp last item member)
  | some other =>
    obtain ⟨among, same⟩ := lastWrite_mem last
    rw [List.inj_on_of_nodup_map distinct among member same]

/-! ## Welcome writes -/

namespace OrderedSink

variable {s : OrderedSink} {item : Instance} {items : List Instance} {trigger : ℤ}

/-- The item has a revision of its own, which is above the one the ledger holds of its identity, or equal to it
if the identity is not removed. -/
structure Welcomes (s : OrderedSink) (item : Instance) : Prop where
  revised : item.reversion ≠ 0
  newer : ∀ entry, s.latest.lookup (identityKey item) = some entry →
    entry.revision < item.reversion ∨ (entry.tombstone = false ∧ entry.revision ≤ item.reversion)

theorem Welcomes.entryOf (welcome : s.Welcomes item) : entryOf trigger item = ⟨item.reversion, item.offline⟩ := by
  simp only [Worker.entryOf, effectiveRevision, if_neg welcome.revised]

theorem Welcomes.not_stale (welcome : s.Welcomes item) (mode : PushMode) :
    staleItem s.latest mode trigger item = false := by
  rw [← Bool.not_eq_true, staleItem_iff]
  rintro ⟨entry, found, older⟩
  rw [effectiveRevision, if_neg welcome.revised] at older
  rcases welcome.newer entry found with above | ⟨live, atLeast⟩
  · rcases older with below | ⟨_, equal, _⟩
    · omega
    · omega
  · rcases older with below | ⟨removed, _⟩
    · omega
    · rw [live] at removed
      cases removed

/-- A welcome item is forwarded and recorded. -/
theorem push_welcome (trigger : ℤ) (opened : s.closed = false) (welcome : s.Welcomes item) :
    let outcome := s.apply (.push trigger [some item], .acknowledging)
    outcome.accepted = [item] ∧ outcome.sink.closed = false ∧ ∀ key, outcome.sink.latest.lookup key =
      if key = identityKey item then some ⟨item.reversion, item.offline⟩ else s.latest.lookup key := by
  have pushed : s.apply (.push trigger [some item], .acknowledging) = _ := push_single opened (trigger, item)
  rw [welcome.not_stale] at pushed
  simp only [Bool.false_eq_true, ↓reduceIte] at pushed
  rw [pushed]
  refine ⟨rfl, opened, ?_⟩
  intro key
  simp only [record, List.foldl_cons, List.foldl_nil, FiniteMap.lookup_union, FiniteMap.lookup_insert_ite, welcome.entryOf]
  split_ifs
  · rfl
  · rw [Finmap.lookup_empty, Option.none_or]

/-- Single pushes that the wrapped sink acknowledges. -/
def pushSteps (trigger : Instance → ℤ) (items : List Instance) : List SinkStep :=
  items.map fun item => (.push (trigger item) [some item], .acknowledging)

/-- Pushes of different identities are all forwarded and recorded if each is welcome at the start. -/
theorem pushes_welcome (trigger : Instance → ℤ) (opened : s.closed = false) (distinct : (items.map identityKey).Nodup)
    (welcome : ∀ item ∈ items, s.Welcomes item) :
    s.acceptedAlong (pushSteps trigger items) = items ∧ (s.after (pushSteps trigger items)).closed = false ∧
      ∀ key, (s.after (pushSteps trigger items)).latest.lookup key =
        ((lastWrite items key).map fun item => ⟨item.reversion, item.offline⟩).or (s.latest.lookup key) := by
  induction items generalizing s with
  | nil => exact ⟨rfl, opened, fun key => rfl⟩
  | cons item rest ih =>
    obtain ⟨unrepeated, restDistinct⟩ := List.nodup_cons.mp distinct
    obtain ⟨accepted, stillOpen, recorded⟩ := push_welcome (trigger item) opened (welcome item List.mem_cons_self)
    have others : ∀ other ∈ rest, (s.apply (.push (trigger item) [some item], .acknowledging)).sink.Welcomes other := by
      intro other member
      have apart : identityKey other ≠ identityKey item := by
        intro same
        exact unrepeated (List.mem_map.mpr ⟨other, member, same⟩)
      have before := welcome other (List.mem_cons_of_mem _ member)
      refine ⟨before.revised, fun entry found => before.newer entry ?_⟩
      rwa [recorded, if_neg apart] at found
    obtain ⟨restAccepted, restOpen, restRecorded⟩ := ih stillOpen restDistinct others
    refine ⟨?_, restOpen, ?_⟩
    · simp only [pushSteps, List.map_cons, acceptedAlong, accepted] at restAccepted ⊢
      rw [restAccepted, List.singleton_append]
    · intro key
      refine (restRecorded key).trans ?_
      rw [recorded, lastWrite_cons, Option.map_or, Option.or_assoc]
      congr 1
      split_ifs with same own own
      · rfl
      · exact absurd same.symm own
      · exact absurd own.symm same
      · rfl

theorem reduceOption_map_some (items : List Instance) : (items.map some).reduceOption = items := by
  simp [List.reduceOption, List.filterMap_map]

/-- The run of a revalidated full operation whose snapshot was rebuilt to the given items. -/
def completeRequest (operation : RetryOperation) (items : List Instance) : Request :=
  ⟨operation.trigger, items.map some, ⟨true, true, true⟩, some { operation with instances := items.map some }⟩

/-- A revalidated full operation of welcome items of different identities is forwarded and recorded as a whole. -/
theorem fullOperation_welcome {operation : RetryOperation} {env : SinkEnv} (opened : s.closed = false)
    (hasScope : operation.scope ≠ "") (revalidates : operation.revalidate = true)
    (answered : env.answer = ⟨items.map some, true⟩) (acknowledges : ∀ call, env.inner call = none) (listed : items ≠ [])
    (distinct : (items.map identityKey).Nodup) (welcome : ∀ item ∈ items, s.Welcomes item) :
    let outcome := s.apply (.pushAllOperation operation, env)
    outcome.err = none ∧ outcome.accepted = items ∧ outcome.sink.closed = false ∧
      ∀ item ∈ items, outcome.sink.latest.lookup (identityKey item) = some ⟨item.reversion, item.offline⟩ := by
  have unnil : items.map some ≠ [] := by simpa using listed
  have requested : SinkStep.request (.pushAllOperation operation, env) = some (completeRequest operation items) := by
    simp [SinkStep.request, resolve, revalidates, answered, unconfirmedEmpty, destructiveAuthorized, unnil, hasScope,
      completeRequest]
  have survive : survivors s.latest ⟨true, true, true⟩ operation.trigger (items.map some) = items := by
    rw [survivors, reduceOption_map_some, List.filter_eq_self]
    intro item member
    rw [(welcome item member).not_stale, Bool.not_false]
  have passes : s.PassesRequest (completeRequest operation items) := by
    refine ⟨opened, fun _ => ⟨?_, fun untrusted => ?_, ?_⟩, ?_⟩
    · rw [completeRequest, keysOf, reduceOption_map_some]
      exact distinct
    · cases untrusted
    · intro item member
      obtain ⟨_, among, same⟩ := List.mem_map.mp member
      cases same
      exact (welcome item among).not_stale _
    · intro nothing
      exact absurd (survive.symm.trans nothing) listed
  obtain ⟨succeeded, reached, same⟩ := apply_of_acknowledging requested passes acknowledges
  have forwarded : (s.requestCall (completeRequest operation items)).items = items := by
    rw [requestCall_items]
    exact survive
  refine ⟨succeeded, ?_, same.closed.trans opened, ?_⟩
  · simp only [Outcome.accepted, succeeded, reached, forwarded]
  · intro item member
    rw [same.latest, commitRequest_lookup]
    have survived : survivors s.latest (completeRequest operation items).mode (completeRequest operation items).trigger
        (completeRequest operation items).items = items := survive
    rw [survived, lookup_record, filter_key_eq_singleton identityKey distinct member, Finmap.lookup_empty]
    simp [(welcome item member).entryOf]

end OrderedSink

/-! ## The fan-out -/

/-- The writes that the attempts on a sink got accepted. -/
def forwarded (attempts : List SinkAttempt) (name : String) : List Instance :=
  (attempts.filter fun attempt => attempt.name == name).flatMap fun attempt => attempt.outcome.accepted

theorem forwarded_append (earlier later : List SinkAttempt) (name : String) :
    forwarded (earlier ++ later) name = forwarded earlier name ++ forwarded later name := by
  rw [forwarded, List.filter_append, List.flatMap_append]
  rfl

theorem forwarded_broadcast {f : FanoutSink} {step : String → SinkStep} {named : NamedSink} (registered : named ∈ f.sinks) :
    forwarded (f.broadcast step).attempts named.name = (named.answer step).accepted := by
  have only : (f.broadcast step).attempts.filter (fun attempt => attempt.name == named.name) =
      [⟨named.name, named.sink, step named.name⟩] := by
    simp only [FanoutSink.broadcast, List.filter_map, Function.comp_def]
    rw [filter_key_eq_singleton NamedSink.name f.wellNamed.distinct registered]
    rfl
  rw [forwarded, only, List.flatMap_singleton]
  rfl

section Handling

variable {Ptr : Type} (deref : Ptr → Instance) {w : DefaultWorker Ptr}

/-- The sinks after a broadcast. -/
theorem mem_broadcast_sinks {f : FanoutSink} {step : String → SinkStep} {after : NamedSink} :
    after ∈ (f.broadcast step).fanout.sinks ↔
      ∃ named ∈ f.sinks, after = ⟨named.name, (named.answer step).sink⟩ := by
  simp only [FanoutSink.broadcast, FanoutSink.mapSinks, List.mem_map, eq_comm]
  rfl

/-- An incremental event reaches every sink, whatever becomes of the retry queue. -/
theorem handleSync_pusher (trigger : ℤ) (data : List (Option Ptr)) (env : String → SinkEnv) :
    (w.handleSync deref trigger data env).worker.pusher = (w.pusher.push trigger (derefAll deref data) env).fanout ∧
      (w.handleSync deref trigger data env).attempts = (w.pusher.push trigger (derefAll deref data) env).attempts := by
  unfold DefaultWorker.handleSync
  simp only
  split <;> exact ⟨rfl, rfl⟩

/-- A full event that every sink accepts is not attempted again. -/
theorem handleSyncAll_of_accepted {event : SyncAllEvent Ptr} {first second : String → SinkEnv}
    {gap : String → List SinkStep} {now : ℤ} (kept : event.unconfirmed = false)
    (accepted : ∀ named ∈ w.pusher.sinks, (event.firstOutcome deref first named).err = none) :
    let step := fun name => event.firstStep deref name (first name)
    w.handleSyncAll deref event first gap now second =
      { worker := { w with pusher := (w.pusher.broadcast step).fanout }, attempts := (w.pusher.broadcast step).attempts } := by
  intro step
  have succeeded : (w.pusher.broadcast step).err = none := by
    rcases broadcast_err_cases w.pusher step with ⟨succeeded, _⟩ | ⟨failures, _, aggregate⟩
    · exact succeeded
    · obtain ⟨⟨name, err⟩, member⟩ := List.exists_mem_of_ne_nil failures aggregate.nonempty
      obtain ⟨named, registered, _, failed⟩ := (aggregate.listed name err).mp member
      exact absurd ((accepted named registered).symm.trans failed) (by simp)
  have unstale : staleOnly (w.pusher.broadcast step).err = false := by
    rw [succeeded]
    rfl
  rw [DefaultWorker.handleSyncAll, if_neg (by rw [kept]; exact Bool.false_ne_true), pushAllOperation_broadcast]
  simp only
  rw [if_neg (by rw [unstale]; simp), DefaultWorker.finishSyncAll, if_neg (by rw [unstale]; simp), succeeded]

/-- A revalidated full event of items that are welcome at every sink is accepted as a whole by every sink. -/
theorem handleSyncAll_welcome {event : SyncAllEvent Ptr} {first second : String → SinkEnv}
    {gap : String → List SinkStep} {now : ℤ} {items : List Instance} (hasScope : event.scope ≠ "")
    (kept : event.unconfirmed = false) (revalidates : event.revalidate = true)
    (answered : ∀ name, (first name).answer = ⟨items.map some, true⟩)
    (acknowledges : ∀ name call, (first name).inner call = none) (listed : items ≠ [])
    (distinct : (items.map identityKey).Nodup) (opened : ∀ named ∈ w.pusher.sinks, named.sink.closed = false)
    (welcome : ∀ named ∈ w.pusher.sinks, ∀ item ∈ items, named.sink.Welcomes item) {named : NamedSink}
    (registered : named ∈ (w.handleSyncAll deref event first gap now second).worker.pusher.sinks) :
    ∃ before ∈ w.pusher.sinks, named.name = before.name ∧ named.sink.closed = false ∧
      (∀ item ∈ items, named.sink.latest.lookup (identityKey item) = some ⟨item.reversion, item.offline⟩) ∧
      forwarded (w.handleSyncAll deref event first gap now second).attempts named.name = items := by
  have outcome : ∀ before ∈ w.pusher.sinks, let answer := event.firstOutcome deref first before
      answer.err = none ∧ answer.accepted = items ∧ answer.sink.closed = false ∧
        ∀ item ∈ items, answer.sink.latest.lookup (identityKey item) = some ⟨item.reversion, item.offline⟩ := by
    intro before started
    exact OrderedSink.fullOperation_welcome (opened before started) hasScope revalidates (answered _) (acknowledges _) listed
      distinct (welcome before started)
  rw [handleSyncAll_of_accepted deref kept (fun before started => (outcome before started).1)] at registered ⊢
  simp only at registered ⊢
  obtain ⟨before, started, rfl⟩ := mem_broadcast_sinks.mp registered
  obtain ⟨_, accepted, stillOpen, recorded⟩ := outcome before started
  exact ⟨before, started, rfl, stillOpen, recorded, (forwarded_broadcast started).trans accepted⟩

end Handling

end Spotter.Worker
