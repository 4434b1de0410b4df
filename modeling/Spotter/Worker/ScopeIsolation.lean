import Spotter.Worker.SecondAttempt

/-! # Scope isolation

A full operation of one scope leaves the identities of other scopes alone: the gate tombstones only
what is recorded under the operation's scope. The handler's second attempt carries no scope and
tombstones everything its snapshot omits, so isolation holds exactly when no second attempt can be
made and the first snapshot removes no foreign identity by name.
-/

namespace Spotter.Worker

open Library Domain Ports

/-- A live identity last accepted under another scope. -/
def ForeignLive (s : OrderedSink) (scope key : String) : Prop :=
  (∃ entry, s.latest.lookup key = some entry ∧ entry.tombstone = false) ∧
    ∃ other, s.identityScope.lookup key = some other ∧ other ≠ scope

/-- The attempt turns no foreign entry into a tombstone. -/
def Isolated (scope : String) (attempt : SinkAttempt) : Prop :=
  ∀ key, ForeignLive attempt.before scope key →
    ∀ entry, attempt.outcome.sink.latest.lookup key = some entry → entry.tombstone = false

/-- The request reaches the wrapped sink and removes a foreign identity by name. -/
def ListsForeignOffline (s : OrderedSink) (scope : String) (request : Request) : Prop :=
  s.PassesRequest request ∧ ∃ item, some item ∈ request.items ∧ item.offline = true ∧ ForeignLive s scope (identityKey item)

variable {s : OrderedSink} {env : SinkEnv} {request : Request} {key : String}

/-- A scoped operation that lists no foreign identity as offline leaves all of them alive. -/
theorem isolated_of_scoped (operation : RetryOperation) (hasScope : operation.scope ≠ "") (name : String)
    (unlisted : ∀ request, SinkStep.request (.pushAllOperation operation, env) = some request →
      ¬ListsForeignOffline s operation.scope request) :
    Isolated operation.scope ⟨name, s, (.pushAllOperation operation, env)⟩ := by
  intro key foreign entry found
  obtain ⟨⟨old, before, live⟩, other, recorded, different⟩ := id foreign
  change (s.apply (.pushAllOperation operation, env)).sink.latest.lookup key = some entry at found
  cases s.apply_effect (.pushAllOperation operation, env) with
  | closed isClose => cases isClose
  | kept same =>
    rw [same.latest, before] at found
    cases found
    exact live
  | committed request requested passes _ _ same =>
    have run := scopedRun_of_request hasScope requested
    rw [same.latest, OrderedSink.commitRequest_lookup, before, Option.map_some, Option.or_eq_some_iff] at found
    rcases found with new | ⟨_, kept⟩
    · obtain ⟨item, member, named, rfl⟩ := record_empty_lookup new
      change item.offline = false
      rw [Bool.eq_false_iff]
      intro offline
      subst named
      exact unlisted request requested ⟨passes, item, (mem_survivors.mp member).1, offline, foreign⟩
    · have scopeOf : s.scopeOf key = other := by rw [OrderedSink.scopeOf, recorded, Option.getD_some]
      have protected_ : operationScope request.operation ≠ "" ∧ s.scopeOf key ≠ operationScope request.operation := by
        rw [run.scope, scopeOf]
        exact ⟨hasScope, different⟩
      cases kept
      rw [OrderedSink.keptEntry, if_pos (by rw [run.full, run.trusted]; rfl), if_pos (.inr (.inl protected_))]
      exact live

/-- In a full request without repetitions, an offline item that is let through leaves a tombstone. -/
theorem commitRequest_lookup_offline (distinct : (keysOf request.items).Nodup) {item : Instance}
    (member : item ∈ survivors s.latest request.mode request.trigger request.items) (offline : item.offline = true) :
    ∃ entry, (s.commitRequest request).latest.lookup (identityKey item) = some entry ∧ entry.tombstone = true := by
  rw [OrderedSink.commitRequest_lookup]
  cases found : (record request.trigger ∅ (survivors s.latest request.mode request.trigger request.items)).lookup
      (identityKey item) with
  | none => exact absurd rfl (record_empty_eq_none.mp found item member)
  | some entry =>
    obtain ⟨last, lastMember, named, rfl⟩ := record_empty_lookup found
    have offered := List.reduceOption_mem_iff.mpr (mem_survivors.mp member).1
    have lastOffered := List.reduceOption_mem_iff.mpr (mem_survivors.mp lastMember).1
    cases List.inj_on_of_nodup_map distinct lastOffered offered named
    exact ⟨_, rfl, offline⟩

/-- A snapshot that removes a foreign identity by name breaks isolation once it is acknowledged. -/
theorem not_isolated_of_lists {scope : String} {step : SinkStep} (name : String)
    (requested : step.request = some request) (full : request.mode.full = true)
    (acknowledges : ∀ call, step.2.inner call = none) (lists : ListsForeignOffline s scope request) :
    ¬Isolated scope ⟨name, s, step⟩ := by
  obtain ⟨passes, item, offered, offline, foreign⟩ := lists
  obtain ⟨_, _, same⟩ := OrderedSink.apply_of_acknowledging requested passes acknowledges
  obtain ⟨distinct, _, fresh⟩ := passes.2.1 full
  obtain ⟨entry, found, gone⟩ := commitRequest_lookup_offline distinct
    (mem_survivors.mpr ⟨offered, fresh item offered⟩) offline
  intro isolated
  have live := isolated (identityKey item) foreign entry (same.latest ▸ found)
  rw [gone] at live
  cases live

/-- An empty unscoped snapshot tombstones every live identity. -/
theorem not_isolated_of_empty {scope : String} (name : String) (opened : s.closed = false)
    (foreign : ForeignLive s scope key) (trigger : ℤ) (items : Instances) :
    ¬Isolated scope ⟨name, s, (.pushAllWithRevalidate trigger items true, .acknowledging)⟩ := by
  have requested : SinkStep.request (.pushAllWithRevalidate trigger items true, .acknowledging) = some (emptyRun trigger) := rfl
  obtain ⟨_, _, same⟩ := OrderedSink.apply_of_acknowledging requested (passes_emptyRun opened trigger) (fun _ => rfl)
  obtain ⟨⟨old, before, live⟩, _⟩ := id foreign
  have buried : (s.commitRequest (emptyRun trigger)).latest.lookup key = some ⟨old.revision, true⟩ := by
    rw [OrderedSink.commitRequest_lookup_of_absent, before, Option.map_some]
    · simp [OrderedSink.keptEntry, emptyRun, operationScope, keysOf, live]
    · intro item member
      cases member
  intro isolated
  have alive := isolated key foreign _ (same.latest ▸ buried)
  cases alive

/-- A provider's snapshot of one instance. -/
def snapshotOf (scope : String) (item : Instance) : RetryOperation := { scope := scope, instances := [some item] }

/-- An acknowledged snapshot of one instance records it under its scope. -/
theorem snapshotOf_recorded {scope : String} {item : Instance} (opened : s.closed = false) (hasScope : scope ≠ "")
    (fresh : staleItem s.latest ⟨true, true, false⟩ 0 item = false) :
    let after := s.after [(.pushAllOperation (snapshotOf scope item), .acknowledging)]
    after.latest.lookup (identityKey item) = some (entryOf 0 item) ∧
      after.identityScope.lookup (identityKey item) = some scope ∧ after.closed = false := by
  simp [OrderedSink.after, OrderedSink.apply, OrderedSink.pushAllOperation, OrderedSink.runOperation,
    OrderedSink.runLocked, snapshotOf, unconfirmedEmpty, destructiveAuthorized, operationScope, filterItems, filterItem,
    OrderedSink.commit, SinkEnv.acknowledging, FiniteMap.lookup_union, FiniteMap.lookup_mapValues, opened, hasScope, fresh]

/-- Another provider's full operation can put a live identity of its scope into any open gate. -/
theorem exists_foreignLive (opened : s.closed = false) (scope : String) :
    ∃ step key, ForeignLive (s.after [step]) scope key ∧ (s.after [step]).closed = false := by
  obtain ⟨other, named, different⟩ : ∃ other : String, other ≠ "" ∧ other ≠ scope := by
    rcases eq_or_ne scope "k8s" with rfl | different
    · exact ⟨"consul", by decide, by decide⟩
    · exact ⟨"k8s", by decide, different.symm⟩
  -- A revision above whatever the ledger holds for the identity is never superseded.
  obtain ⟨revision, positive, above⟩ : ∃ revision : ℤ, 0 < revision ∧
      ∀ entry, s.latest.lookup "" = some entry → entry.revision < revision := by
    cases found : s.latest.lookup "" with
    | none => exact ⟨1, by omega, fun _ absent => nomatch absent⟩
    | some entry =>
      refine ⟨max entry.revision 0 + 1, by omega, ?_⟩
      rintro _ ⟨⟩
      omega
  obtain ⟨item, identity, own, online⟩ := exists_identityKey "" revision instanceStatusOnline
  have fresh : staleItem s.latest ⟨true, true, false⟩ 0 item = false := by
    rw [Bool.eq_false_iff]
    intro stale
    obtain ⟨entry, found, verdict⟩ := staleItem_iff.mp stale
    have bound := above entry (identity ▸ found)
    rw [effectiveRevision, own, if_neg (by omega)] at verdict
    omega
  obtain ⟨entry, recorded, stillOpen⟩ := snapshotOf_recorded opened named fresh
  refine ⟨_, identityKey item, ⟨⟨_, entry, ?_⟩, other, recorded, different⟩, stillOpen⟩
  simp [entryOf, Instance.offline, online, instanceStatusOnline, instanceStatusOffline]

/-- Handling an event of a scope keeps every live identity of other scopes alive, in every run with the
given first snapshots, exactly when the first attempt cannot end in stale rejections alone and its
snapshots remove no such identity by name. -/
theorem handleSyncAll_isolated_iff {Ptr : Type} (deref : Ptr → Instance) (w : DefaultWorker Ptr)
    (event : SyncAllEvent Ptr) (answers : String → Revalidation) (hasScope : event.scope ≠ "") :
    (∀ first gap now second, (∀ name, (first name).answer = answers name) →
      ∀ attempt ∈ (w.handleSyncAll deref event first gap now second).attempts, Isolated event.scope attempt) ↔
    ¬SecondAttempt deref w event answers ∧ (event.unconfirmed = true ∨ ∀ named ∈ w.pusher.sinks, ∀ request,
        event.firstRequest deref named.name (answers named.name) = some request →
          ¬ListsForeignOffline named.sink event.scope request) := by
  constructor
  · intro isolated
    constructor
    · intro again
      obtain ⟨named, registered, _⟩ := again.stale
      -- Between the attempts another provider's snapshot arrives, then this one's cache is found empty.
      have opened : (named.sink.apply (event.firstStep deref named.name { answer := answers named.name })).sink.closed =
          false := apply_open (again.opened named registered) (by simp [SyncAllEvent.firstStep])
      obtain ⟨step, key, foreign, stillOpen⟩ := exists_foreignLive opened event.scope
      have made := again.mem_handleSyncAll deref hasScope (fun _ => [step]) 0 (fun _ => .acknowledging) registered
      have kept := isolated _ _ _ _ (fun _ => rfl) _ made
      rw [SyncAllEvent.secondStep, again.revalidates] at kept
      exact not_isolated_of_empty named.name stillOpen foreign _ _ kept
    · rw [or_iff_not_imp_left, Bool.not_eq_true]
      intro kept named registered request requested lists
      have made := first_mem_handleSyncAll deref (fun name => { answer := answers name }) (fun _ => []) 0
        (fun _ => .acknowledging) kept registered
      have run : ScopedRun { event.operation deref with sink := named.name } request := scopedRun_of_request hasScope requested
      exact not_isolated_of_lists named.name requested run.full (fun _ => rfl) lists
        (isolated _ _ _ _ (fun _ => rfl) _ made)
  · rintro ⟨never, unlisted⟩ first gap now second answered attempt made
    obtain ⟨kept, named, registered, rfl | ⟨again, _⟩⟩ := handleSyncAll_attempts_cases deref hasScope answered made
    · rcases unlisted with unconfirmed | unlisted
      · rw [kept] at unconfirmed
        cases unconfirmed
      · refine isolated_of_scoped { event.operation deref with sink := named.name } hasScope named.name ?_
        intro request requested
        refine unlisted named registered request ?_
        rw [← event.firstStep_request deref (answered named.name)]
        exact requested
    · exact absurd again never

/-- A Consul service next to the pod. -/
def service : Instance := { sourceKey := "consul/east/web-1", provider := "consul", reversion := 3, status := 1 }

/-- A current pod snapshot leaves the Consul service alive. -/
theorem handleSyncAll_isolated_current : (podSnapshot [some pod]).scope ≠ "" ∧
    ∀ first gap now second, (∀ name : String, (first name).answer = ⟨[some pod], true⟩) →
      ∀ attempt ∈ ((workerAfter [(.pushAllOperation (snapshotOf "consul" service), .acknowledging)]).handleSyncAll id
        (podSnapshot [some pod]) first gap now second).attempts, Isolated "k8s" attempt := by
  have hasScope : (podSnapshot [some pod]).scope ≠ "" := by decide
  refine ⟨hasScope, (handleSyncAll_isolated_iff id _ (podSnapshot [some pod]) (fun _ => ⟨[some pod], true⟩) hasScope).mpr ?_⟩
  refine ⟨?_, .inr ?_⟩
  · intro again
    obtain ⟨named, registered, request, requested, item, offered, stale⟩ := again.stale
    cases List.mem_singleton.mp registered
    cases requested
    cases List.mem_singleton.mp offered
    exact absurd stale (by decide)
  · rintro named registered request requested ⟨_, item, offered, offline, _⟩
    cases requested
    cases List.mem_singleton.mp offered
    exact absurd offline (by decide)

/-- A pod snapshot that is rejected as stale and rebuilt buries the Consul service on its second attempt. -/
theorem secondAttempt_buries_foreign :
    let gate := workerAfter [(.pushAllOperation (snapshotOf "consul" service), .acknowledging),
      (.push 90 [some { pod with reversion := 8 }], .acknowledging)]
    let handled := gate.handleSyncAll id (podSnapshot [some pod]) (fun _ => { answer := ⟨[some pod], true⟩ })
      (fun _ => []) 110 (fun _ => { answer := ⟨[some { pod with reversion := 8 }], true⟩ })
    ∃ attempt ∈ handled.attempts, ¬Isolated "k8s" attempt := by
  intro gate handled
  have again : SecondAttempt id gate (podSnapshot [some pod]) (fun _ => ⟨[some pod], true⟩) :=
    secondAttempt_podSnapshot (by decide) (by decide)
  have made := again.mem_handleSyncAll id (by decide) (fun _ => []) 110
    (fun _ => { answer := ⟨[some { pod with reversion := 8 }], true⟩ }) (List.mem_singleton.mpr rfl)
  refine ⟨_, made, ?_⟩
  intro isolated
  have alive := isolated "consul/east/web-1"
    ⟨⟨⟨3, false⟩, by decide, rfl⟩, "consul", by decide, by decide⟩ ⟨3, true⟩ (by decide)
  cases alive

end Spotter.Worker
