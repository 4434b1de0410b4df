import Spotter.Worker.SecondAttempt

/-! # The failed sinks of a full-snapshot event

After a `SyncAll` event every sink whose last attempt failed, otherwise than by the stale rejection,
should have a queued full retry of the event's scope, and no other sink should get one. The handler looks
at the aggregate of all sinks three times. The look after the second attempt asks only whether some sink
was rejected as stale, so a sink that failed otherwise beside a stale one is forgotten there.
-/

namespace Spotter.Worker

open Library Domain Ports

/-! ## What an addition queues -/

section Additions

variable {Ptr : Type} {pending : PendingFull Ptr} {fulls : FiniteMap FullKey (PendingFull Ptr)} {key : FullKey} {sink : String}

theorem addFullOne_other (other : sink ≠ key.sink) :
    (addFullOne pending fulls sink).lookup key = fulls.lookup key := by
  have apart : key ≠ ⟨sink, pending.scope⟩ := fun same => other (congrArg FullKey.sink same).symm
  unfold addFullOne
  split
  · split_ifs
    · rfl
    · rw [FiniteMap.lookup_insert_ite, if_neg apart]
  · rw [FiniteMap.lookup_insert_ite, if_neg apart]

theorem addFullOne_keeps (queued : (fulls.lookup key).isSome = true) :
    ((addFullOne pending fulls sink).lookup key).isSome = true := by
  unfold addFullOne
  split
  · split_ifs
    · exact queued
    · rw [FiniteMap.lookup_insert_ite]
      split_ifs
      · rfl
      · exact queued
  · rw [FiniteMap.lookup_insert_ite]
    split_ifs
    · rfl
    · exact queued

theorem addFullOne_queues : ((addFullOne pending fulls sink).lookup ⟨sink, pending.scope⟩).isSome = true := by
  unfold addFullOne
  split
  · next old found =>
    split_ifs
    · rw [found]
      rfl
    · rw [FiniteMap.lookup_insert_ite, if_pos rfl]
      rfl
  · rw [FiniteMap.lookup_insert_ite, if_pos rfl]
    rfl

variable {sinks : List String}

theorem foldl_addFullOne_other (other : key.sink ∉ sinks) :
    (sinks.foldl (addFullOne pending) fulls).lookup key = fulls.lookup key := by
  induction sinks generalizing fulls with
  | nil => rfl
  | cons sink rest ih =>
    rw [List.foldl_cons, ih (fun later => other (List.mem_cons_of_mem _ later))]
    exact addFullOne_other fun same => other (same ▸ List.mem_cons_self)

theorem foldl_addFullOne_keeps (sinks : List String) (queued : (fulls.lookup key).isSome = true) :
    ((sinks.foldl (addFullOne pending) fulls).lookup key).isSome = true := by
  induction sinks generalizing fulls with
  | nil => exact queued
  | cons sink rest ih => exact ih (addFullOne_keeps queued)

theorem foldl_addFullOne_queues (named : sink ∈ sinks) :
    ((sinks.foldl (addFullOne pending) fulls).lookup ⟨sink, pending.scope⟩).isSome = true := by
  induction sinks generalizing fulls with
  | nil => cases named
  | cons head rest ih =>
    rw [List.foldl_cons]
    rcases List.mem_cons.mp named with rfl | later
    · exact foldl_addFullOne_keeps rest addFullOne_queues
    · exact ih later

/-- An addition for named sinks queues its scope for them and leaves the other sinks alone. -/
theorem addFullWithMeta_spec (service : UnsyncedService Ptr) (pending : PendingFull Ptr)
    (hasScope : pending.scope ≠ "") (hasBatch : pending.batchID ≠ "") (named : sinks ≠ []) (sink : String) :
    (sink ∈ sinks → ((service.addFullWithMeta pending sinks).store.fulls.lookup ⟨sink, pending.scope⟩).isSome = true) ∧
      (sink ∉ sinks → (service.addFullWithMeta pending sinks).store.fulls.lookup ⟨sink, pending.scope⟩ =
        service.store.fulls.lookup ⟨sink, pending.scope⟩) := by
  have targets : service.targets sinks = sinks := by simp [UnsyncedService.targets, named]
  have described : ¬(pending.scope = "" ∨ pending.batchID = "") := fun none => none.elim hasScope hasBatch
  simp only [UnsyncedService.addFullWithMeta, described, ↓reduceIte, targets]
  exact ⟨fun member => foldl_addFullOne_queues member, fun other => foldl_addFullOne_other other⟩

end Additions

/-! ## Reading the aggregate of a broadcast -/

/-- The call was rejected as stale. -/
def Outcome.Stale (outcome : Outcome) : Prop := ∃ err, outcome.err = some err ∧ err.isStale = true

/-- The call failed, and not as stale. -/
def Outcome.Failed (outcome : Outcome) : Prop := ∃ err, outcome.err = some err ∧ err.isStale = false

theorem Outcome.not_failed_iff {outcome : Outcome} :
    ¬outcome.Failed ↔ ∀ err, outcome.err = some err → err.isStale = true := by
  simp only [Outcome.Failed, not_exists, not_and, Bool.not_eq_false]

variable {named : NamedSink}

section Broadcast

variable {f : FanoutSink} {step : String → SinkStep} {failures : List (String × GoError)}

/-- How a sink answers its share of a broadcast. -/
def NamedSink.answer (named : NamedSink) (step : String → SinkStep) : Outcome := named.sink.apply (step named.name)

/-- The aggregate error of a broadcast: the failed sinks, at least one. -/
structure FanoutSink.Aggregate (f : FanoutSink) (step : String → SinkStep) (failures : List (String × GoError)) :
    Prop where
  nonempty : failures ≠ []
  listed : ∀ name err, (name, err) ∈ failures ↔ ∃ named ∈ f.sinks, named.name = name ∧ (named.answer step).err = some err

theorem broadcast_err_cases (f : FanoutSink) (step : String → SinkStep) :
    ((f.broadcast step).err = none ∧ ∀ named ∈ f.sinks, (named.answer step).err = none) ∨
      ∃ failures, (f.broadcast step).err = some (.fanout failures) ∧ f.Aggregate step failures := by
  have listed : ∀ name err, (name, err) ∈ (f.broadcast step).attempts.filterMap
          (fun attempt => attempt.outcome.err.map fun err => (attempt.name, err)) ↔
        ∃ named ∈ f.sinks, named.name = name ∧ (named.answer step).err = some err := by
    intro name err
    simp only [FanoutSink.broadcast, List.mem_filterMap, List.mem_map, Option.map_eq_some_iff, Prod.mk.injEq]
    constructor
    · rintro ⟨_, ⟨named, registered, rfl⟩, _, failed, rfl, rfl⟩
      exact ⟨named, registered, rfl, failed⟩
    · rintro ⟨named, registered, rfl, failed⟩
      exact ⟨_, ⟨named, registered, rfl⟩, err, failed, rfl, rfl⟩
  have collected : (f.broadcast step).err = collectFailures (f.broadcast step).attempts := rfl
  rw [collected, collectFailures]
  generalize (f.broadcast step).attempts.filterMap _ = failures at listed ⊢
  cases failures with
  | nil =>
    refine .inl ⟨rfl, ?_⟩
    intro named registered
    cases answered : (named.answer step).err with
    | none => rfl
    | some err => exact absurd ((listed named.name err).mpr ⟨named, registered, rfl, answered⟩) List.not_mem_nil
  | cons head rest => exact .inr ⟨_, rfl, List.cons_ne_nil _ _, listed⟩

/-- The aggregate is stale when some sink's rejection is. -/
theorem FanoutSink.Aggregate.isStale (aggregate : f.Aggregate step failures) :
    (GoError.fanout failures).isStale = true ↔ ∃ named ∈ f.sinks, (named.answer step).Stale := by
  rw [GoError.isStale_fanout, List.any_eq_true]
  constructor
  · rintro ⟨⟨name, err⟩, member, stale⟩
    obtain ⟨named, registered, _, failed⟩ := (aggregate.listed name err).mp member
    exact ⟨named, registered, err, failed, stale⟩
  · rintro ⟨named, registered, err, failed, stale⟩
    exact ⟨(named.name, err), (aggregate.listed _ _).mpr ⟨named, registered, rfl, failed⟩, stale⟩

/-- The sinks that a failed broadcast queues retries for. -/
theorem FanoutSink.Aggregate.mem_failedSinkNames (aggregate : f.Aggregate step failures) {known : List String}
    {name : String} (hasSinks : known ≠ []) :
    name ∈ failedSinkNames (.fanout failures) known ↔
      ∃ named ∈ f.sinks, named.name = name ∧ (named.answer step).Failed := by
  simp only [failedSinkNames, List.isEmpty_iff, hasSinks, ↓reduceIte, GoError.asFanout, aggregate.nonempty,
    List.mem_map, List.mem_filter, Bool.not_eq_true', Prod.exists, exists_and_right, exists_eq_right]
  constructor
  · rintro ⟨err, member, other⟩
    obtain ⟨named, registered, same, failed⟩ := (aggregate.listed name err).mp member
    exact ⟨named, registered, same, err, failed, other⟩
  · rintro ⟨named, registered, same, err, failed, other⟩
    exact ⟨err, (aggregate.listed name err).mpr ⟨named, registered, same, failed⟩, other⟩

/-- A failure that is not stale alone leaves some sink to queue a retry for. -/
theorem FanoutSink.Aggregate.failedSinkNames_ne_nil (aggregate : f.Aggregate step failures) {known : List String}
    (hasSinks : known ≠ []) (otherwise : ¬staleOnly (some (.fanout failures)) = true) :
    failedSinkNames (.fanout failures) known ≠ [] := by
  intro none_queued
  apply otherwise
  have onlyStale : ∀ failure ∈ failures, failure.2.isStale = true := by
    rintro ⟨name, err⟩ member
    by_contra notStale
    obtain ⟨named, registered, same, failed⟩ := (aggregate.listed name err).mp member
    have queued := (aggregate.mem_failedSinkNames hasSinks).mpr
      ⟨named, registered, same, err, failed, Bool.not_eq_true _ ▸ notStale⟩
    rw [none_queued] at queued
    cases queued
  obtain ⟨failure, member⟩ := List.exists_mem_of_ne_nil failures aggregate.nonempty
  simp only [staleOnly, Option.any_some, Bool.and_eq_true, GoError.isStale_fanout, List.any_eq_true,
    hasNonStaleFanoutFailure, GoError.asFanout, Bool.not_eq_true', List.any_eq_false, Bool.not_eq_false]
  exact ⟨⟨failure, member, onlyStale failure member⟩, onlyStale⟩

end Broadcast

/-! ## The last attempt on a sink -/

/-- The last of the attempts made on the sink of the given name. -/
def lastAttempt (attempts : List SinkAttempt) (name : String) : Option SinkAttempt :=
  attempts.reverse.find? fun attempt => attempt.name == name

section LastAttempt

variable {sinks : List NamedSink} {earlier later : NamedSink → SinkAttempt} {name : String}

theorem lastAttempt_map (distinct : (sinks.map NamedSink.name).Nodup) (own : ∀ named, (later named).name = named.name)
    {attempt : SinkAttempt} :
    lastAttempt (sinks.map later) name = some attempt ↔
      ∃ named ∈ sinks, named.name = name ∧ later named = attempt := by
  have found : ∀ named ∈ sinks, lastAttempt (sinks.map later) named.name = some (later named) := by
    intro named registered
    cases searched : lastAttempt (sinks.map later) named.name with
    | none =>
      rw [lastAttempt, List.find?_eq_none] at searched
      have unfound := searched (later named) (List.mem_reverse.mpr (List.mem_map_of_mem registered))
      simp [own] at unfound
    | some attempt =>
      have member := List.mem_of_find?_eq_some searched
      have sameName : attempt.name = named.name := by simpa using List.find?_some searched
      rw [List.mem_reverse, List.mem_map] at member
      obtain ⟨other, otherRegistered, rfl⟩ := member
      rw [own] at sameName
      rw [List.inj_on_of_nodup_map distinct otherRegistered registered sameName]
  constructor
  · intro searched
    have member := List.mem_of_find?_eq_some searched
    have sameName : attempt.name = name := by simpa using List.find?_some searched
    rw [List.mem_reverse, List.mem_map] at member
    obtain ⟨named, registered, rfl⟩ := member
    exact ⟨named, registered, (own named).symm.trans sameName, rfl⟩
  · rintro ⟨named, registered, rfl, rfl⟩
    exact found named registered

/-- A second round over the same sinks hides the first one. -/
theorem lastAttempt_twice (ownEarlier : ∀ named, (earlier named).name = named.name)
    (own : ∀ named, (later named).name = named.name) :
    lastAttempt (sinks.map earlier ++ sinks.map later) name = lastAttempt (sinks.map later) name := by
  have unfolded : lastAttempt (sinks.map earlier ++ sinks.map later) name =
      (lastAttempt (sinks.map later) name).or (lastAttempt (sinks.map earlier) name) := by
    rw [lastAttempt, List.reverse_append, List.find?_append]
    rfl
  rw [unfolded]
  cases searched : lastAttempt (sinks.map later) name with
  | some attempt => rfl
  | none =>
    rw [Option.none_or]
    simp only [lastAttempt, List.find?_eq_none, List.mem_reverse, List.forall_mem_map, own, ownEarlier] at searched ⊢
    exact searched

end LastAttempt

/-! ## What the handler queues -/

/-- Every failed sink is remembered and no other sink is: a sink whose last attempt failed, otherwise
than as stale, has a full retry of the scope, and the entries of the other attempted sinks are as before. -/
structure Remembers {Ptr : Type} (before : UnsyncedService Ptr) (scope : String) (handling : Handling Ptr) : Prop where
  queued : ∀ name attempt, lastAttempt handling.attempts name = some attempt → attempt.outcome.Failed →
    (handling.worker.unsyncedService.store.fulls.lookup ⟨name, scope⟩).isSome = true
  untouched : ∀ name attempt, lastAttempt handling.attempts name = some attempt → ¬attempt.outcome.Failed →
      handling.worker.unsyncedService.store.fulls.lookup ⟨name, scope⟩ = before.store.fulls.lookup ⟨name, scope⟩

variable {Ptr : Type} (deref : Ptr → Instance)

/-- How a sink answers the first attempt. -/
def SyncAllEvent.firstOutcome (event : SyncAllEvent Ptr) (first : String → SinkEnv) (named : NamedSink) : Outcome :=
  named.sink.apply (event.firstStep deref named.name (first named.name))

/-- How a sink answers the second attempt. -/
def SyncAllEvent.secondOutcome (event : SyncAllEvent Ptr) (first : String → SinkEnv) (gap : String → List SinkStep)
    (now : ℤ) (second : String → SinkEnv) (named : NamedSink) : Outcome :=
  (secondSink deref event first gap named).apply (event.secondStep deref now (second named.name))

/-- How a failed sink is forgotten: the first attempt ends in nothing but stale rejections, the second in a
stale rejection beside another failure, and the failed sink has no full retry of the scope from before. -/
structure Forgets (w : DefaultWorker Ptr) (event : SyncAllEvent Ptr) (first : String → SinkEnv)
    (gap : String → List SinkStep) (now : ℤ) (second : String → SinkEnv) : Prop where
  kept : event.unconfirmed = false
  revalidates : event.revalidate = true
  rejected : ∃ named ∈ w.pusher.sinks, (event.firstOutcome deref first named).Stale
  onlyRejected : ∀ named ∈ w.pusher.sinks, ¬(event.firstOutcome deref first named).Failed
  rejectedAgain : ∃ named ∈ w.pusher.sinks, (event.secondOutcome deref first gap now second named).Stale
  lost : ∃ named ∈ w.pusher.sinks, (event.secondOutcome deref first gap now second named).Failed ∧
    w.unsyncedService.store.fulls.lookup ⟨named.name, event.scope⟩ = none

section Handler

variable {w : DefaultWorker Ptr} {event : SyncAllEvent Ptr} {first second : String → SinkEnv}
  {gap : String → List SinkStep} {now : ℤ}

/-- The queue entry of a sink is right after its last answer. -/
def UnsyncedService.Right (before after : UnsyncedService Ptr) (key : FullKey) (answer : Outcome) : Prop :=
  (answer.Failed → (after.store.fulls.lookup key).isSome = true) ∧
    (¬answer.Failed → after.store.fulls.lookup key = before.store.fulls.lookup key)

/-- The end of the handler remembers the failed sinks of the broadcast it is given. -/
theorem finishSyncAll_right {f : FanoutSink} {step : String → SinkStep} {attempts : List SinkAttempt}
    (hasScope : event.scope ≠ "") (hasBatch : event.batchID ≠ "") (hasSinks : w.unsyncedService.sinkNames ≠ [])
    (registered : named ∈ f.sinks) :
    w.unsyncedService.Right (w.finishSyncAll event (f.broadcast step) attempts).worker.unsyncedService
      ⟨named.name, event.scope⟩ (named.answer step) := by
  unfold DefaultWorker.finishSyncAll
  by_cases rejected : staleOnly (f.broadcast step).err = true
  · rw [if_pos rejected]
    refine ⟨?_, fun _ => rfl⟩
    rintro ⟨err, failed, otherwise⟩
    rw [(broadcast_staleOnly_iff.mp rejected).2 named registered err failed] at otherwise
    cases otherwise
  · rw [if_neg rejected]
    rcases broadcast_err_cases f step with ⟨succeeded, unfailed⟩ | ⟨failures, failed, aggregate⟩
    · rw [succeeded]
      refine ⟨?_, fun _ => rfl⟩
      rintro ⟨err, failed, _⟩
      rw [unfailed named registered] at failed
      cases failed
    · rw [failed] at rejected ⊢
      obtain ⟨queued, kept⟩ := addFullWithMeta_spec w.unsyncedService event.pending hasScope hasBatch
        (aggregate.failedSinkNames_ne_nil hasSinks rejected) named.name
      refine ⟨fun failed => queued ((aggregate.mem_failedSinkNames hasSinks).mpr ⟨named, registered, rfl, failed⟩), ?_⟩
      intro unfailed
      apply kept
      intro member
      obtain ⟨other, otherRegistered, same, otherFailed⟩ := (aggregate.mem_failedSinkNames hasSinks).mp member
      rw [List.inj_on_of_nodup_map f.wellNamed.distinct otherRegistered registered same] at otherFailed
      exact unfailed otherFailed

/-- Over one last attempt per sink, the failed sinks are remembered when each sink's queue entry is right. -/
theorem remembers_iff {before : UnsyncedService Ptr} {scope : String} {handling : Handling Ptr} {sinks : List NamedSink}
    (later : NamedSink → SinkAttempt) (distinct : (sinks.map NamedSink.name).Nodup)
    (own : ∀ named, (later named).name = named.name)
    (lasts : ∀ name, lastAttempt handling.attempts name = lastAttempt (sinks.map later) name) :
    Remembers before scope handling ↔ ∀ named ∈ sinks,
      before.Right handling.worker.unsyncedService ⟨named.name, scope⟩ (later named).outcome := by
  constructor
  · intro remembers named registered
    have last : lastAttempt handling.attempts named.name = some (later named) := by
      rw [lasts]
      exact (lastAttempt_map distinct own).mpr ⟨named, registered, rfl, rfl⟩
    exact ⟨remembers.queued named.name _ last, remembers.untouched named.name _ last⟩
  · intro each
    have right : ∀ name attempt, lastAttempt handling.attempts name = some attempt →
        before.Right handling.worker.unsyncedService ⟨name, scope⟩ attempt.outcome := by
      intro name attempt last
      rw [lasts, lastAttempt_map distinct own] at last
      obtain ⟨named, registered, rfl, rfl⟩ := last
      exact each named registered
    exact ⟨fun name attempt last => (right name attempt last).1, fun name attempt last => (right name attempt last).2⟩

/-- The sinks as the second attempt finds them. -/
theorem second_sinks : ((w.pusher.pushAllOperation (event.operation deref) first).fanout.interfere gap).sinks =
      w.pusher.sinks.map fun named => ⟨named.name, secondSink deref event first gap named⟩ := by
  rw [pushAllOperation_broadcast]
  simp only [FanoutSink.broadcast, FanoutSink.interfere, FanoutSink.mapSinks, List.map_map, Function.comp_def]
  rfl

/-- The broadcast of the second attempt. -/
theorem secondAttempt_eq : w.secondAttempt deref event (w.pusher.pushAllOperation (event.operation deref) first) gap now second =
      let again := (w.pusher.pushAllOperation (event.operation deref) first).fanout.interfere gap
      let pushed := again.broadcast fun name => event.secondStep deref now (second name)
      let attempts := (w.pusher.pushAllOperation (event.operation deref) first).attempts ++ pushed.attempts
      if pushed.err.all GoError.isStale then
        { worker := { w with pusher := pushed.fanout }, attempts := attempts }
      else w.finishSyncAll event pushed attempts := rfl

/-- A stale rejection in the second attempt ends the handling with the queue as it was. -/
theorem secondAttempt_queue_of_stale
    (stale : ∃ named ∈ w.pusher.sinks, (event.secondOutcome deref first gap now second named).Stale) :
    (w.secondAttempt deref event (w.pusher.pushAllOperation (event.operation deref) first) gap now
      second).worker.unsyncedService = w.unsyncedService := by
  rw [secondAttempt_eq]
  simp only
  rw [if_pos]
  obtain ⟨named, registered, rejected⟩ := stale
  rcases broadcast_err_cases ((w.pusher.pushAllOperation (event.operation deref) first).fanout.interfere gap)
    (fun name => event.secondStep deref now (second name)) with ⟨succeeded, _⟩ | ⟨failures, failed, aggregate⟩
  · rw [succeeded]
    rfl
  · rw [failed, Option.all_some, aggregate.isStale, second_sinks]
    exact ⟨_, List.mem_map_of_mem registered, rejected⟩

/-- Without a stale rejection, the second attempt leaves every sink's queue entry right. -/
theorem secondAttempt_right (hasScope : event.scope ≠ "") (hasBatch : event.batchID ≠ "")
    (hasSinks : w.unsyncedService.sinkNames ≠ [])
    (fresh : ¬∃ named ∈ w.pusher.sinks, (event.secondOutcome deref first gap now second named).Stale)
    (registered : named ∈ w.pusher.sinks) :
    w.unsyncedService.Right
      (w.secondAttempt deref event (w.pusher.pushAllOperation (event.operation deref) first) gap now
        second).worker.unsyncedService
      ⟨named.name, event.scope⟩ (event.secondOutcome deref first gap now second named) := by
  have member : ⟨named.name, secondSink deref event first gap named⟩ ∈
      ((w.pusher.pushAllOperation (event.operation deref) first).fanout.interfere gap).sinks := by
    rw [second_sinks]
    exact List.mem_map_of_mem registered
  rw [secondAttempt_eq]
  simp only
  split_ifs with unqueued
  · refine ⟨?_, fun _ => rfl⟩
    rcases broadcast_err_cases ((w.pusher.pushAllOperation (event.operation deref) first).fanout.interfere gap)
      (fun name => event.secondStep deref now (second name)) with ⟨_, unfailed⟩ | ⟨failures, failed, aggregate⟩
    · rintro ⟨err, failed, _⟩
      exact absurd ((unfailed _ member).symm.trans failed) (by simp)
    · rw [failed, Option.all_some, aggregate.isStale, second_sinks] at unqueued
      obtain ⟨_, other, stale⟩ := unqueued
      obtain ⟨named, registered, rfl⟩ := List.mem_map.mp other
      exact absurd ⟨named, registered, stale⟩ fresh
  · exact finishSyncAll_right hasScope hasBatch hasSinks member

/-- The second attempt remembers the failed sinks unless one of them fails beside a stale rejection. -/
theorem secondAttempt_remembers_iff (hasScope : event.scope ≠ "") (hasBatch : event.batchID ≠ "")
    (hasSinks : w.unsyncedService.sinkNames ≠ []) :
    Remembers w.unsyncedService event.scope
        (w.secondAttempt deref event (w.pusher.pushAllOperation (event.operation deref) first) gap now second) ↔
      ¬((∃ named ∈ w.pusher.sinks, (event.secondOutcome deref first gap now second named).Stale) ∧
        ∃ named ∈ w.pusher.sinks, (event.secondOutcome deref first gap now second named).Failed ∧
          w.unsyncedService.store.fulls.lookup ⟨named.name, event.scope⟩ = none) := by
  rw [remembers_iff (fun named =>
      ⟨named.name, secondSink deref event first gap named, event.secondStep deref now (second named.name)⟩)
    w.pusher.wellNamed.distinct (fun _ => rfl)
    (fun name => by rw [secondAttempt_attempts, lastAttempt_twice (fun _ => rfl) (fun _ => rfl)])]
  by_cases stale : ∃ named ∈ w.pusher.sinks, (event.secondOutcome deref first gap now second named).Stale
  · rw [secondAttempt_queue_of_stale deref stale]
    constructor
    · rintro right ⟨_, named, registered, failed, missing⟩
      have queued := (right named registered).1 failed
      rw [missing] at queued
      cases queued
    · intro unlost named registered
      refine ⟨?_, fun _ => rfl⟩
      intro failed
      rw [Option.isSome_iff_ne_none]
      intro missing
      exact unlost ⟨stale, named, registered, failed, missing⟩
  · refine iff_of_true ?_ (fun forgotten => stale forgotten.1)
    intro named registered
    exact secondAttempt_right deref hasScope hasBatch hasSinks stale registered

/-- Over a fan-out whose sinks the queue knows, the handler remembers every failed sink of a scoped event and
no other, except where a second attempt is stale at one sink and fails otherwise at another. -/
theorem failed_sinks_remembered_iff (w : DefaultWorker Ptr) (event : SyncAllEvent Ptr) (first : String → SinkEnv)
    (gap : String → List SinkStep) (now : ℤ) (second : String → SinkEnv) (hasScope : event.scope ≠ "")
    (hasBatch : event.batchID ≠ "") (wired : w.unsyncedService.sinkNames = w.pusher.names) :
    Remembers w.unsyncedService event.scope (w.handleSyncAll deref event first gap now second) ↔
      ¬Forgets deref w event first gap now second := by
  have hasSinks : w.unsyncedService.sinkNames ≠ [] := wired ▸ w.pusher.wellNamed.registered
  unfold DefaultWorker.handleSyncAll
  split_ifs with unconfirmed
  · refine iff_of_true ⟨?_, ?_⟩ (fun forgets => absurd unconfirmed (by rw [forgets.kept]; exact Bool.false_ne_true))
    · intro name attempt last
      cases last
    · intro name attempt last
      cases last
  · simp only
    split_ifs with again
    · have onlyStale := again.1
      rw [pushAllOperation_broadcast, broadcast_staleOnly_iff] at onlyStale
      obtain ⟨rejected, onlyRejected⟩ := onlyStale
      rw [secondAttempt_remembers_iff deref hasScope hasBatch hasSinks, not_iff_not]
      constructor
      · rintro ⟨stale, lost⟩
        exact ⟨Bool.not_eq_true _ ▸ unconfirmed, again.2, rejected,
          fun named registered => Outcome.not_failed_iff.mpr (onlyRejected named registered), stale, lost⟩
      · rintro forgets
        exact ⟨forgets.rejectedAgain, forgets.lost⟩
    · rw [pushAllOperation_broadcast] at again ⊢
      refine iff_of_true ?_ fun forgets => ?_
      · rw [remembers_iff (fun named => ⟨named.name, named.sink, event.firstStep deref named.name (first named.name)⟩)
          w.pusher.wellNamed.distinct (fun _ => rfl) (fun name => by rw [finishSyncAll_attempts]; rfl)]
        exact fun named registered => finishSyncAll_right hasScope hasBatch hasSinks registered
      · apply again
        rw [broadcast_staleOnly_iff]
        refine ⟨?_, forgets.revalidates⟩
        exact ⟨forgets.rejected, fun named registered => Outcome.not_failed_iff.mp (forgets.onlyRejected named registered)⟩

end Handler

/-! ## Two sinks -/

/-- A worker over two sinks, the first of which has seen the pod at revision eight. -/
def twoSinks : DefaultWorker Instance where
  pusher :=
    { sinks :=
        [⟨"atlas", ({ typed := true } : OrderedSink).after [(.push 90 [some { pod with reversion := 8 }], .acknowledging)]⟩,
          ⟨"nacos", { typed := true }⟩]
      wellNamed := ⟨by simp, by simp, by simp, by simp [totalSinkName]⟩ }
  unsyncedService := { sinkNames := ["atlas", "nacos"] }

/-- A wrapped sink that cannot be reached, behind a provider that answers with the pod at revision eight. -/
def unreachable : SinkEnv where
  answer := ⟨[some { pod with reversion := 8 }], true⟩
  inner := fun _ => some (.errorf "dial tcp: i/o timeout" [])
  foreign := by
    rintro call err ⟨⟩
    rfl

/-- The provider's answer at each sink's first attempt, and at the second, where one sink is unreachable. -/
def firstAnswers : String → SinkEnv := fun _ => { answer := ⟨[some pod], true⟩ }

def secondAnswers (name : String) : SinkEnv :=
  if name = "nacos" then unreachable else { answer := ⟨[some { pod with reversion := 8 }], true⟩ }

/-- The unreachable sink is remembered when the other one accepts the second attempt. -/
theorem unreachable_sink_remembered : Remembers twoSinks.unsyncedService (podSnapshot [some pod]).scope
      (twoSinks.handleSyncAll id (podSnapshot [some pod]) firstAnswers (fun _ => []) 110 secondAnswers) := by
  refine (failed_sinks_remembered_iff id twoSinks (podSnapshot [some pod]) firstAnswers (fun _ => []) 110 secondAnswers
    (by decide) (by decide) rfl).mpr ?_
  intro forgets
  obtain ⟨named, registered, err, rejected, stale⟩ := forgets.rejectedAgain
  rcases List.mem_pair.mp registered with rfl | rfl
  · cases rejected
  · cases rejected
    cases stale

/-- Between the attempts the first sink sees the pod at revision nine. -/
def newerPod (name : String) : List SinkStep :=
  if name = "atlas" then [(.push 105 [some { pod with reversion := 9 }], .acknowledging)] else []

/-- The second attempt is stale at one sink, which has meanwhile seen a newer pod, and times out at the other.
The other has no retry when the handler returns. -/
theorem unreachable_sink_forgotten : ¬Remembers twoSinks.unsyncedService (podSnapshot [some pod]).scope
      (twoSinks.handleSyncAll id (podSnapshot [some pod]) firstAnswers newerPod 110 secondAnswers) := by
  intro remembers
  have queued := remembers.queued "nacos" _ rfl ⟨_, rfl, rfl⟩
  exact absurd queued (by decide +kernel)

end Spotter.Worker
