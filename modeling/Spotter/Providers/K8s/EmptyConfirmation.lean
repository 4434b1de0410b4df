import Spotter.Library.History
import Spotter.Providers.K8s.FullPush

/-! # How old a confirmation is when it is used

Three ticks in a row that find the cache empty confirm the emptiness, and the confirmation travels with
the event of the third: through its handling, the retry queue and the sinks' gates. It is as good as new
as long as nobody has found the cache non-empty since its tick.
-/

namespace Spotter.Providers.K8s

open Library Domain Ports Robot Worker

variable {fullBatchID : FullBatchID} {w next : FullPush} {trigger : ℤ} {confirmed : Bool}

/-- An operation of the provider with the given trigger and confirmation is under way. -/
inductive Carries (w : FullPush) (trigger : ℤ) (confirmed : Bool) : Prop
  | handled (event : SyncAllEvent Instance) (member : event ∈ w.handling) (built : event.trigger = trigger)
      (flag : event.emptyConfirmed = confirmed)
  | queued (key : FullKey) (pending : PendingFull Instance) (found : w.service.store.fulls.lookup key = some pending)
      (scope : key.scope = k8sScope) (built : pending.trigger = trigger) (flag : pending.emptyConfirmed = confirmed)
  | copied (key : FullKey) (pending : PendingFull Instance) (found : w.service.batch.fulls.lookup key = some pending)
      (scope : key.scope = k8sScope) (built : pending.trigger = trigger) (flag : pending.emptyConfirmed = confirmed)
  | inside (sink : String) (request : RetryOperation) (revalidated : Bool)
      (held : (w.gates sink).occupant = some (.operation request revalidated)) (built : request.trigger = trigger)
      (flag : request.emptyConfirmed = confirmed)

/-- A confirmation that nobody contradicted since its tick stands for three empty ticks. -/
def Good (w : FullPush) (trigger : ℤ) (confirmed : Bool) : Prop :=
  trigger < w.clock ∧ (confirmed = true → w.lastNonEmpty < trigger → 3 ≤ w.emptyTicks)

/-- The instant passes, and the count goes on unless the cache is found non-empty. -/
structure Ages (w next : FullPush) : Prop where
  clock : next.clock = w.clock + 1
  count : (next.lastNonEmpty = w.lastNonEmpty ∧ w.emptyTicks ≤ next.emptyTicks) ∨ next.lastNonEmpty = w.clock

theorem Good.age (good : Good w trigger confirmed) (ages : Ages w next) : Good next trigger confirmed := by
  obtain ⟨built, fresh⟩ := good
  refine ⟨by have := ages.clock; omega, fun isConfirmed later => ?_⟩
  rcases ages.count with ⟨same, more⟩ | observed
  · have enough := fresh isConfirmed (same ▸ later)
    omega
  · omega

/-! ## What a step does to the counts -/

/-- The count goes on unless the cache is found non-empty, and the provider's counter stays behind it. -/
structure Counted (w next : FullPush) : Prop where
  count : (next.lastNonEmpty = w.lastNonEmpty ∧ w.emptyTicks ≤ next.emptyTicks) ∨ next.lastNonEmpty = w.clock
  counter : w.provider.emptyConfirmations.toNat ≤ w.emptyTicks → next.provider.emptyConfirmations.toNat ≤ next.emptyTicks

theorem Counted.refl (w : FullPush) : Counted w w := ⟨.inl ⟨rfl, le_rfl⟩, id⟩

theorem counted_seen (tick : Bool) (k : Provider) (counted : k.emptyConfirmations = w.provider.countEmpty tick) :
    Counted w { w.seen tick with provider := k } := by
  constructor
  · unfold FullPush.seen
    split_ifs
    · exact .inl ⟨rfl, Nat.le_succ _⟩
    · exact .inl ⟨rfl, le_rfl⟩
    · exact .inr rfl
  · intro behind
    simp only [counted, Provider.countEmpty, FullPush.seen]
    split_ifs
    · -- The counter is a machine word: past its largest value it falls back to zero.
      have wrapped : (w.provider.emptyConfirmations + 1).toNat ≤ w.provider.emptyConfirmations.toNat + 1 := by
        rw [UInt32.toNat_add]
        exact Nat.mod_le _ _
      exact wrapped.trans (Nat.succ_le_succ behind)
    · exact behind
    · exact le_rfl

theorem counted_readOnly (w : FullPush) : Counted w w.readOnly := counted_seen false _ rfl

theorem counted_enter (sink : String) (request : RetryOperation) : Counted w (w.enter sink request) := by
  unfold FullPush.enter
  split_ifs
  · exact ⟨(counted_readOnly w).count, (counted_readOnly w).counter⟩
  · exact ⟨.inl ⟨rfl, le_rfl⟩, id⟩
  · exact .refl w

theorem counted_act (step : FullPushStep) : Counted w (w.act fullBatchID step) := by
  cases step with
  | change cache => exact ⟨.inl ⟨rfl, le_rfl⟩, id⟩
  | compare => exact counted_readOnly w
  | tick =>
    have counted := counted_seen (w := w) true (w.provider.emitSyncAll fullBatchID w.clock).2 rfl
    exact ⟨counted.count, counted.counter⟩
  | enterEvent index sink =>
    simp only [FullPush.act]
    split
    · exact counted_enter sink _
    · exact .refl w
  | enterSecond index sink =>
    simp only [FullPush.act, FullPush.enterSecond]
    split
    · split_ifs
      · exact ⟨(counted_readOnly w).count, (counted_readOnly w).counter⟩
      · exact ⟨.inl ⟨rfl, le_rfl⟩, id⟩
      · exact .refl w
    · exact .refl w
  | enterRetry sink =>
    simp only [FullPush.act]
    split
    · exact counted_enter sink _
    · exact .refl w
  | leave sink env =>
    simp only [FullPush.act, FullPush.leave]
    split
    · exact ⟨.inl ⟨rfl, le_rfl⟩, id⟩
    · exact .refl w
  | finish index failed =>
    simp only [FullPush.act, FullPush.finish]
    split <;> exact ⟨.inl ⟨rfl, le_rfl⟩, id⟩
  | queue action | other sink step =>
    simp only [FullPush.act]
    split_ifs
    · exact .refl w
    · exact ⟨.inl ⟨rfl, le_rfl⟩, id⟩

theorem ages_step (step : FullPushStep) : Ages w (w.step fullBatchID step) := ⟨rfl, (counted_act step).count⟩

/-! ## Where operations under way come from -/

/-- What is under way after a change was under way before, if no gate got a new holder. -/
theorem Carries.before {next : FullPush} (carries : Carries next trigger confirmed) (handling : next.handling = w.handling)
    (service : next.service = w.service)
    (kept : ∀ sink occupant, (next.gates sink).occupant = some occupant → (w.gates sink).occupant = some occupant) :
    Carries w trigger confirmed := by
  cases carries with
  | handled event member built flag => exact .handled event (handling ▸ member) built flag
  | queued key pending found scope built flag => exact .queued key pending (service ▸ found) scope built flag
  | copied key pending found scope built flag => exact .copied key pending (service ▸ found) scope built flag
  | inside sink request revalidated held built flag => exact .inside sink request revalidated (kept sink _ held) built flag

theorem carries_seen {tick : Bool} {k : Provider} (carries : Carries { w.seen tick with provider := k } trigger confirmed) :
    Carries w trigger confirmed := by
  have kept : (w.seen tick).handling = w.handling ∧ (w.seen tick).service = w.service ∧ (w.seen tick).gates = w.gates := by
    unfold FullPush.seen
    split_ifs <;> exact ⟨rfl, rfl, rfl⟩
  obtain ⟨handling, service, gates⟩ := kept
  exact carries.before handling service fun sink occupant held => gates ▸ held

/-- What is under way after a call took a gate was under way before, or is the call. -/
theorem carries_occupy {sink : String} {occupant : Occupant} (carries : Carries (w.occupy sink occupant) trigger confirmed) :
    Carries w trigger confirmed ∨ ∃ request revalidated, occupant = .operation request revalidated ∧
      request.trigger = trigger ∧ request.emptyConfirmed = confirmed := by
  cases carries with
  | handled event member built flag => exact .inl (.handled event member built flag)
  | queued key pending found scope built flag => exact .inl (.queued key pending found scope built flag)
  | copied key pending found scope built flag => exact .inl (.copied key pending found scope built flag)
  | inside other request revalidated held built flag =>
    simp only [FullPush.occupy, Function.update_apply] at held
    split_ifs at held
    · cases held
      exact .inr ⟨request, revalidated, rfl, built, flag⟩
    · exact .inl (.inside other request revalidated held built flag)

theorem carries_enter {sink : String} {request : RetryOperation}
    (carries : Carries (w.enter sink request) trigger confirmed) :
    Carries w trigger confirmed ∨ (request.trigger = trigger ∧ request.emptyConfirmed = confirmed) := by
  unfold FullPush.enter at carries
  split_ifs at carries
  · rcases carries_occupy carries with before | ⟨_, _, same, built, flag⟩
    · exact .inl (carries_seen before)
    · cases same
      exact .inr ⟨built, flag⟩
  · rcases carries_occupy carries with before | ⟨_, _, same, built, flag⟩
    · exact .inl before
    · cases same
      exact .inr ⟨built, flag⟩
  · exact .inl carries

/-- A gate that is left has no holder. -/
theorem vacated {sink other : String} {left : OrderedSink} {occupant : Occupant}
    (held : (Function.update w.gates sink { sink := left } other).occupant = some occupant) :
    (w.gates other).occupant = some occupant := by
  rw [Function.update_apply] at held
  split_ifs at held
  exact held

theorem carries_tick (carries : Carries (w.tick fullBatchID) trigger confirmed) :
    Carries w trigger confirmed ∨ (trigger = w.clock ∧ confirmed = decide (3 ≤ w.provider.countEmpty true)) := by
  have kept : (w.seen true).service = w.service ∧ (w.seen true).gates = w.gates := by
    unfold FullPush.seen
    split_ifs <;> exact ⟨rfl, rfl⟩
  cases carries with
  | handled event member built flag =>
    simp only [FullPush.tick] at member
    split_ifs at member
    · exact .inl (.handled event member built flag)
    · rcases List.mem_append.mp member with earlier | last
      · exact .inl (.handled event earlier built flag)
      · obtain rfl := List.mem_singleton.mp last
        exact .inr ⟨built.symm, flag.symm⟩
  | queued key pending found scope built flag => exact .inl (.queued key pending (kept.1 ▸ found) scope built flag)
  | copied key pending found scope built flag => exact .inl (.copied key pending (kept.1 ▸ found) scope built flag)
  | inside sink request revalidated held built flag =>
    exact .inl (.inside sink request revalidated (kept.2 ▸ held) built flag)

theorem carries_finish {index : ℕ} {failed : Option (List String)}
    (carries : Carries (w.finish index failed) trigger confirmed) : Carries w trigger confirmed := by
  unfold FullPush.finish at carries
  split at carries
  · next _ _ event sinks listed =>
    have handled := List.mem_of_getElem? listed
    cases carries with
    | handled event member built flag => exact .handled event (List.mem_of_mem_eraseIdx member) built flag
    | queued key pending found scope built flag =>
      rcases UnsyncedService.addFullWithMeta_lookup found with before | ⟨_, rfl⟩
      · exact .queued key pending before scope built flag
      · exact .handled event handled built flag
    | copied key pending found scope built flag =>
      rw [(UnsyncedService.addFullWithMeta_pushes ..).2.1] at found
      exact .copied key pending found scope built flag
    | inside sink request revalidated held built flag => exact .inside sink request revalidated held built flag
  · cases carries with
    | handled event member built flag => exact .handled event (List.mem_of_mem_eraseIdx member) built flag
    | queued key pending found scope built flag => exact .queued key pending found scope built flag
    | copied key pending found scope built flag => exact .copied key pending found scope built flag
    | inside sink request revalidated held built flag => exact .inside sink request revalidated held built flag

theorem carries_queue {action : QueueAction Instance} (foreign : queuesProvider action = false)
    (carries : Carries { w with service := w.service.step id fullBatchID action } trigger confirmed) :
    Carries w trigger confirmed := by
  cases carries with
  | handled event member built flag => exact .handled event member built flag
  | queued key pending found scope built flag =>
    rcases UnsyncedService.step_fulls_lookup found with before | ⟨added, sinks, rfl, same⟩
    · exact .queued key pending before scope built flag
    · rw [queuesProvider, ← same, scope] at foreign
      exact absurd foreign (by decide)
  | copied key pending found scope built flag =>
    rcases UnsyncedService.step_batch_fulls_lookup found with before | stored
    · exact .copied key pending before scope built flag
    · exact .queued key pending stored scope built flag
  | inside sink request revalidated held built flag => exact .inside sink request revalidated held built flag

/-- What is under way after a step was under way before, or is the event of a tick. -/
theorem carries_act {step : FullPushStep} (carries : Carries (w.act fullBatchID step) trigger confirmed) :
    Carries w trigger confirmed ∨ (step = .tick ∧ trigger = w.clock ∧
      confirmed = decide (3 ≤ w.provider.countEmpty true)) := by
  cases step with
  | change cache => exact .inl (carries.before rfl rfl fun _ _ held => held)
  | compare => exact .inl (carries_seen carries)
  | tick => exact (carries_tick carries).imp_right fun emitted => ⟨rfl, emitted⟩
  | enterEvent index sink =>
    simp only [FullPush.act] at carries
    split at carries
    · next event listed =>
      rcases carries_enter carries with before | ⟨built, flag⟩
      · exact .inl before
      · exact .inl (.handled event (List.mem_of_getElem? listed) built flag)
    · exact .inl carries
  | enterSecond index sink =>
    simp only [FullPush.act, FullPush.enterSecond] at carries
    split at carries
    · split_ifs at carries
      · rcases carries_occupy carries with before | ⟨_, _, other, _⟩
        · exact .inl (carries_seen before)
        · cases other
      · rcases carries_occupy carries with before | ⟨_, _, other, _⟩
        · exact .inl before
        · cases other
      · exact .inl carries
    · exact .inl carries
  | enterRetry sink =>
    simp only [FullPush.act] at carries
    split at carries
    · next pending found =>
      rcases carries_enter carries with before | ⟨built, flag⟩
      · exact .inl before
      · exact .inl (.copied _ pending found rfl built flag)
    · exact .inl carries
  | leave sink env =>
    simp only [FullPush.act, FullPush.leave] at carries
    split at carries
    · exact .inl (carries.before rfl rfl fun _ _ => vacated)
    · exact .inl carries
  | finish index failed => exact .inl (carries_finish carries)
  | queue action =>
    simp only [FullPush.act] at carries
    split_ifs at carries with own
    · exact .inl carries
    · exact .inl (carries_queue (Bool.not_eq_true _ ▸ own) carries)
  | other sink step =>
    simp only [FullPush.act] at carries
    split_ifs at carries
    · exact .inl carries
    · exact .inl (carries.before rfl rfl fun _ _ => vacated)

/-! ## Runs -/

/-- The counter stays behind the empty ticks, and every confirmation under way is good. -/
structure Confirmed (w : FullPush) : Prop where
  counter : w.provider.emptyConfirmations.toNat ≤ w.emptyTicks
  good : ∀ trigger confirmed, Carries w trigger confirmed → Good w trigger confirmed

theorem confirmed_start (names : List String) (sinks : String → OrderedSink) :
    Confirmed (FullPush.after fullBatchID names sinks []) := by
  refine ⟨le_rfl, ?_⟩
  rintro trigger confirmed (⟨_, member⟩ | ⟨key, _, found⟩ | ⟨key, _, found⟩ | ⟨_, _, _, held⟩)
  · cases member
  · simp [FullPush.after] at found
  · simp [FullPush.after] at found
  · cases held

theorem Confirmed.step (holds : Confirmed w) (step : FullPushStep) : Confirmed (w.step fullBatchID step) := by
  have counter : (w.act fullBatchID step).provider.emptyConfirmations.toNat ≤ (w.act fullBatchID step).emptyTicks :=
    (counted_act step).counter holds.counter
  refine ⟨counter, ?_⟩
  intro trigger confirmed carries
  have acted : Carries (w.act fullBatchID step) trigger confirmed := carries.before rfl rfl fun _ _ held => held
  rcases carries_act acted with before | ⟨rfl, rfl, rfl⟩
  · exact (holds.good trigger confirmed before).age (ages_step step)
  · refine ⟨Int.lt_succ w.clock, fun isConfirmed _ => ?_⟩
    have three : 3 ≤ (w.provider.countEmpty true).toNat := UInt32.le_iff_toNat_le.mp (of_decide_eq_true isConfirmed)
    exact three.trans counter

theorem run_confirmed (names : List String) (sinks : String → OrderedSink) (history : List FullPushStep) :
    Confirmed (FullPush.after fullBatchID names sinks history) := by
  refine List.foldlRecOn history _ (@confirmed_start fullBatchID names sinks) ?_
  intro w confirmed step _
  exact confirmed.step step

/-- A destructive empty operation that reaches a wrapped sink is under way with a confirmation. -/
theorem carries_of_delivered {step : FullPushStep} {request : RetryOperation} (delivers : w.delivered step = some request) :
    Carries w request.trigger true := by
  unfold FullPush.delivered at delivers
  split at delivers
  · next sink env =>
    split at delivers
    · next held revalidated occupied =>
      split_ifs at delivers with destructive
      cases delivers
      refine .inside sink request revalidated occupied rfl ?_
      by_contra unconfirmed
      -- The gate lets no unconfirmed empty operation of a scope through.
      have stopped : unconfirmedEmpty request = true := by
        simp [unconfirmedEmpty, destructive.1, destructive.2.1, Bool.not_eq_true _ ▸ unconfirmed, k8sScope]
      have reached := destructive.2.2
      rw [OrderedSink.runOperation, if_pos stopped] at reached
      cases reached
    · cases delivers
  · cases delivers

/-- One sink that knows the typed operation. -/
def typedSinks : String → OrderedSink := fun _ => { typed := true }

/-- The third tick in a row finds the cache empty and its event takes the sink's gate. -/
def confirmedTick : List FullPushStep := [.tick, .tick, .tick, .enterEvent 0 "nacos"]

/-- The sink refuses every call. -/
def refusing : SinkEnv where
  inner := fun _ => some (.errorf "sink is down" [])
  foreign := by
    rintro _ _ ⟨⟩
    rfl

/-- An online pod. -/
def onlinePod : Instance := { sourceKey := "c1/a", instanceId := "a", status := instanceStatusOnline, reversion := 1 }

/-- The confirmed operation fails and is queued. A pod appears, a tick pushes it, the pod goes, and a retry
cycle takes the queued operation up. -/
def replayedConfirmation : List FullPushStep :=
  confirmedTick ++ [.leave "nacos" refusing, .finish 0 (some ["nacos"]),
      .change (SortedStore.replaceOrInsert {} onlinePod), .tick, .enterEvent 0 "nacos", .leave "nacos" .acknowledging,
      .finish 0 none, .change {}, .queue .beginCycle, .enterRetry "nacos"]

end Spotter.Providers.K8s
