import Spotter.Providers.K8s.Backstop
import Spotter.Providers.K8s.ReconcileTimes
import Spotter.Providers.Overflow

/-! # Events while the worker pool is saturated

What the consumer of watch events and the compares produce goes through one pool of workers; what a saturated pool refuses is
offered to the overflow queue under the instance's identity. The queue keeps the task that was offered last. A compare decides
on a snapshot, so its correction can be offered after a newer watch event of the same identity.
-/

namespace Spotter.Providers.Overflow

open Library

variable {T : Type}

/-! ## The offers between two submissions -/

/-- The offers of an identity with whether they were accepted, newest first. -/
structure Account (T : Type) where
  /-- The offers that no successful submission covers. -/
  pending : List (T × Bool) := []
  /-- Those of them that were made before the last take. -/
  taken : List (T × Bool) := []

/-- The account that the log gives of an identity. A submission covers the offers before its take. -/
def account (key : String) : List (Record T) → Account T
  | [] => {}
  | .offered other task accepted :: log =>
    let before := account key log
    if other = key then { before with pending := (task, accepted) :: before.pending } else before
  | .taken other :: log =>
    let before := account key log
    if other = key then { before with taken := before.pending } else before
  | .submitted other _ :: log =>
    let before := account key log
    if other = key then { pending := before.pending.take (before.pending.length - before.taken.length) } else before

/-- The offers that a submission under way covers. -/
def window (key : String) (log : List (Record T)) : List (T × Bool) := (account key log).taken

def newestAccepted (offers : List (T × Bool)) : Option T := (offers.find? Prod.snd).map Prod.fst

def acceptedCount (offers : List (T × Bool)) : ℕ := offers.countP Prod.snd

theorem newestAccepted_append (newer older : List (T × Bool)) :
    newestAccepted (newer ++ older) = (newestAccepted newer).or (newestAccepted older) := by
  rw [newestAccepted, List.find?_append, newestAccepted, newestAccepted]
  cases newer.find? Prod.snd with
  | none => rfl
  | some offer => rfl

theorem newestAccepted_of_count {offers : List (T × Bool)} (some : acceptedCount offers ≠ 0) : newestAccepted offers ≠ none := by
  intro nothing
  rw [newestAccepted, Option.map_eq_none_iff, List.find?_eq_none] at nothing
  exact some (List.countP_eq_zero.mpr nothing)

namespace State

variable {s : State T} {key : String}

/-- The account of a retained identity, where the dispatcher is. -/
def Balanced (s : State T) (key : String) (current : OverflowEntry T) : Prop :=
  match s.phase with
  | .submitting flying entry =>
    newestAccepted (account key s.log).pending = some current.task ∧
      (flying = key → newestAccepted (account key s.log).taken = some entry.task ∧
        ∃ newer, (account key s.log).pending = newer ++ (account key s.log).taken ∧
          current.generation = entry.generation + acceptedCount newer)
  | .finishing flying generation true =>
    (flying = key → current.generation = generation + acceptedCount (account key s.log).pending) ∧
      ((flying = key → current.generation ≠ generation) → newestAccepted (account key s.log).pending = some current.task)
  | _ => newestAccepted (account key s.log).pending = some current.task

/-- Every retained identity has a balanced account. -/
def Accounted (s : State T) : Prop := ∀ key current, s.queue.entries.lookup key = some current → s.Balanced key current

variable {current : OverflowEntry T} {t : State T}

theorem Balanced.congr {written : OverflowEntry T} (balanced : s.Balanced key current)
    (phase : t.phase = s.phase) (account : account key t.log = account key s.log) (task : written.task = current.task)
    (generation : written.generation = current.generation) : t.Balanced key written := by
  unfold Balanced at balanced ⊢
  rw [phase, account, task, generation]
  exact balanced

/-- Where the dispatcher has not taken the identity, only the newest offer matters. -/
theorem balanced_iff_of_flight (elsewhere : s.phase.flight ≠ some key) :
    s.Balanced key current ↔ newestAccepted (account key s.log).pending = some current.task := by
  unfold Balanced
  cases phase : s.phase with
  | submitting flying entry =>
    have other : flying ≠ key := fun same => elsewhere (by rw [phase, Phase.flight, same])
    simp [other]
  | finishing flying generation submitted =>
    have other : flying ≠ key := fun same => elsewhere (by rw [phase, Phase.flight, same])
    cases submitted with
    | false => rfl
    | true => simp [other]
  | _ => rfl

theorem account_offered (key : String) (task : T) (accepted : Bool) (log : List (Record T)) :
    account key (.offered key task accepted :: log) =
      { account key log with pending := (task, accepted) :: (account key log).pending } := by
  rw [account, if_pos rfl]

theorem account_other {other : String} (different : other ≠ key) (task : T) (accepted : Bool) (log : List (Record T)) :
    account key (.offered other task accepted :: log) = account key log ∧ account key (.taken other :: log) = account key log ∧
      account key (.submitted other task :: log) = account key log := by
  simp [account, different]

variable {task : T}

/-- An offer of a retained identity, accepted or refused. -/
theorem Balanced.offer {existing written : OverflowEntry T} {accepted : Bool}
    (balanced : s.Balanced key existing) (phase : t.phase = s.phase) (log : t.log = .offered key task accepted :: s.log)
    (generation : written.generation = existing.generation + accepted.toNat)
    (writes : written.task = if accepted then task else existing.task) : t.Balanced key written := by
  have count : ∀ offers, acceptedCount ((task, accepted) :: offers) = acceptedCount offers + accepted.toNat := by
    intro offers
    cases accepted <;> simp [acceptedCount]
  have newest : (accepted = false → newestAccepted (account key s.log).pending = some existing.task) →
      newestAccepted ((task, accepted) :: (account key s.log).pending) = some written.task := by
    intro before
    cases accepted with
    | false => simpa [newestAccepted, writes] using before rfl
    | true => simp [newestAccepted, writes]
  unfold Balanced at balanced ⊢
  rw [phase, log, account_offered]
  cases at_ : s.phase with
  | submitting flying entry =>
    simp only [at_] at balanced ⊢
    refine ⟨newest fun _ => balanced.1, fun own => ⟨(balanced.2 own).1, ?_⟩⟩
    obtain ⟨newer, split, moved⟩ := (balanced.2 own).2
    refine ⟨(task, accepted) :: newer, by rw [split, List.cons_append], ?_⟩
    rw [count, generation, moved, Nat.add_assoc]
  | finishing flying finished submitted =>
    simp only [at_] at balanced
    cases submitted with
    | false => exact newest fun _ => balanced
    | true =>
      refine ⟨fun own => ?_, fun other => newest fun refused => balanced.2 fun own same => other own ?_⟩
      · rw [count, generation, balanced.1 own, Nat.add_assoc]
      · rw [generation, same, refused]
        rfl
  | _ =>
    simp only [at_] at balanced
    exact newest fun _ => balanced

/-- The identity that the dispatcher has taken is retained. -/
theorem Safe.flight_held (safe : s.Safe) (flying : s.phase.flight = some key) : ∃ current, s.queue.entries.lookup key = some current := by
  cases phase : s.phase with
  | submitting other entry =>
    rw [phase] at flying
    obtain rfl : other = key := Option.some.inj flying
    exact (safe.submitting phase).2.imp fun current held => held.1
  | finishing other generation submitted =>
    rw [phase] at flying
    obtain rfl : other = key := Option.some.inj flying
    exact (safe.finishing phase).2.imp fun current held => held.1
  | _ =>
    rw [phase] at flying
    cases flying

theorem Accounted.refused (accounted : s.Accounted) (name : String) (task : T) :
    ({ s with log := .offered name task false :: s.log } : State T).Accounted := by
  intro key current held
  rcases eq_or_ne name key with rfl | different
  · exact (accounted _ current held).offer rfl rfl rfl rfl
  · exact (accounted key current held).congr rfl (account_other different task false s.log).1 rfl rfl

theorem Accounted.accepted (accounted : s.Accounted) (safe : s.Safe) {name : String} {next : OverflowQueue T}
    (accepts : Accepts s.queue name task next) :
    ({ s with queue := next, signals := s.signals + 1, log := .offered name task true :: s.log } : State T).Accounted := by
  intro key current held
  obtain ⟨⟨written, own, newest, moved⟩, unchanged⟩ := accepts.lookup
  rcases eq_or_ne name key with rfl | different
  · rw [own] at held
    cases held
    cases before : s.queue.entries.lookup name with
    | some existing => exact (accounted _ existing before).offer rfl rfl (moved existing before).2 newest
    | none =>
      refine (balanced_iff_of_flight ?_).mpr ?_
      · intro flying
        obtain ⟨existing, present⟩ := safe.flight_held flying
        rw [before] at present
        cases present
      · dsimp only
        rw [account_offered]
        simp [newestAccepted, newest]
  · rw [unchanged key different.symm] at held
    exact (accounted key current held).congr rfl (account_other different task true s.log).1 rfl rfl

/-- The accounts of the identities that the dispatcher has not taken are up to their newest offer. -/
theorem Accounted.newest (accounted : s.Accounted) (elsewhere : s.phase.flight ≠ some key)
    (held : s.queue.entries.lookup key = some current) : newestAccepted (account key s.log).pending = some current.task :=
  (balanced_iff_of_flight elsewhere).mp (accounted key current held)

variable {entry : OverflowEntry T}

theorem Accounted.taken (accounted : s.Accounted) {rest : List String} (phase : s.phase = .dispatching)
    (held : s.queue.entries.lookup key = some entry) :
    ({ s with queue := { s.queue with entries := s.queue.entries.insert key { entry with inflight := true }, order := rest },
              phase := .submitting key { entry with inflight := true }, log := .taken key :: s.log } : State T).Accounted := by
  have elsewhere : ∀ other, s.phase.flight ≠ some other := by
    intro other
    rw [phase]
    exact (Option.some_ne_none other).symm
  intro other current found
  rcases FiniteMap.lookup_insert_eq_some_iff.mp found with ⟨rfl, rfl⟩ | ⟨different, before⟩
  · have newest := accounted.newest (elsewhere other) held
    refine ⟨?_, fun _ => ⟨?_, [], ?_, rfl⟩⟩
    · simpa [account] using newest
    · simpa [account] using newest
    · simp [account]
  · refine ⟨?_, fun same => absurd same.symm different⟩
    dsimp only
    rw [account, if_neg different.symm]
    exact accounted.newest (elsewhere other) before

variable {flying : String}

/-- A successful submission covers the offers before its take. -/
theorem Accounted.submitted (accounted : s.Accounted) (phase : s.phase = .submitting flying entry) :
    ({ s with phase := .finishing flying entry.generation true,
              log := .submitted flying entry.task :: s.log } : State T).Accounted := by
  intro key current held
  have balanced := accounted key current held
  simp only [Balanced, phase] at balanced ⊢
  obtain ⟨newest, own⟩ := balanced
  rcases eq_or_ne flying key with rfl | different
  · obtain ⟨covered, newer, split, moved⟩ := own rfl
    have rest : (account flying (.submitted flying entry.task :: s.log)).pending = newer := by
      rw [account, if_pos rfl]
      dsimp only
      rw [split, List.length_append, Nat.add_sub_cancel, List.take_left]
    rw [rest]
    refine ⟨fun _ => moved, fun replaced => ?_⟩
    have some : acceptedCount newer ≠ 0 := by
      intro none
      exact replaced rfl (by rw [moved, none, Nat.add_zero])
    rw [split, newestAccepted_append] at newest
    cases found : newestAccepted newer with
    | none => exact absurd found (newestAccepted_of_count some)
    | some task => rwa [found] at newest
  · rw [(account_other different entry.task true s.log).2.2]
    exact ⟨fun same => absurd same different, fun _ => newest⟩

theorem flight_finishing {other : String} {generation : ℕ} {submitted : Bool}
    (phase : s.phase = .finishing flying generation submitted) (different : other ≠ flying) : s.phase.flight ≠ some other := by
  rw [phase, Phase.flight]
  exact fun same => different (Option.some.inj same).symm

theorem Accounted.quiet (accounted : s.Accounted) (quiet : Quiet s t) : t.Accounted := by
  intro key current held
  rw [quiet.entries] at held
  have balanced := accounted key current held
  rcases quiet.phase with same | ⟨before, after⟩
  · exact balanced.congr same (by rw [quiet.log]) rfl rfl
  · refine (balanced_iff_of_flight ?_).mpr ?_
    · rw [after]
      exact (Option.some_ne_none key).symm
    · rw [quiet.log]
      refine (balanced_iff_of_flight ?_).mp balanced
      rw [before]
      exact (Option.some_ne_none key).symm

theorem Accounted.moved (accounted : s.Accounted) (safe : s.Safe) (moved : Moved s t) : t.Accounted := by
  cases moved with
  | quiet quiet => exact accounted.quiet quiet
  | refused name task => exact accounted.refused name task
  | accepted accepts => exact accounted.accepted safe accepts
  | taken phase _ held => exact accounted.taken phase held
  | submitted phase => exact accounted.submitted phase
  | unsubmitted phase =>
    intro key current held
    have balanced := accounted key current held
    simp only [Balanced, phase] at balanced ⊢
    exact balanced.1
  | forgotten phase _ =>
    intro key current present
    obtain ⟨different, before⟩ := FiniteMap.lookup_erase_eq_some_iff.mp present
    exact accounted.newest (flight_finishing phase different) before
  | @released _ _ submitted _ phase found older =>
    intro key current present
    rcases FiniteMap.lookup_insert_eq_some_iff.mp present with ⟨rfl, rfl⟩ | ⟨different, before⟩
    · have balanced := accounted key _ found
      simp only [Balanced, phase] at balanced
      cases submitted with
      | false => exact balanced
      | true => exact balanced.2 fun _ same => older ⟨same, rfl⟩
    · exact accounted.newest (flight_finishing phase different) before

theorem after_accounted (max : ℤ) (hasSubmit : Bool) (history : List (Step T)) : (after max hasSubmit history).Accounted := by
  induction history using List.reverseRecOn with
  | nil =>
    intro key current held
    exact nomatch (Finmap.lookup_empty key).symm.trans held
  | append_singleton earlier event ih =>
    rw [after_append]
    have safe := after_safe max hasSubmit earlier
    exact ih.moved safe (safe.step_moved event)

/-! ## Offers in order -/

/-- All offers were accepted, and none was behind an earlier one. -/
def Rising (rank : T → ℤ) (offers : List (T × Bool)) : Prop :=
  (∀ offer ∈ offers, offer.2 = true) ∧ offers.Pairwise fun newer older => rank older.1 ≤ rank newer.1

theorem Rising.nil (rank : T → ℤ) : Rising rank [] := ⟨List.forall_mem_nil _, List.Pairwise.nil⟩

theorem Rising.newest {rank : T → ℤ} {offers : List (T × Bool)} (rising : Rising rank offers)
    (newest : newestAccepted offers = some task) : ∀ offer ∈ offers, rank offer.1 ≤ rank task := by
  cases offers with
  | nil => cases newest
  | cons last older =>
    obtain ⟨accepted, ordered⟩ := rising
    have first : newestAccepted (last :: older) = some last.1 := by
      simp [newestAccepted, accepted last List.mem_cons_self]
    rw [first] at newest
    cases newest
    exact List.forall_mem_cons.mpr ⟨le_rfl, (List.pairwise_cons.mp ordered).1⟩

/-- The account keeps its order if what is offered is accepted and not behind what is pending. -/
theorem rising_record {rank : T → ℤ} {log : List (Record T)} {record : Record T}
    (rising : ∀ key, Rising rank (account key log).pending ∧ Rising rank (account key log).taken)
    (offers : ∀ key task accepted, record = .offered key task accepted →
      accepted = true ∧ ∀ offer ∈ (account key log).pending, rank offer.1 ≤ rank task) (key : String) :
    Rising rank (account key (record :: log)).pending ∧ Rising rank (account key (record :: log)).taken := by
  obtain ⟨pending, taken⟩ := rising key
  cases record with
  | offered other task accepted =>
    obtain ⟨rfl, ahead⟩ := offers other task accepted rfl
    rw [account]
    split_ifs with same
    · subst same
      exact ⟨⟨List.forall_mem_cons.mpr ⟨rfl, pending.1⟩, List.pairwise_cons.mpr ⟨ahead, pending.2⟩⟩, taken⟩
    · exact ⟨pending, taken⟩
  | taken other =>
    rw [account]
    split_ifs
    · exact ⟨pending, pending⟩
    · exact ⟨pending, taken⟩
  | submitted other task =>
    rw [account]
    split_ifs
    · refine ⟨⟨fun offer among => pending.1 offer (List.mem_of_mem_take among), pending.2.sublist (List.take_sublist _ _)⟩, ?_⟩
      exact .nil rank
    · exact ⟨pending, taken⟩

/-- A step adds at most one record, and an offer's own if it is one. -/
theorem step_log (hasSubmit : Bool) (s : State T) (event : Step T) :
    (s.step hasSubmit event).log = s.log ∨ ∃ record, (s.step hasSubmit event).log = record :: s.log ∧
      ∀ key task accepted, record = .offered key task accepted →
        ∃ name, event = .offer name (some task) ∧ offerKey name = key ∧ (s.queue.offer key task).2 = accepted := by
  cases event with
  | offer name task =>
    cases task with
    | none => exact .inl rfl
    | some task =>
      refine .inr ⟨_, rfl, ?_⟩
      rintro _ _ _ ⟨⟩
      exact ⟨name, rfl, rfl, rfl⟩
  | next | submit ok =>
    simp only [step]
    split
    · split
      · refine .inr ⟨_, rfl, ?_⟩
        rintro _ _ _ ⟨⟩
      · exact .inl rfl
    · exact .inl rfl
  | finish | finishSignal | retry =>
    simp only [step]
    split <;> exact .inl rfl
  | offerSignal | closeStop =>
    simp only [step]
    split_ifs <;> exact .inl rfl
  | wake | leave =>
    simp only [step]
    split <;> (try split_ifs) <;> exact .inl rfl
  | close | cancel => exact .inl rfl

end State

end Spotter.Providers.Overflow

namespace Spotter.Providers.K8s

open Library Domain Providers.Overflow

/-! ## Watch events and corrections -/

/-- The provider's events and compares, with the overflow queue that the refused ones go to. -/
structure Saturated where
  source : Reconciling := {}
  overflow : Overflow.State Instance := { queue := newOverflowQueue (poolBenchSize * 4) }

/-- The source moves on, what it produced is refused by the pool and offered, or the dispatcher moves on. -/
inductive SaturatedStep where
  | source (event : ReconcileStep)
  | requeueEvent (i : ℕ)
  | requeueCorrection (j : ℕ) (ins : Instance)
  | overflow (event : Overflow.Step Instance)

namespace Saturated

/-- What the step does to the queue. -/
def overflowStep (s : Saturated) : SaturatedStep → Option (Overflow.Step Instance)
  | .source _ => none
  | .requeueEvent i =>
    match s.source.events[i]? with
    | some (.done (some ins)) => some (.offer (identityKey ins) (some ins))
    | _ => none
  | .requeueCorrection j ins =>
    match s.source.compares[j]? with
    | some (.done events) => if ins ∈ events then some (.offer (identityKey ins) (some ins)) else none
    | _ => none
  | .overflow (.offer _ _) => none
  | .overflow event => some event

def step (config : ReconcileConfig) (s : Saturated) (event : SaturatedStep) : Saturated where
  source := match event with
    | .source event => s.source.step config event
    | .requeueEvent _ | .requeueCorrection _ _ | .overflow _ => s.source
  overflow := match s.overflowStep event with
    | some event => s.overflow.step true event
    | none => s.overflow

variable (config : ReconcileConfig) (history : List SaturatedStep)

def after : Saturated := history.foldl (step config) {}

theorem after_append (event : SaturatedStep) :
    after config (history ++ [event]) = (after config history).step config event := by
  rw [after, List.foldl_append]
  rfl

/-- The queue runs as it does alone. -/
theorem after_overflow :
    ∃ steps, (after config history).overflow = Overflow.State.after (poolBenchSize * 4) true steps := by
  induction history using List.reverseRecOn with
  | nil => exact ⟨[], rfl⟩
  | append_singleton earlier event ih =>
    obtain ⟨steps, reached⟩ := ih
    rw [after_append]
    cases moves : (after config earlier).overflowStep event with
    | none =>
      refine ⟨steps, ?_⟩
      simp only [step, moves]
      exact reached
    | some move =>
      refine ⟨steps ++ [move], ?_⟩
      simp only [step, moves]
      rw [Overflow.State.after_append, ← reached]

variable {config : ReconcileConfig} {history : List SaturatedStep} {key : String} {entry : OverflowEntry Instance}

theorem newest_submitted (flying : (after config history).overflow.phase = .submitting key entry) :
    newestAccepted (window key (after config history).overflow.log) = some entry.task := by
  obtain ⟨steps, reached⟩ := after_overflow config history
  rw [reached] at flying ⊢
  obtain ⟨current, held⟩ := (Overflow.State.after_safe _ _ steps).flight_held (by rw [flying]; rfl)
  have balanced := Overflow.State.after_accounted _ _ steps key current held
  simp only [Overflow.State.Balanced, flying] at balanced
  exact (balanced.2 trivial).1

/-- For every interleaving of watch events, compares and the queue: a submission carries the highest revision that was offered
for its identity since the previous one exactly if the newest accepted of these offers has it. -/
theorem submission_highest_iff (flying : (after config history).overflow.phase = .submitting key entry) :
    (∀ offer ∈ window key (after config history).overflow.log, offer.1.reversion ≤ entry.task.reversion) ↔
      ∃ newest, newestAccepted (window key (after config history).overflow.log) = some newest ∧
        ∀ offer ∈ window key (after config history).overflow.log, offer.1.reversion ≤ newest.reversion := by
  have submitted := newest_submitted flying
  constructor
  · exact fun highest => ⟨entry.task, submitted, highest⟩
  · rintro ⟨newest, found, highest⟩
    cases submitted.symm.trans found
    exact highest

/-- The event or correction that the step offers is accepted, and not behind an offer of its identity that no submission covers:
no correction that was decided on an older snapshot is offered after a newer event. -/
def InOrder (s : Saturated) (event : SaturatedStep) : Prop :=
  ∀ name ins, s.overflowStep event = some (.offer name (some ins)) → (s.overflow.queue.offer (offerKey name) ins).2 = true ∧
    ∀ offer ∈ (account (offerKey name) s.overflow.log).pending, offer.1.reversion ≤ ins.reversion

/-- If events and corrections are offered in order, every submission carries the highest revision of its window. -/
theorem submission_highest_of_inOrder
    (inOrder : History.AllSteps (fun before event => (after config before).InOrder event) history)
    (flying : (after config history).overflow.phase = .submitting key entry) :
    ∀ offer ∈ window key (after config history).overflow.log, offer.1.reversion ≤ entry.task.reversion := by
  have rising := History.invariant (fun before => ∀ key,
    State.Rising Instance.reversion (account key (after config before).overflow.log).pending ∧
      State.Rising Instance.reversion (account key (after config before).overflow.log).taken) ?_ ?_ inOrder
  · exact (rising key).2.newest (newest_submitted flying)
  · exact fun _ => ⟨.nil _, .nil _⟩
  · intro earlier event ordered rising
    rw [after_append]
    simp only [step]
    cases moves : (after config earlier).overflowStep event with
    | none => exact rising
    | some move =>
      rcases State.step_log true (after config earlier).overflow move with same | ⟨record, log, own⟩
      · rw [same]
        exact rising
      · rw [log]
        refine State.rising_record rising ?_
        rintro key task accepted made
        obtain ⟨name, rfl, rfl, accepts⟩ := own key task accepted made
        obtain ⟨taken, ahead⟩ := ordered name task moves
        exact ⟨accepts.symm.trans taken, ahead⟩

def saturatedConfig : ReconcileConfig where
  lib := plainLib
  json := ⟨Instance.instanceId, fun _ => none⟩
  nacosReconcile := false

/-- The consumer processes an event of the pod at the given version, as its event number `i`. -/
def podEvent (i : ℕ) (version : String) : List SaturatedStep :=
  [.source (.beginEvent { key := "default/b", clusterID := "c1", uid := "b", event := .update } [readyPod "b" version]),
    .source (.event i), .source (.event i), .source (.event i)]

/-- The pod's instance at the given version. -/
def podInstance (version : String) : Instance :=
  ((Config.convert saturatedConfig.toConfig { key := "default/b", clusterID := "c1", uid := "b", event := .update }
    (readyPod "b" version)).getD {})

/-- A compare takes its snapshot, reads a remote view that is behind and passes its check. -/
def compareChecked : List SaturatedStep :=
  [.source .beginCompare, .source (.compare 0 {}), .source (.compare 0 {}),
    .source (.compare 0 { read := .ok [podInstance "4"] }), .source (.compare 0 {})]

/-- The compare decides and its correction is offered. -/
def correctionOffered : List SaturatedStep :=
  [.source (.compare 0 { order := [podInstance "5"] }), .requeueCorrection 0 (podInstance "5")]

def dispatched : List SaturatedStep := [.overflow .offerSignal, .overflow .wake, .overflow .next]

/-- The submission under way, as the revision it carries and those of its window. -/
def submission (s : Saturated) : Option (String × ℤ × List ℤ) :=
  match s.overflow.phase with
  | .submitting key entry => some (key, entry.task.reversion, (window key s.overflow.log).map fun offer => offer.1.reversion)
  | _ => none

/-- An event that the pool refused is submitted. -/
def eventResubmitted : List SaturatedStep := podEvent 0 "5" ++ [.requeueEvent 0] ++ dispatched

theorem eventResubmitted_highest : (after saturatedConfig eventResubmitted).overflow.phase =
        .submitting "c1/b" { task := podInstance "5", generation := 1, inflight := true } ∧
      ∀ offer ∈ window "c1/b" (after saturatedConfig eventResubmitted).overflow.log,
        offer.1.reversion ≤ (podInstance "5").reversion := by
  have flying : (after saturatedConfig eventResubmitted).overflow.phase =
      .submitting "c1/b" { task := podInstance "5", generation := 1, inflight := true } := rfl
  exact ⟨flying, (submission_highest_iff flying).mpr ⟨podInstance "5", by decide +kernel, by decide +kernel⟩⟩

/-- The pool refuses the event of version 6 and then the correction that was decided on version 5: the queue submits
version 5 and forgets version 6. -/
theorem correction_replaces_event : submission (after saturatedConfig
        (podEvent 0 "5" ++ compareChecked ++ podEvent 1 "6" ++ [.requeueEvent 1] ++ correctionOffered ++ dispatched)) =
      some ("c1/b", 5, [5, 6]) := by
  decide +kernel

end Saturated

end Spotter.Providers.K8s
