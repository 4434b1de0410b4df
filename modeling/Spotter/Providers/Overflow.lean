import Spotter.Library.FiniteMap
import Spotter.Library.History

/-! # The overflow queue

Work that a saturated pool refused is retained by identity and submitted later by a dispatcher. The locked sections of the
queue are single steps; submitting, waiting and sending a wake-up are steps of their own, so offers happen in between. The
wake-up channel has one slot and a send into a full slot is dropped.

A task is opaque. The log of offers, takes and successful submissions, newest first, is not part of the program. A
generation is a natural number, which is at most the number of steps.
-/

namespace Spotter.Providers.Overflow

open Library

variable {T : Type}

structure OverflowEntry (T : Type) where
  task : T
  generation : ℕ := 1
  inflight : Bool := false

/-- What the mutex guards. -/
structure OverflowQueue (T : Type) where
  entries : FiniteMap String (OverflowEntry T) := ∅
  order : List String := []
  max : ℕ
  closed : Bool := false

/-- `PoolBenchSize`, the size of the worker pools. -/
def poolBenchSize : ℕ := 100

/-- A new queue; a bound that is not positive is replaced by a default. -/
def newOverflowQueue (max : ℤ) : OverflowQueue T where
  max := if max ≤ 0 then poolBenchSize * 4 else max.toNat

/-- The key that an identity is retained under. -/
def offerKey (key : String) : String := if key = "" then "<empty-identity>" else key

variable (q : OverflowQueue T)

namespace OverflowQueue

/-- The locked section of `Offer`, and whether the task was accepted. -/
def offer (key : String) (task : T) : OverflowQueue T × Bool :=
  if q.closed then (q, false)
  else match q.entries.lookup key with
    | some existing =>
      let existing := { existing with task := task, generation := existing.generation + 1 }
      ({ q with entries := q.entries.insert key existing }, true)
    | none =>
      if q.max ≤ q.entries.keys.card then (q, false)
      else ({ q with entries := q.entries.insert key { task := task }, order := q.order ++ [key] }, true)

/-- The loop of `next` over the order. -/
def nextFrom (entries : FiniteMap String (OverflowEntry T)) : List String → List String × Option (String × OverflowEntry T)
  | [] => ([], none)
  | key :: rest =>
    match entries.lookup key with
    | none => nextFrom entries rest
    | some entry => if entry.inflight then nextFrom entries rest else (rest, some (key, { entry with inflight := true }))

def next : OverflowQueue T × Option (String × OverflowEntry T) :=
  match nextFrom q.entries q.order with
  | (order, none) => ({ q with order := order }, none)
  | (order, some (key, entry)) => ({ q with entries := q.entries.insert key entry, order := order }, some (key, entry))

/-- The locked section of `finish`, and whether a wake-up is to be sent. -/
def finish (key : String) (generation : ℕ) (submitted : Bool) : OverflowQueue T × Bool :=
  match q.entries.lookup key with
  | none => (q, false)
  | some entry =>
    if entry.generation = generation ∧ submitted = true then ({ q with entries := q.entries.erase key }, false)
    else
      ({ q with entries := q.entries.insert key { entry with inflight := false }, order := q.order ++ [key] }, true)

end OverflowQueue

/-- Where the dispatcher is. -/
inductive Phase (T : Type) where
  /-- Waiting for a wake-up. -/
  | parked
  | dispatching
  | submitting (key : String) (entry : OverflowEntry T)
  | finishing (key : String) (generation : ℕ) (submitted : Bool)
  /-- Past the locked section of `finish`, about to send the wake-up. -/
  | signalling (submitted : Bool)
  /-- In `waitRetry`. -/
  | retrying
  | stopped

/-- An entry of the log. -/
inductive Record (T : Type) where
  | offered (key : String) (task : T) (accepted : Bool)
  /-- The dispatcher took the retained task of the identity. -/
  | taken (key : String)
  | submitted (key : String) (task : T)

structure State (T : Type) where
  queue : OverflowQueue T
  wake : Bool := false
  /-- How many accepted offers have not sent their wake-up yet. -/
  signals : ℕ := 0
  phase : Phase T := .parked
  /-- The stop channel is closed. -/
  stopped : Bool := false
  cancelled : Bool := false
  log : List (Record T) := []

/-- Everything that can happen. A submission says whether the pool took the task. -/
inductive Step (T : Type) where
  | offer (key : String) (task : Option T)
  | offerSignal
  | wake
  | next
  | submit (ok : Bool)
  | finish
  | finishSignal
  | retry
  | leave
  | close
  | closeStop
  | cancel

/-- The submission that the dispatcher goes on after. -/
def Phase.afterFinish (submitted : Bool) : Phase T := if submitted then .dispatching else .retrying

namespace State

/-- One step; a step that is not possible changes nothing. Without a submit function every submission fails, and the
dispatcher only stops while it is parked. -/
def step (hasSubmit : Bool) (s : State T) : Step T → State T
  | .offer key (some task) =>
    let (queue, accepted) := s.queue.offer (offerKey key) task
    { s with
      queue := queue
      signals := if accepted then s.signals + 1 else s.signals
      log := .offered (offerKey key) task accepted :: s.log }
  | .offer _ none => s
  | .offerSignal => if 0 < s.signals then { s with signals := s.signals - 1, wake := true } else s
  | .wake =>
    match s.phase with
    | .parked => if s.wake then { s with wake := false, phase := .dispatching } else s
    | _ => s
  | .next =>
    match s.phase with
    | .dispatching =>
      match s.queue.next with
      | (queue, some (key, entry)) => { s with queue := queue, phase := .submitting key entry, log := .taken key :: s.log }
      | (queue, none) => { s with queue := queue, phase := .parked }
    | _ => s
  | .submit ok =>
    match s.phase with
    | .submitting key entry =>
      if hasSubmit && ok then
        { s with phase := .finishing key entry.generation true, log := .submitted key entry.task :: s.log }
      else { s with phase := .finishing key entry.generation false }
    | _ => s
  | .finish =>
    match s.phase with
    | .finishing key generation submitted =>
      let (queue, signal) := s.queue.finish key generation submitted
      { s with queue := queue, phase := if signal then .signalling submitted else .afterFinish submitted }
    | _ => s
  | .finishSignal =>
    match s.phase with
    | .signalling submitted => { s with wake := true, phase := .afterFinish submitted }
    | _ => s
  | .retry =>
    match s.phase with
    | .retrying => { s with phase := .parked }
    | _ => s
  | .leave =>
    match s.phase with
    | .parked => if s.stopped || s.cancelled then { s with phase := .stopped } else s
    | .retrying => if s.stopped || s.cancelled then { s with phase := if hasSubmit then .stopped else .parked } else s
    | _ => s
  | .close => { s with queue := { s.queue with closed := true } }
  | .closeStop => if s.queue.closed then { s with stopped := true } else s
  | .cancel => { s with cancelled := true }

end State

/-! ## The locked sections -/

variable {entry : OverflowEntry T}

section Locked

/-- The order lists exactly the retained identities that are not in flight, each once; at most one is in flight. -/
structure Aligned (flight : Option String) : Prop where
  distinct : q.order.Nodup
  listed : ∀ key, key ∈ q.order ↔ ∃ entry, q.entries.lookup key = some entry ∧ entry.inflight = false
  flown : ∀ key entry, q.entries.lookup key = some entry → entry.inflight = true → flight = some key
  bounded : q.entries.keys.card ≤ q.max

variable {q queue : OverflowQueue T} {key : String} {task : T} {flight : Option String}

theorem keys_insert (entries : FiniteMap String (OverflowEntry T)) (key : String) (entry : OverflowEntry T) :
    (entries.insert key entry).keys = insert key entries.keys := by
  ext other
  simp [Finmap.mem_keys]

/-- Writing one entry and the order keeps the queue aligned if the order gains or loses that entry as it should. -/
theorem Aligned.write {flight' : Option String} {order : List String} (aligned : Aligned q flight)
    (distinct : order.Nodup) (others : ∀ other, other ≠ key → (other ∈ order ↔ other ∈ q.order))
    (own : key ∈ order ↔ entry.inflight = false) (room : key ∈ q.entries ∨ q.entries.keys.card < q.max)
    (flies : ∀ other, flight = some other → other ≠ key → flight' = some other)
    (flown : entry.inflight = true → flight' = some key) :
    Aligned { q with entries := q.entries.insert key entry, order := order } flight' where
  distinct := distinct
  listed other := by
    rcases eq_or_ne other key with rfl | different
    · simp [own]
    · rw [others other different, aligned.listed, Finmap.lookup_insert_of_ne _ different]
  flown other written found inflight := by
    rcases FiniteMap.lookup_insert_eq_some_iff.mp found with ⟨rfl, rfl⟩ | ⟨different, before⟩
    · exact flown inflight
    · exact flies other (aligned.flown other written before inflight) different
  bounded := by
    rw [keys_insert]
    rcases room with present | room
    · rw [Finset.insert_eq_of_mem (Finmap.mem_keys.mpr present)]
      exact aligned.bounded
    · exact (Finset.card_insert_le _ _).trans room

/-- What an accepted offer leaves: a retained identity has the new task, and another one is retained at the end. -/
inductive Accepts (q : OverflowQueue T) (key : String) (task : T) : OverflowQueue T → Prop where
  | replaced {existing : OverflowEntry T} (held : q.entries.lookup key = some existing) :
      Accepts q key task
        { q with entries := q.entries.insert key { existing with task := task, generation := existing.generation + 1 } }
  | retained (absent : q.entries.lookup key = none) (room : q.entries.keys.card < q.max) :
      Accepts q key task { q with entries := q.entries.insert key { task := task }, order := q.order ++ [key] }

theorem offer_cases (q : OverflowQueue T) (key : String) (task : T) :
    q.offer key task = (q, false) ∨ ∃ next, Accepts q key task next ∧ q.offer key task = (next, true) := by
  unfold OverflowQueue.offer
  cases held : q.entries.lookup key with
  | some existing =>
    dsimp only
    split_ifs
    · exact .inl rfl
    · exact .inr ⟨_, .replaced held, rfl⟩
  | none =>
    split_ifs with closed full
    · exact .inl rfl
    · exact .inl rfl
    · exact .inr ⟨_, .retained held (not_le.mp full), rfl⟩

theorem Aligned.fresh (aligned : Aligned q flight) (waiting : ∀ entry, q.entries.lookup key = some entry → entry.inflight = true) :
    key ∉ q.order := by
  intro member
  obtain ⟨entry, held, idle⟩ := (aligned.listed key).mp member
  rw [waiting entry held] at idle
  cases idle

/-- The order with an identity at its end that it did not list. -/
theorem Aligned.appended (aligned : Aligned q flight) (fresh : key ∉ q.order) :
    (q.order ++ [key]).Nodup ∧ (∀ other, other ≠ key → (other ∈ q.order ++ [key] ↔ other ∈ q.order)) ∧ key ∈ q.order ++ [key] := by
  refine ⟨?_, fun other different => ?_, by simp⟩
  · rw [List.nodup_append]
    refine ⟨aligned.distinct, List.nodup_singleton key, ?_⟩
    rintro first member second same rfl
    exact fresh (List.mem_singleton.mp same ▸ member)
  · rw [List.mem_append, List.mem_singleton, or_iff_left different]

theorem Aligned.offer (aligned : Aligned q flight) (accepts : Accepts q key task queue) : Aligned queue flight := by
  cases accepts with
  | @replaced existing held =>
    refine aligned.write aligned.distinct (fun _ _ => Iff.rfl) ?_ (.inl (Finmap.mem_of_lookup_eq_some held)) ?_ ?_
    · simp [aligned.listed, held]
    · exact fun other flying _ => flying
    · exact fun inflight => aligned.flown key existing held inflight
  | retained absent room =>
    have fresh : key ∉ q.order := aligned.fresh fun entry held => nomatch absent.symm.trans held
    obtain ⟨distinct, others, own⟩ := aligned.appended fresh
    refine aligned.write distinct others (iff_of_true own rfl) (.inr room) ?_ ?_
    · exact fun other flying _ => flying
    · exact fun inflight => nomatch inflight

/-- The dispatcher takes the first identity of the order, and finds none only if nothing is retained. -/
theorem next_cases (aligned : Aligned q none) : (q.next = (q, none) ∧ q.entries = ∅) ∨
      ∃ key rest entry, q.order = key :: rest ∧ q.entries.lookup key = some entry ∧
        q.next = ({ q with entries := q.entries.insert key { entry with inflight := true }, order := rest },
          some (key, { entry with inflight := true })) := by
  cases listed : q.order with
  | nil =>
    refine .inl ⟨?_, ?_⟩
    · simp only [OverflowQueue.next, listed, OverflowQueue.nextFrom]
      rw [← listed]
    · refine Finmap.ext_lookup fun key => ?_
      rw [Finmap.lookup_empty]
      cases held : q.entries.lookup key with
      | none => rfl
      | some entry =>
        cases idle : entry.inflight with
        | true => exact nomatch aligned.flown key entry held idle
        | false =>
          have member := (aligned.listed key).mpr ⟨entry, held, idle⟩
          rw [listed] at member
          cases member
  | cons key rest =>
    have first : key ∈ q.order := listed ▸ List.mem_cons_self
    obtain ⟨entry, held, idle⟩ := (aligned.listed key).mp first
    refine .inr ⟨key, rest, entry, rfl, held, ?_⟩
    simp [OverflowQueue.next, listed, OverflowQueue.nextFrom, held, idle]

theorem Aligned.next {rest : List String} (aligned : Aligned q none) (listed : q.order = key :: rest)
    (held : q.entries.lookup key = some entry) :
    Aligned { q with entries := q.entries.insert key { entry with inflight := true }, order := rest } (some key) := by
  have distinct := aligned.distinct
  rw [listed, List.nodup_cons] at distinct
  refine aligned.write distinct.2 (fun other different => ?_) ?_ (.inl (Finmap.mem_of_lookup_eq_some held)) ?_ fun _ => rfl
  · rw [listed, List.mem_cons, or_iff_right different]
  · exact iff_of_false distinct.1 fun impossible => nomatch impossible
  · exact fun other flying _ => nomatch flying

/-- Finishing the identity in flight forgets it if its newest task was submitted, and lists it again otherwise. -/
theorem finish_cases (held : q.entries.lookup key = some entry) (generation : ℕ) (submitted : Bool) :
    (entry.generation = generation ∧ submitted = true ∧
        q.finish key generation submitted = ({ q with entries := q.entries.erase key }, false)) ∨
      (¬(entry.generation = generation ∧ submitted = true) ∧ q.finish key generation submitted =
        ({ q with entries := q.entries.insert key { entry with inflight := false }, order := q.order ++ [key] }, true)) := by
  simp only [OverflowQueue.finish, held]
  by_cases newest : entry.generation = generation ∧ submitted = true
  · rw [if_pos newest]
    exact .inl ⟨newest.1, newest.2, rfl⟩
  · rw [if_neg newest]
    exact .inr ⟨newest, rfl⟩

theorem Aligned.forget (aligned : Aligned q (some key)) (held : q.entries.lookup key = some entry)
    (flying : entry.inflight = true) : Aligned { q with entries := q.entries.erase key } none where
  distinct := aligned.distinct
  listed other := by
    rw [aligned.listed]
    rcases eq_or_ne other key with rfl | different
    · simp [held, flying]
    · simp [Finmap.lookup_erase_ne different]
  flown other entry found inflight := by
    obtain ⟨different, before⟩ := FiniteMap.lookup_erase_eq_some_iff.mp found
    have same := aligned.flown other entry before inflight
    exact absurd (Option.some.inj same).symm different
  bounded := by
    refine le_trans (Finset.card_le_card fun other member => ?_) aligned.bounded
    rw [Finmap.mem_keys] at member ⊢
    exact (Finmap.mem_erase.mp member).2

theorem Aligned.release (aligned : Aligned q (some key)) (held : q.entries.lookup key = some entry)
    (flying : entry.inflight = true) :
    Aligned { q with entries := q.entries.insert key { entry with inflight := false }, order := q.order ++ [key] } none := by
  have fresh : key ∉ q.order := by
    refine aligned.fresh fun other found => ?_
    cases held.symm.trans found
    exact flying
  obtain ⟨distinct, others, own⟩ := aligned.appended fresh
  refine aligned.write distinct others (iff_of_true own rfl) (.inl (Finmap.mem_of_lookup_eq_some held)) ?_ ?_
  · exact fun other same different => absurd (Option.some.inj same).symm different
  · exact fun inflight => nomatch inflight

/-- What an accepted offer leaves under its own key and under the others. -/
theorem Accepts.lookup (accepts : Accepts q key task queue) :
    (∃ written, queue.entries.lookup key = some written ∧ written.task = task ∧ ∀ existing, q.entries.lookup key = some existing →
        written.inflight = existing.inflight ∧ written.generation = existing.generation + 1) ∧
    ∀ other, other ≠ key → queue.entries.lookup other = q.entries.lookup other := by
  cases accepts with
  | replaced held =>
    refine ⟨⟨_, Finmap.lookup_insert _, rfl, fun found same => ?_⟩, fun other different => Finmap.lookup_insert_of_ne _ different⟩
    cases held.symm.trans same
    exact ⟨rfl, rfl⟩
  | retained absent =>
    refine ⟨⟨_, Finmap.lookup_insert _, rfl, fun found same => ?_⟩, fun other different => Finmap.lookup_insert_of_ne _ different⟩
    cases absent.symm.trans same

end Locked

/-! ## What becomes of an accepted task -/

/-- The task of the last accepted offer of the identity. -/
def lastAccepted (key : String) : List (Record T) → Option T
  | [] => none
  | .offered other task accepted :: log => if other = key ∧ accepted = true then some task else lastAccepted key log
  | .taken _ :: log => lastAccepted key log
  | .submitted _ _ :: log => lastAccepted key log

/-- The tasks of the identity that were submitted since its last accepted offer. -/
def submittedSince (key : String) : List (Record T) → List T
  | [] => []
  | .offered other _ accepted :: log => if other = key ∧ accepted = true then [] else submittedSince key log
  | .taken _ :: log => submittedSince key log
  | .submitted other task :: log => if other = key then task :: submittedSince key log else submittedSince key log

/-- The identity that the dispatcher has taken. -/
def Phase.flight : Phase T → Option String
  | .submitting key _ | .finishing key _ _ => some key
  | .parked | .dispatching | .signalling _ | .retrying | .stopped => none

namespace State

/-- What the dispatcher can rely on where it is. -/
def Placed (s : State T) : Prop :=
  match s.phase with
  | .parked => s.queue.entries ≠ ∅ → s.wake = true ∨ 0 < s.signals
  | .submitting key entry => ∃ current, s.queue.entries.lookup key = some current ∧ current.inflight = true ∧
      entry.generation ≤ current.generation ∧ (current.generation = entry.generation → current.task = entry.task)
  | .finishing key generation submitted => ∃ current, s.queue.entries.lookup key = some current ∧ current.inflight = true ∧
      generation ≤ current.generation ∧
      (submitted = true → current.generation = generation → current.task ∈ submittedSince key s.log)
  | .retrying => s.wake = true
  | .dispatching | .signalling _ | .stopped => True

/-- What holds in every state. -/
structure Safe (s : State T) : Prop where
  aligned : Aligned s.queue s.phase.flight
  placed : s.Placed
  latest : ∀ key entry, s.queue.entries.lookup key = some entry → lastAccepted key s.log = some entry.task
  kept : ∀ key task, lastAccepted key s.log = some task → key ∈ s.queue.entries ∨ task ∈ submittedSince key s.log

variable {s : State T} {hasSubmit : Bool} {key : String} {task : T} {queue : OverflowQueue T}

/-- An offer that is refused, or one of another identity, does not change what the log says about an identity. -/
theorem offered_other {other : String} {accepted : Bool} {log : List (Record T)} (foreign : ¬(other = key ∧ accepted = true)) :
    lastAccepted key (.offered other task accepted :: log) = lastAccepted key log ∧
      submittedSince key (.offered other task accepted :: log) = submittedSince key log := by
  rw [lastAccepted, submittedSince, if_neg foreign, if_neg foreign]
  exact ⟨rfl, rfl⟩

theorem Placed.offer (placed : s.Placed) (accepts : Accepts s.queue key task queue) (log : List (Record T))
    (others : ∀ other, other ≠ key → submittedSince other log = submittedSince other s.log) :
    ({ s with queue := queue, signals := s.signals + 1, log := log } : State T).Placed := by
  obtain ⟨⟨written, own, _, moved⟩, unchanged⟩ := accepts.lookup
  unfold Placed at placed ⊢
  cases phase : s.phase with
  | parked => exact fun _ => .inr s.signals.succ_pos
  | dispatching | signalling _ | stopped => trivial
  | retrying => simpa [phase] using placed
  | submitting flying entry =>
    simp only [phase] at placed ⊢
    obtain ⟨current, held, inflight, behind, same⟩ := placed
    rcases eq_or_ne flying key with rfl | different
    · obtain ⟨flies, newer⟩ := moved current held
      refine ⟨written, own, flies.trans inflight, by omega, fun equal => ?_⟩
      omega
    · exact ⟨current, (unchanged flying different).trans held, inflight, behind, same⟩
  | finishing flying generation submitted =>
    simp only [phase] at placed ⊢
    obtain ⟨current, held, inflight, behind, done⟩ := placed
    rcases eq_or_ne flying key with rfl | different
    · obtain ⟨flies, newer⟩ := moved current held
      refine ⟨written, own, flies.trans inflight, by omega, fun _ equal => ?_⟩
      omega
    · rw [others flying different]
      exact ⟨current, (unchanged flying different).trans held, inflight, behind, done⟩

theorem flight_afterFinish (submitted : Bool) : (Phase.afterFinish submitted : Phase T).flight = none := by
  cases submitted with
  | false | true => rfl

/-- A step outside the queue's lock: the dispatcher stays where it is, or goes on without having taken anything, and it
knows what it has to. -/
structure Quiet (s t : State T) : Prop where
  entries : t.queue.entries = s.queue.entries
  order : t.queue.order = s.queue.order
  max : t.queue.max = s.queue.max
  log : t.log = s.log
  phase : t.phase = s.phase ∨ s.phase.flight = none ∧ t.phase.flight = none
  placed : s.Placed → t.Placed

theorem Quiet.refl (s : State T) : Quiet s s := ⟨rfl, rfl, rfl, rfl, .inl rfl, id⟩

theorem Quiet.moved {phase before : Phase T} {wake : Bool} (here : s.phase = before) (untaken : before.flight = none)
    (after : phase.flight = none) (placed : s.Placed → ({ s with wake := wake, phase := phase } : State T).Placed) :
    Quiet s { s with wake := wake, phase := phase } := by
  rw [← here] at untaken
  exact ⟨rfl, rfl, rfl, rfl, .inr ⟨untaken, after⟩, placed⟩

/-- A wake-up that is sent keeps the dispatcher informed. -/
theorem Placed.signalled (placed : s.Placed) (signals : ℕ) : ({ s with wake := true, signals := signals } : State T).Placed := by
  unfold Placed at placed ⊢
  cases phase : s.phase with
  | parked => exact fun _ => .inl rfl
  | retrying => rfl
  | dispatching | signalling _ | stopped => trivial
  | submitting _ _ | finishing _ _ _ => simpa [phase] using placed

theorem Placed.woken (placed : s.Placed) (phase : s.phase = .retrying) : s.wake = true := by
  simpa only [Placed, phase] using placed

/-- The steps that are quiet. -/
def quiet : Step T → Bool
  | .offer _ _ | .next | .submit _ | .finish => false
  | .offerSignal | .wake | .finishSignal | .retry | .leave | .close | .closeStop | .cancel => true

theorem step_quiet (event : Step T) (outside : quiet event = true) : Quiet s (s.step hasSubmit event) := by
  cases event with
  | offerSignal =>
    simp only [step]
    split_ifs
    · exact ⟨rfl, rfl, rfl, rfl, .inl rfl, fun placed => placed.signalled _⟩
    · exact .refl s
  | closeStop =>
    simp only [step]
    split_ifs
    · exact ⟨rfl, rfl, rfl, rfl, .inl rfl, id⟩
    · exact .refl s
  | close | cancel => exact ⟨rfl, rfl, rfl, rfl, .inl rfl, id⟩
  | wake =>
    simp only [step]
    cases phase : s.phase with
    | parked =>
      dsimp only
      split_ifs
      · exact .moved phase rfl rfl fun _ => trivial
      · exact .refl s
    | _ => exact .refl s
  | finishSignal =>
    simp only [step]
    cases phase : s.phase with
    | signalling submitted =>
      refine .moved phase rfl (flight_afterFinish submitted) fun _ => ?_
      cases submitted with
      | true => trivial
      | false => exact rfl
    | _ => exact .refl s
  | retry =>
    simp only [step]
    cases phase : s.phase with
    | retrying => exact .moved phase rfl rfl fun placed _ => .inl (placed.woken phase)
    | _ => exact .refl s
  | leave =>
    simp only [step]
    cases phase : s.phase with
    | parked =>
      dsimp only
      split_ifs
      · exact .moved phase rfl rfl fun _ => trivial
      · exact .refl s
    | retrying =>
      dsimp only
      split_ifs
      · exact .moved phase rfl rfl fun _ => trivial
      · exact .moved phase rfl rfl fun placed _ => .inl (placed.woken phase)
      · exact .refl s
    | _ => exact .refl s
  | _ => cases outside

variable {t : State T}

theorem Safe.quiet (safe : s.Safe) (quiet : Quiet s t) : t.Safe := by
  obtain ⟨distinct, listed, flown, bounded⟩ := safe.aligned
  have flight : t.phase.flight = s.phase.flight := by
    rcases quiet.phase with same | ⟨before, after⟩
    · rw [same]
    · rw [before, after]
  refine ⟨⟨?_, ?_, ?_, ?_⟩, quiet.placed safe.placed, ?_, ?_⟩
  · rwa [quiet.order]
  · rwa [quiet.order, quiet.entries]
  · rwa [quiet.entries, flight]
  · rwa [quiet.entries, quiet.max]
  · rw [quiet.entries, quiet.log]
    exact safe.latest
  · rw [quiet.entries, quiet.log]
    exact safe.kept

theorem Safe.submitting (safe : s.Safe) (phase : s.phase = .submitting key entry) :
    Aligned s.queue (some key) ∧ ∃ current, s.queue.entries.lookup key = some current ∧ current.inflight = true ∧
      entry.generation ≤ current.generation ∧ (current.generation = entry.generation → current.task = entry.task) := by
  have aligned := safe.aligned
  have placed := safe.placed
  simp only [Placed, phase] at aligned placed
  exact ⟨aligned, placed⟩

theorem Safe.finishing (safe : s.Safe) {generation : ℕ} {submitted : Bool} (phase : s.phase = .finishing key generation submitted) :
    Aligned s.queue (some key) ∧ ∃ current, s.queue.entries.lookup key = some current ∧ current.inflight = true ∧
      generation ≤ current.generation ∧
      (submitted = true → current.generation = generation → current.task ∈ submittedSince key s.log) := by
  have aligned := safe.aligned
  have placed := safe.placed
  simp only [Placed, phase] at aligned placed
  exact ⟨aligned, placed⟩

/-- What a step can do in a state that is safe. -/
inductive Moved (s : State T) : State T → Prop where
  | quiet {t : State T} (quiet : Quiet s t) : Moved s t
  | refused (key : String) (task : T) : Moved s { s with log := .offered key task false :: s.log }
  | accepted {key : String} {task : T} {queue : OverflowQueue T} (accepts : Accepts s.queue key task queue) :
      Moved s { s with queue := queue, signals := s.signals + 1, log := .offered key task true :: s.log }
  | taken {key : String} {rest : List String} {entry : OverflowEntry T} (phase : s.phase = .dispatching)
      (listed : s.queue.order = key :: rest) (held : s.queue.entries.lookup key = some entry) :
      Moved s { s with queue := { s.queue with entries := s.queue.entries.insert key { entry with inflight := true },
                                               order := rest },
                       phase := .submitting key { entry with inflight := true }, log := .taken key :: s.log }
  | submitted {key : String} {entry : OverflowEntry T} (phase : s.phase = .submitting key entry) :
      Moved s { s with phase := .finishing key entry.generation true, log := .submitted key entry.task :: s.log }
  | unsubmitted {key : String} {entry : OverflowEntry T} (phase : s.phase = .submitting key entry) :
      Moved s { s with phase := .finishing key entry.generation false }
  | forgotten {key : String} {current : OverflowEntry T} (phase : s.phase = .finishing key current.generation true)
      (held : s.queue.entries.lookup key = some current) :
      Moved s { s with queue := { s.queue with entries := s.queue.entries.erase key }, phase := .dispatching }
  | released {key : String} {generation : ℕ} {submitted : Bool} {current : OverflowEntry T}
      (phase : s.phase = .finishing key generation submitted) (held : s.queue.entries.lookup key = some current)
      (older : ¬(current.generation = generation ∧ submitted = true)) :
      Moved s { s with queue := { s.queue with entries := s.queue.entries.insert key { current with inflight := false },
                                               order := s.queue.order ++ [key] },
                       phase := .signalling submitted }

theorem Moved.offer (name : String) (task : T) : Moved s (s.step hasSubmit (.offer name (some task))) := by
  simp only [step]
  rcases offer_cases s.queue (offerKey name) task with refused | ⟨next, accepts, accepted⟩
  · rw [refused]
    exact .refused (offerKey name) task
  · rw [accepted]
    exact .accepted accepts

theorem Safe.step_next (safe : s.Safe) : Moved s (s.step hasSubmit .next) := by
  simp only [step]
  cases phase : s.phase with
  | dispatching =>
    have aligned : Aligned s.queue none := by simpa [phase, Phase.flight] using safe.aligned
    rcases next_cases aligned with ⟨nothing, empty⟩ | ⟨key, rest, entry, listed, held, taken⟩
    · rw [nothing]
      exact .quiet (.moved phase rfl rfl fun _ some => absurd empty some)
    · rw [taken]
      exact .taken phase listed held
  | _ => exact .quiet (.refl s)

theorem step_submit (ok : Bool) : Moved s (s.step hasSubmit (.submit ok)) := by
  simp only [step]
  cases phase : s.phase with
  | submitting key entry =>
    dsimp only
    split_ifs
    · exact .submitted phase
    · exact .unsubmitted phase
  | _ => exact .quiet (.refl s)

section

variable (safe : s.Safe)

include safe

theorem Safe.step_finish : Moved s (s.step hasSubmit .finish) := by
  simp only [step]
  cases phase : s.phase with
  | finishing key generation submitted =>
    obtain ⟨_, current, held, _⟩ := safe.finishing phase
    dsimp only
    rcases finish_cases held generation submitted with ⟨rfl, rfl, finished⟩ | ⟨older, finished⟩
    · rw [finished]
      exact .forgotten phase held
    · rw [finished]
      exact .released phase held older
  | _ => exact .quiet (.refl s)

theorem Safe.step_moved (event : Step T) : Moved s (s.step hasSubmit event) := by
  cases event with
  | offer name task =>
    cases task with
    | none => exact .quiet (.refl s)
    | some task => exact .offer name task
  | next => exact safe.step_next
  | submit ok => exact step_submit ok
  | finish => exact safe.step_finish
  | _ =>
    exact .quiet (step_quiet _ rfl)

theorem Safe.refused (name : String) (task : T) :
    ({ s with log := .offered name task false :: s.log } : State T).Safe := by
  have foreign : ∀ key, ¬(name = key ∧ false = true) := fun _ both => nomatch both.2
  refine ⟨safe.aligned, ?_, fun key entry held => ?_, fun key task last => ?_⟩
  · have placed := safe.placed
    unfold Placed at placed ⊢
    cases phase : s.phase with
    | dispatching | signalling _ | stopped => trivial
    | parked | retrying | submitting _ _ => simpa [phase] using placed
    | finishing flying _ _ =>
      simp only [phase, (offered_other (foreign flying)).2] at placed ⊢
      exact placed
  · rw [(offered_other (foreign key)).1]
    exact safe.latest key entry held
  · rw [(offered_other (foreign key)).1] at last
    rw [(offered_other (foreign key)).2]
    exact safe.kept key task last

theorem Safe.accepted (accepts : Accepts s.queue key task queue) :
    ({ s with queue := queue, signals := s.signals + 1, log := .offered key task true :: s.log } : State T).Safe := by
  obtain ⟨⟨written, own, newest, _⟩, unchanged⟩ := accepts.lookup
  have foreign : ∀ other, other ≠ key → ¬(key = other ∧ true = true) := fun _ different both => different both.1.symm
  refine ⟨safe.aligned.offer accepts, ?_, fun other entry held => ?_, fun other task last => ?_⟩
  · exact safe.placed.offer accepts _ fun other different => (offered_other (foreign other different)).2
  · rcases eq_or_ne other key with rfl | different
    · rw [own] at held
      cases held
      simp [lastAccepted, newest]
    · rw [unchanged other different] at held
      rw [(offered_other (foreign other different)).1]
      exact safe.latest other entry held
  · rcases eq_or_ne other key with rfl | different
    · exact .inl (Finmap.mem_of_lookup_eq_some own)
    · rw [(offered_other (foreign other different)).1] at last
      rw [(offered_other (foreign other different)).2]
      refine (safe.kept other task last).imp_left fun member => ?_
      obtain ⟨entry, held⟩ := Finmap.mem_iff.mp member
      exact Finmap.mem_of_lookup_eq_some ((unchanged other different).trans held)

/-- An entry that is taken or released keeps its task. -/
theorem Safe.latest_write {current : OverflowEntry T} (held : s.queue.entries.lookup key = some entry)
    {inflight : Bool} {other : String}
    (found : (s.queue.entries.insert key { entry with inflight := inflight }).lookup other = some current) :
    lastAccepted other s.log = some current.task := by
  rcases FiniteMap.lookup_insert_eq_some_iff.mp found with ⟨rfl, rfl⟩ | ⟨_, before⟩
  · exact safe.latest other entry held
  · exact safe.latest other current before

theorem Safe.submitted (phase : s.phase = .submitting key entry) :
    ({ s with phase := .finishing key entry.generation true, log := .submitted key entry.task :: s.log } : State T).Safe := by
  obtain ⟨aligned, current, held, inflight, behind, same⟩ := safe.submitting phase
  refine ⟨aligned, ⟨current, held, inflight, behind, fun _ equal => ?_⟩, safe.latest, fun other task last => ?_⟩
  · simp [submittedSince, same equal]
  · refine (safe.kept other task last).imp_right fun member => ?_
    rw [submittedSince]
    split_ifs
    · exact List.mem_cons_of_mem _ member
    · exact member

theorem Safe.forgotten {current : OverflowEntry T} (phase : s.phase = .finishing key current.generation true)
    (held : s.queue.entries.lookup key = some current) :
    ({ s with queue := { s.queue with entries := s.queue.entries.erase key }, phase := .dispatching } : State T).Safe := by
  obtain ⟨aligned, retained, present, inflight, _, done⟩ := safe.finishing phase
  obtain rfl : retained = current := Option.some.inj (present.symm.trans held)
  refine ⟨aligned.forget held inflight, trivial, fun other entry found => ?_, fun other task last => ?_⟩
  · exact safe.latest other entry (FiniteMap.lookup_erase_eq_some_iff.mp found).2
  · rcases eq_or_ne other key with rfl | different
    · have latest := safe.latest other retained held
      rw [last, Option.some_inj] at latest
      exact .inr (latest ▸ done rfl rfl)
    · refine (safe.kept other task last).imp_left fun member => ?_
      exact Finmap.mem_erase.mpr ⟨different, member⟩

theorem Safe.moved (moved : Moved s t) : t.Safe := by
  cases moved with
  | quiet quiet => exact safe.quiet quiet
  | refused name task => exact safe.refused name task
  | accepted accepts => exact safe.accepted accepts
  | taken phase listed held =>
    have aligned : Aligned s.queue none := by simpa [phase, Phase.flight] using safe.aligned
    refine ⟨aligned.next listed held, ?_, fun other current found => safe.latest_write held found, fun other task last => ?_⟩
    · exact ⟨_, Finmap.lookup_insert _, rfl, Nat.le_refl _, fun _ => rfl⟩
    · exact (safe.kept other task last).imp_left fun member => Finmap.mem_insert.mpr (.inr member)
  | submitted phase => exact safe.submitted phase
  | unsubmitted phase =>
    obtain ⟨aligned, current, held, inflight, behind, _⟩ := safe.submitting phase
    exact ⟨aligned, ⟨current, held, inflight, behind, fun impossible => nomatch impossible⟩, safe.latest, safe.kept⟩
  | forgotten phase held => exact safe.forgotten phase held
  | released phase held _ =>
    obtain ⟨aligned, retained, present, inflight, _⟩ := safe.finishing phase
    obtain rfl := Option.some.inj (present.symm.trans held)
    refine ⟨aligned.release held inflight, trivial, fun other current found => safe.latest_write held found,
      fun other task last => ?_⟩
    exact (safe.kept other task last).imp_left fun member => Finmap.mem_insert.mpr (.inr member)

end

theorem Moved.max (moved : Moved s t) : t.queue.max = s.queue.max := by
  cases moved with
  | quiet quiet => exact quiet.max
  | accepted accepts => cases accepts <;> rfl
  | _ => rfl

/-- A new queue and what happens to it. -/
def after (max : ℤ) (hasSubmit : Bool) (history : List (Step T)) : State T :=
  history.foldl (State.step hasSubmit) { queue := newOverflowQueue max }

theorem after_append {max : ℤ} {history : List (Step T)} {event : Step T} :
    after max hasSubmit (history ++ [event]) = (after max hasSubmit history).step hasSubmit event := by
  rw [after, List.foldl_append]
  rfl

theorem after_safe (max : ℤ) (hasSubmit : Bool) (history : List (Step T)) : (after max hasSubmit history).Safe := by
  induction history using List.reverseRecOn with
  | nil =>
    have nothing : ∀ key entry, (after max hasSubmit ([] : List (Step T))).queue.entries.lookup key ≠ some entry := by
      intro key entry held
      exact nomatch (Finmap.lookup_empty key).symm.trans held
    refine ⟨⟨List.nodup_nil, ?_, ?_, Nat.zero_le _⟩, fun some => absurd rfl some, ?_, ?_⟩
    · exact fun key => iff_of_false List.not_mem_nil fun ⟨entry, held, _⟩ => nothing key entry held
    · exact fun key entry held => absurd held (nothing key entry)
    · exact fun key entry held => absurd held (nothing key entry)
    · exact fun key task impossible => nomatch impossible
  | append_singleton earlier event ih =>
    rw [after_append]
    exact ih.moved (ih.step_moved event)

theorem after_max (max : ℤ) (hasSubmit : Bool) (history : List (Step T)) :
    (after max hasSubmit history).queue.max = (newOverflowQueue max : OverflowQueue T).max := by
  induction history using List.reverseRecOn with
  | nil => rfl
  | append_singleton earlier event ih =>
    rw [after_append, ((after_safe max hasSubmit earlier).step_moved event).max, ih]

theorem Moved.generation_le {bound : ℕ} (moved : Moved s t)
    (below : ∀ key entry, s.queue.entries.lookup key = some entry → entry.generation ≤ bound) :
    ∀ key entry, t.queue.entries.lookup key = some entry → entry.generation ≤ bound + 1 := by
  intro key entry held
  cases moved with
  | quiet quiet => exact Nat.le_succ_of_le (below key entry (quiet.entries ▸ held))
  | refused | submitted | unsubmitted => exact Nat.le_succ_of_le (below key entry held)
  | accepted accepts =>
    cases accepts with
    | @replaced existing before =>
      rcases FiniteMap.lookup_insert_eq_some_iff.mp held with ⟨rfl, rfl⟩ | ⟨_, other⟩
      · exact Nat.succ_le_succ (below _ existing before)
      · exact Nat.le_succ_of_le (below key entry other)
    | retained =>
      rcases FiniteMap.lookup_insert_eq_some_iff.mp held with ⟨rfl, rfl⟩ | ⟨_, other⟩
      · exact Nat.succ_le_succ (Nat.zero_le bound)
      · exact Nat.le_succ_of_le (below key entry other)
  | taken _ _ before | released _ before _ =>
    rcases FiniteMap.lookup_insert_eq_some_iff.mp held with ⟨rfl, rfl⟩ | ⟨_, other⟩
    · have same := below _ _ before
      exact Nat.le_succ_of_le same
    · exact Nat.le_succ_of_le (below key entry other)
  | forgotten => exact Nat.le_succ_of_le (below key entry (FiniteMap.lookup_erase_eq_some_iff.mp held).2)

/-- Each step moves a generation on by one at most, so 64 bits hold it for as many steps. -/
theorem after_generation_le (max : ℤ) (hasSubmit : Bool) (history : List (Step T)) :
    ∀ key entry, (after max hasSubmit history).queue.entries.lookup key = some entry → entry.generation ≤ history.length := by
  induction history using List.reverseRecOn with
  | nil =>
    intro key entry held
    exact nomatch (Finmap.lookup_empty key).symm.trans held
  | append_singleton earlier event ih =>
    rw [after_append, List.length_append]
    exact ((after_safe max hasSubmit earlier).step_moved event).generation_le ih

/-- The identities in the order of their turns: those that the dispatcher took, oldest first, and those that wait. -/
def line (s : State T) : List String :=
  (s.log.filterMap fun | .taken key => some key | _ => none).reverse ++ s.queue.order

theorem Moved.line (moved : Moved s t) : s.line <+: t.line := by
  cases moved with
  | quiet quiet => rw [State.line, State.line, quiet.log, quiet.order]
  | accepted accepts =>
    -- An identity that is retained already keeps its place.
    cases accepts <;> simp [State.line]
  | taken _ listed _ => simp [State.line, listed]
  | released _ _ _ => exact ⟨[_], List.append_assoc _ _ _⟩
  | _ => exact List.prefix_rfl

theorem line_extends {max : ℤ} (history later : List (Step T)) :
    (after max hasSubmit history).line <+: (after max hasSubmit (history ++ later)).line := by
  induction later using List.reverseRecOn with
  | nil => rw [List.append_nil]
  | append_singleton later event ih =>
    rw [← List.append_assoc, after_append]
    exact ih.trans ((after_safe max hasSubmit _).step_moved event).line

/-- Nobody overtakes: identities are taken in the order in which they were listed, whatever is offered, refused or listed again
meanwhile. An identity that is retained keeps its place when it is offered again, and one whose submission failed or was
outdated goes to the end. -/
theorem line_grows (max : ℤ) (hasSubmit : Bool) (history : List (Step T)) :
    (∀ later, (after max hasSubmit history).line <+: (after max hasSubmit (history ++ later)).line) ∧
    (∀ name task, offerKey name ∈ (after max hasSubmit history).queue.entries →
      (after max hasSubmit (history ++ [.offer name (some task)])).line = (after max hasSubmit history).line) ∧
    ∀ key generation submitted entry, (after max hasSubmit history).phase = .finishing key generation submitted →
      (after max hasSubmit history).queue.entries.lookup key = some entry →
      ¬(entry.generation = generation ∧ submitted = true) →
      (after max hasSubmit (history ++ [.finish])).line = (after max hasSubmit history).line ++ [key] := by
  refine ⟨line_extends history, ?_, ?_⟩
  · intro name task retained
    obtain ⟨entry, held⟩ := Finmap.mem_iff.mp retained
    rw [after_append]
    simp only [step, OverflowQueue.offer, held]
    split_ifs <;> rfl
  · intro key generation submitted entry phase held older
    rw [after_append]
    simp only [step, phase]
    rcases finish_cases held generation submitted with ⟨same, done, _⟩ | ⟨_, finished⟩
    · exact absurd ⟨same, done⟩ older
    · rw [finished]
      exact (List.append_assoc _ _ _).symm

/-- The promises of a queue for the given number of identities. -/
structure LosesNothing (max : ℕ) (s : State T) : Prop where
  /-- A retained identity is in flight, or in the order exactly once. -/
  placed : ∀ key entry, s.queue.entries.lookup key = some entry →
    (entry.inflight = true ∧ s.phase.flight = some key ∧ s.queue.order.count key = 0) ∨
      (entry.inflight = false ∧ s.queue.order.count key = 1)
  /-- The order lists nothing else. -/
  listed : ∀ key ∈ s.queue.order, key ∈ s.queue.entries
  bounded : s.queue.entries.keys.card ≤ max
  /-- The task of the last accepted offer is still retained or was submitted since. -/
  kept : ∀ key task, lastAccepted key s.log = some task →
    (∃ entry, s.queue.entries.lookup key = some entry ∧ entry.task = task) ∨ task ∈ submittedSince key s.log
  /-- A parked dispatcher with work has a wake-up pending or about to be sent. -/
  woken : s.phase = .parked → s.queue.entries ≠ ∅ → s.wake = true ∨ 0 < s.signals

/-- Whatever is offered, submitted, refused, closed and cancelled in whatever order, the queue keeps its promises. -/
theorem overflow_losesNothing (max : ℤ) (hasSubmit : Bool) (history : List (Step T)) :
    LosesNothing (newOverflowQueue max : OverflowQueue T).max (after max hasSubmit history) where
  placed key entry held := by
    have aligned := (after_safe max hasSubmit history).aligned
    have member := aligned.listed key
    cases inflight : entry.inflight with
    | true =>
        refine .inl ⟨rfl, aligned.flown key entry held inflight, List.count_eq_zero.mpr (aligned.fresh fun other found => ?_)⟩
        rw [held] at found
        cases found
        exact inflight
    | false => exact .inr ⟨rfl, List.count_eq_one_of_mem aligned.distinct (member.mpr ⟨entry, held, inflight⟩)⟩
  listed key member := by
    obtain ⟨entry, held, _⟩ := ((after_safe max hasSubmit history).aligned.listed key).mp member
    exact Finmap.mem_of_lookup_eq_some held
  bounded := after_max max hasSubmit history ▸ (after_safe max hasSubmit history).aligned.bounded
  kept key task last := by
    have safe := after_safe max hasSubmit history
    refine (safe.kept key task last).imp_left fun member => ?_
    obtain ⟨entry, held⟩ := Finmap.mem_iff.mp member
    refine ⟨entry, held, ?_⟩
    have latest := safe.latest key entry held
    rw [last, Option.some_inj] at latest
    exact latest.symm
  woken parked := by
    have placed := (after_safe max hasSubmit history).placed
    simpa only [Placed, parked] using placed

end State

end Spotter.Providers.Overflow
