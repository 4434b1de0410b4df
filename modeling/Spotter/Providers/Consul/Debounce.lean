import Mathlib.Order.Nat
import Spotter.Library.LeadsTo
import Spotter.Providers.Consul.WatchIndex

/-! # The debouncer of the Consul monitor

The watcher goroutine stamps each observed change and leaves the time and a signal in two channels of one slot each; a send
into a full slot is dropped. The updater goroutine takes a signal with whatever time is there, waits until no signal came for a
while and then dispatches the handlers with the earliest time it took. Each send, receive and clock reading is a step of its own.

A time is the number of nanoseconds on the monitor's clock. A variable that was not set holds the language's zero time, which
the clock never shows; it is none here, and handlers that want a time are not called with it.
-/

namespace Spotter.Providers.Consul

open Library

theorem refreshIdleTime_le_periodicCheckTime : refreshIdleTime ≤ periodicCheckTime := by decide

/-- Where `watchConsul` is. -/
inductive WatcherPhase where
  | watching
  /-- A change was observed at the given time, which is still to be sent. -/
  | observed (watchAt : ℕ)
  | signalling
  | stopped
deriving DecidableEq

/-- Where `updateRecord` is. -/
inductive UpdaterPhase where
  | selecting
  /-- A signal was received. -/
  | received
  /-- About to read the clock for the last change. -/
  | timing
  /-- About to set the timer. -/
  | arming
  /-- The timer fired. -/
  | checking
  | dispatching
  | stopped
deriving DecidableEq

structure Debouncer where
  clock : ℕ
  change : Bool := false
  timestamps : Option ℕ := none
  watcher : WatcherPhase := .watching
  updater : UpdaterPhase := .arming
  lastChange : Option ℕ := none
  firstWatchAt : Option ℕ := none
  /-- The time at which the timer fires. -/
  periodicCheck : ℕ := 0
  cancelled : Bool := false

/-- The ready case that a select picks. -/
inductive SelectCase where
  | change
  | timer
  | done
deriving DecidableEq

/-- Everything that can happen. -/
inductive DebounceStep where
  | tick (elapsed : ℕ)
  /-- A query returns a changed index. -/
  | observe
  /-- The watcher goes on; a cancelled one may leave. -/
  | watcher (leave : Bool)
  | updater (pick : SelectCase)
  | cancel
deriving DecidableEq

/-- The earlier of the two times, if both are set. -/
def earlierWatch (firstWatchAt watchAt : Option ℕ) : Option ℕ :=
  match firstWatchAt, watchAt with
  | none, watchAt => watchAt
  | some first, none => some first
  | some first, some watchAt => if watchAt < first then some watchAt else some first

namespace Debouncer

/-- The watcher's next send. With a cancelled context a full slot makes it leave. -/
def watch (s : Debouncer) (leave : Bool) : Debouncer :=
  match s.watcher with
  | .watching => if s.cancelled then { s with watcher := .stopped } else s
  | .observed watchAt =>
    if s.cancelled && (leave || s.timestamps.isSome) then { s with watcher := .stopped }
    else { s with timestamps := s.timestamps.or (some watchAt), watcher := .signalling }
  | .signalling =>
    if s.cancelled && (leave || s.change) then { s with watcher := .stopped }
    else { s with change := true, watcher := .watching }
  | .stopped => s

/-- The select of the updater; it waits if no case is ready. -/
def select (s : Debouncer) (pick : SelectCase) : Debouncer :=
  if s.cancelled ∧ pick = .done then { s with updater := .stopped }
  else if s.periodicCheck ≤ s.clock ∧ pick = .timer then { s with updater := .checking }
  else if s.change then { s with change := false, updater := .received }
  else if s.periodicCheck ≤ s.clock then { s with updater := .checking }
  else if s.cancelled then { s with updater := .stopped }
  else s

/-- The updater's next step. -/
def update (s : Debouncer) (pick : SelectCase) : Debouncer :=
  match s.updater with
  | .selecting => s.select pick
  | .received =>
    { s with timestamps := none, firstWatchAt := earlierWatch s.firstWatchAt s.timestamps, updater := .timing }
  | .timing => { s with lastChange := some s.clock, updater := .arming }
  | .arming => { s with periodicCheck := s.clock + periodicCheckTime, updater := .selecting }
  | .checking =>
    { s with updater := if s.lastChange.any fun last => decide (last + refreshIdleTime ≤ s.clock) then .dispatching else .arming }
  | .dispatching => { s with lastChange := none, firstWatchAt := none, updater := .arming }
  | .stopped => s

def step (s : Debouncer) : DebounceStep → Debouncer
  | .tick elapsed => { s with clock := s.clock + elapsed }
  | .observe =>
    match s.watcher with
    | .watching => { s with watcher := .observed s.clock }
    | .observed _ | .signalling | .stopped => s
  | .watcher leave => s.watch leave
  | .updater pick => s.update pick
  | .cancel => { s with cancelled := true }

/-- The state after some steps, with the clock at some time when the monitor starts. -/
def run (start : ℕ) (schedule : ℕ → DebounceStep) : ℕ → Debouncer
  | 0 => { clock := start }
  | n + 1 => (run start schedule n).step (schedule n)

variable {s : Debouncer} {event : DebounceStep} {w : ℕ}

/-- What a step can do. -/
inductive Moved (s : Debouncer) : DebounceStep → Debouncer → Prop where
  | idle (event : DebounceStep) : Moved s event s
  | ticked (elapsed : ℕ) : Moved s (.tick elapsed) { s with clock := s.clock + elapsed }
  | observed (watching : s.watcher = .watching) : Moved s .observe { s with watcher := .observed s.clock }
  | stamped {watchAt : ℕ} (held : s.watcher = .observed watchAt) (leave : Bool) :
      Moved s (.watcher leave) { s with timestamps := s.timestamps.or (some watchAt), watcher := .signalling }
  | signalled (held : s.watcher = .signalling) (leave : Bool) :
      Moved s (.watcher leave) { s with change := true, watcher := .watching }
  | left (cancelled : s.cancelled = true) (leave : Bool) : Moved s (.watcher leave) { s with watcher := .stopped }
  | received (selecting : s.updater = .selecting) (ready : s.change = true) (pick : SelectCase) :
      Moved s (.updater pick) { s with change := false, updater := .received }
  | fired (selecting : s.updater = .selecting) (due : s.periodicCheck ≤ s.clock) (pick : SelectCase) :
      Moved s (.updater pick) { s with updater := .checking }
  | quit (cancelled : s.cancelled = true) (pick : SelectCase) : Moved s (.updater pick) { s with updater := .stopped }
  | took (held : s.updater = .received) (pick : SelectCase) :
      Moved s (.updater pick)
        { s with timestamps := none, firstWatchAt := earlierWatch s.firstWatchAt s.timestamps, updater := .timing }
  | timed (held : s.updater = .timing) (pick : SelectCase) :
      Moved s (.updater pick) { s with lastChange := some s.clock, updater := .arming }
  | armed (held : s.updater = .arming) (pick : SelectCase) :
      Moved s (.updater pick) { s with periodicCheck := s.clock + periodicCheckTime, updater := .selecting }
  | passed (held : s.updater = .checking) {last : ℕ} (set : s.lastChange = some last) (idle : last + refreshIdleTime ≤ s.clock)
      (pick : SelectCase) : Moved s (.updater pick) { s with updater := .dispatching }
  | failed (held : s.updater = .checking) (busy : ∀ last, s.lastChange = some last → ¬last + refreshIdleTime ≤ s.clock)
      (pick : SelectCase) : Moved s (.updater pick) { s with updater := .arming }
  | dispatched (held : s.updater = .dispatching) (pick : SelectCase) :
      Moved s (.updater pick) { s with lastChange := none, firstWatchAt := none, updater := .arming }
  | cancelled : Moved s .cancel { s with cancelled := true }

theorem watch_moved (s : Debouncer) (leave : Bool) : Moved s (.watcher leave) (s.watch leave) := by
  unfold watch
  cases held : s.watcher with
  | watching =>
    dsimp only
    split_ifs with cancelled
    · exact .left cancelled leave
    · exact .idle _
  | observed watchAt =>
    dsimp only
    split_ifs with gone
    · exact .left (Bool.and_eq_true_iff.mp gone).1 leave
    · exact .stamped held leave
  | signalling =>
    dsimp only
    split_ifs with gone
    · exact .left (Bool.and_eq_true_iff.mp gone).1 leave
    · exact .signalled held leave
  | stopped => exact .idle _

theorem select_moved (selecting : s.updater = .selecting) (pick : SelectCase) : Moved s (.updater pick) (s.select pick) := by
  unfold select
  split_ifs with done timer ready due cancelled
  · exact .quit done.1 pick
  · exact .fired selecting timer.1 pick
  · exact .received selecting ready pick
  · exact .fired selecting due pick
  · exact .quit cancelled pick
  · exact .idle _

theorem update_moved (s : Debouncer) (pick : SelectCase) : Moved s (.updater pick) (s.update pick) := by
  unfold update
  cases held : s.updater with
  | selecting => exact select_moved held pick
  | received => exact .took held pick
  | timing => exact .timed held pick
  | arming => exact .armed held pick
  | checking =>
    dsimp only
    split_ifs with idle
    · obtain ⟨last, set, enough⟩ := (Option.any_eq_true _ _).mp idle
      exact .passed held set (of_decide_eq_true enough) pick
    · refine .failed held (fun last set enough => idle ?_) pick
      rw [set, Option.any_some, decide_eq_true_eq]
      exact enough
  | dispatching => exact .dispatched held pick
  | stopped => exact .idle _

theorem step_moved (s : Debouncer) (event : DebounceStep) : Moved s event (s.step event) := by
  cases event with
  | tick elapsed => exact .ticked elapsed
  | observe =>
    unfold step
    cases held : s.watcher with
    | watching => exact .observed held
    | observed _ | signalling | stopped => exact .idle _
  | watcher leave => exact watch_moved s leave
  | updater pick => exact update_moved s pick
  | cancel => exact .cancelled

/-! ## The origin of a dispatch -/

/-- No time that is kept anywhere lies ahead of the clock. -/
structure Past (s : Debouncer) : Prop where
  sent : ∀ t, s.timestamps = some t → t ≤ s.clock
  first : ∀ t, s.firstWatchAt = some t → t ≤ s.clock
  last : ∀ t, s.lastChange = some t → t ≤ s.clock
  held : ∀ t, s.watcher = .observed t → t ≤ s.clock

theorem earlierWatch_of_some (first : Option ℕ) (watchAt : ℕ) :
    ∃ t, earlierWatch first (some watchAt) = some t ∧ t ≤ watchAt ∧ (first = some t ∨ watchAt = t) ∧ ∀ f, first = some f → t ≤ f := by
  cases first with
  | none => exact ⟨watchAt, rfl, le_rfl, .inr rfl, fun _ impossible => nomatch impossible⟩
  | some first =>
    by_cases earlier : watchAt < first
    · refine ⟨watchAt, if_pos earlier, le_rfl, .inr rfl, fun f same => ?_⟩
      cases same
      omega
    · refine ⟨first, if_neg earlier, by omega, .inl rfl, fun f same => ?_⟩
      cases same
      exact le_rfl

theorem earlierWatch_none (first : Option ℕ) : earlierWatch first none = first := by
  cases first with
  | none | some _ => rfl

theorem Past.step (past : s.Past) (event : DebounceStep) : (s.step event).Past := by
  obtain ⟨sent, first, last, held⟩ := past
  have moved := step_moved s event
  generalize s.step event = next at moved
  cases moved with
  | idle => exact ⟨sent, first, last, held⟩
  | ticked elapsed =>
    refine ⟨fun t set => ?_, fun t set => ?_, fun t set => ?_, fun t set => ?_⟩
    · exact (sent t set).trans (Nat.le_add_right _ _)
    · exact (first t set).trans (Nat.le_add_right _ _)
    · exact (last t set).trans (Nat.le_add_right _ _)
    · exact (held t set).trans (Nat.le_add_right _ _)
  | observed =>
    refine ⟨sent, first, last, fun t same => ?_⟩
    cases same
    exact le_rfl
  | stamped own =>
    refine ⟨fun t set => ?_, first, last, fun t impossible => nomatch impossible⟩
    rcases Option.or_eq_some_iff.mp set with before | ⟨_, now⟩
    · exact sent t before
    · cases now
      exact held _ own
  | signalled | left => exact ⟨sent, first, last, fun t impossible => nomatch impossible⟩
  | took =>
    refine ⟨(fun t impossible => nomatch impossible), fun t set => ?_, last, held⟩
    cases slot : s.timestamps with
    | none =>
      rw [slot, earlierWatch_none] at set
      exact first t set
    | some watchAt =>
      obtain ⟨earliest, found, bound, _⟩ := earlierWatch_of_some s.firstWatchAt watchAt
      rw [slot, found, Option.some_inj] at set
      exact set ▸ bound.trans (sent watchAt slot)
  | timed =>
    refine ⟨sent, first, fun t same => ?_, held⟩
    cases same
    exact le_rfl
  | dispatched => exact ⟨sent, (fun t impossible => nomatch impossible), (fun t impossible => nomatch impossible), held⟩
  | _ => exact ⟨sent, first, last, held⟩

/-- The next origin is not later than the given time: it was taken already, is the next one to be taken or the next one to be
sent, or there will be none. -/
def Covered (s : Debouncer) (w : ℕ) : Prop :=
  (∃ t, s.firstWatchAt = some t ∧ t ≤ w) ∨ s.firstWatchAt = none ∧ ((∃ t, s.timestamps = some t ∧ t ≤ w) ∨ s.timestamps = none ∧
      ((∃ t, s.watcher = .observed t ∧ t ≤ w) ∨ s.watcher = .stopped))

/-- The step dispatches the handlers with a time. -/
def Stamps (s : Debouncer) (event : DebounceStep) : Prop :=
  (∃ pick, event = .updater pick) ∧ s.updater = .dispatching ∧ s.firstWatchAt ≠ none

theorem Past.covered (past : s.Past) (watching : s.watcher = .watching) : (s.step .observe).Covered s.clock := by
  have result : s.step .observe = { s with watcher := .observed s.clock } := by simp only [Debouncer.step, watching]
  rw [result]
  cases first : s.firstWatchAt with
  | some t => exact .inl ⟨t, rfl, past.first t first⟩
  | none =>
    refine .inr ⟨rfl, ?_⟩
    cases slot : s.timestamps with
    | some t => exact .inl ⟨t, rfl, past.sent t slot⟩
    | none => exact .inr ⟨rfl, .inl ⟨s.clock, rfl, le_rfl⟩⟩

theorem Covered.step (covered : s.Covered w) (quiet : ¬s.Stamps event) : (s.step event).Covered w := by
  have moved := step_moved s event
  generalize s.step event = next at moved
  cases moved with
  | observed watching =>
    refine covered.imp_right fun ⟨unset, rest⟩ => ⟨unset, rest.imp_right fun ⟨empty, held⟩ => ⟨empty, .inl ?_⟩⟩
    rcases held with ⟨t, held, _⟩ | stopped
    · rw [watching] at held
      cases held
    · rw [watching] at stopped
      cases stopped
  | stamped held =>
    refine covered.imp_right fun ⟨unset, rest⟩ => ⟨unset, .inl ?_⟩
    rcases rest with ⟨t, sent, bound⟩ | ⟨empty, ⟨t, own, bound⟩ | stopped⟩
    · exact ⟨t, by simp [sent], bound⟩
    · rw [held] at own
      cases own
      exact ⟨_, by simp [empty], bound⟩
    · rw [held] at stopped
      cases stopped
  | signalled held =>
    refine covered.imp_right fun ⟨unset, rest⟩ => ⟨unset, rest.imp_right fun ⟨empty, other⟩ => ⟨empty, ?_⟩⟩
    rcases other with ⟨t, own, _⟩ | stopped
    · rw [held] at own
      cases own
    · rw [held] at stopped
      cases stopped
  | left => exact covered.imp_right fun ⟨unset, rest⟩ => ⟨unset, rest.imp_right fun ⟨empty, _⟩ => ⟨empty, .inr rfl⟩⟩
  | took =>
    cases slot : s.timestamps with
    | none =>
      dsimp only [Covered]
      rw [earlierWatch_none]
      refine covered.imp_right fun ⟨unset, rest⟩ => ⟨unset, .inr ⟨rfl, ?_⟩⟩
      rcases rest with ⟨t, sent, _⟩ | ⟨_, other⟩
      · rw [slot] at sent
        cases sent
      · exact other
    | some watchAt =>
      obtain ⟨earliest, found, bound, _, least⟩ := earlierWatch_of_some s.firstWatchAt watchAt
      refine .inl ⟨earliest, found, ?_⟩
      rcases covered with ⟨t, set, early⟩ | ⟨_, ⟨t, sent, early⟩ | ⟨empty, _⟩⟩
      · exact (least t set).trans early
      · rw [slot, Option.some_inj] at sent
        exact bound.trans (sent ▸ early)
      · rw [slot] at empty
        cases empty
  | dispatched held =>
    have unset : s.firstWatchAt = none := by
      by_contra set
      exact quiet ⟨⟨_, rfl⟩, held, set⟩
    rcases covered with ⟨t, set, _⟩ | ⟨_, rest⟩
    · rw [unset] at set
      cases set
    · exact .inr ⟨rfl, rest⟩
  | _ => exact covered

/-! ## After the last change -/

/-- The context is not cancelled, and the step neither observes a change nor dispatches with a time. -/
structure Calm (s : Debouncer) (event : DebounceStep) : Prop where
  alive : s.cancelled = false
  uncancelled : event ≠ .cancel
  unobserved : event = .observe → s.watcher ≠ .watching
  unstamped : ¬s.Stamps event

theorem Calm.not_cancelled (calm : s.Calm event) : ¬s.cancelled = true := by
  rw [calm.alive]
  exact Bool.false_ne_true

/-- A time is on its way to the next dispatch. -/
def Stamped (s : Debouncer) : Prop := s.timestamps ≠ none ∨ s.firstWatchAt ≠ none

theorem Stamped.took (stamped : s.Stamped) : earlierWatch s.firstWatchAt s.timestamps ≠ none := by
  cases slot : s.timestamps with
  | none =>
    rw [earlierWatch_none]
    exact stamped.resolve_left fun sent => sent slot
  | some watchAt =>
    obtain ⟨t, found, _⟩ := earlierWatch_of_some s.firstWatchAt watchAt
    rw [found]
    exact Option.some_ne_none t

/-- Once the watcher has sent its time the slot is full, whoever's time it holds. -/
theorem Stamped.sent (watchAt : ℕ) :
    ({ s with timestamps := s.timestamps.or (some watchAt), watcher := .signalling } : Debouncer).Stamped := by
  refine .inl ?_
  rw [Option.ne_none_iff_isSome, Option.isSome_or]
  exact Bool.or_true _

theorem Stamped.step (stamped : s.Stamped) (calm : s.Calm event) : (s.step event).Stamped := by
  have moved := step_moved s event
  generalize s.step event = next at moved
  cases moved with
  | stamped => exact .sent _
  | took => exact .inr stamped.took
  | dispatched held =>
    refine stamped.imp_right fun set => absurd ?_ calm.unstamped
    exact ⟨⟨_, rfl⟩, held, set⟩
  | _ =>
    exact stamped

/-- The watcher has left its time and is about to signal. -/
structure Signalling (s : Debouncer) : Prop where
  watcher : s.watcher = .signalling
  stamped : s.Stamped

/-- The last signal is waiting for the updater. -/
structure Waiting (s : Debouncer) : Prop where
  ready : s.change = true
  watcher : s.watcher = .watching
  stamped : s.Stamped

/-- The updater has received the last signal. -/
structure Delivered (s : Debouncer) : Prop where
  updater : s.updater = .received
  none : s.change = false
  watcher : s.watcher = .watching
  stamped : s.Stamped

/-- What the updater knows about its last change while it waits to dispatch. -/
def Timed (s : Debouncer) : Prop :=
  match s.updater with
  | .timing | .dispatching => True
  | .arming => ∃ last, s.lastChange = some last ∧ last ≤ s.clock
  | .selecting => ∃ last, s.lastChange = some last ∧ last + refreshIdleTime ≤ s.periodicCheck
  | .checking => ∃ last, s.lastChange = some last ∧ last + refreshIdleTime ≤ s.clock
  | .received | .stopped => False

/-- The updater has its time, and no signal will come any more. -/
structure Ripe (s : Debouncer) : Prop where
  first : s.firstWatchAt ≠ none
  none : s.change = false
  watcher : s.watcher = .watching
  timed : s.Timed

/-- How far the updater is from its dispatch. -/
def rank (s : Debouncer) : ℕ :=
  match s.updater with
  | .dispatching => 0
  | .checking => 1
  | .selecting => 2
  | .arming => 3
  | .timing => 4
  | .received => 5
  | .stopped => 6

theorem observed_step (held : s.watcher = .observed w) (calm : s.Calm event) :
    (s.step event).watcher = .observed w ∨ (s.step event).Signalling := by
  have moved := step_moved s event
  generalize s.step event = next at moved
  cases moved with
  | observed watching =>
    rw [held] at watching
    cases watching
  | stamped => exact .inr ⟨rfl, .sent _⟩
  | signalled own =>
    rw [held] at own
    cases own
  | left cancelled => exact absurd cancelled calm.not_cancelled
  | _ => exact .inl held

theorem Signalling.step (signalling : s.Signalling) (calm : s.Calm event) :
    (s.step event).Signalling ∨ (s.step event).Waiting := by
  have stamped := signalling.stamped.step calm
  have moved := step_moved s event
  generalize s.step event = next at moved stamped
  cases moved with
  | observed watching =>
    rw [signalling.watcher] at watching
    cases watching
  | stamped own =>
    rw [signalling.watcher] at own
    cases own
  | signalled => exact .inr ⟨rfl, rfl, stamped⟩
  | left cancelled => exact absurd cancelled calm.not_cancelled
  | _ =>
    exact .inl ⟨signalling.watcher, stamped⟩

theorem Waiting.step (waiting : s.Waiting) (calm : s.Calm event) : (s.step event).Waiting ∨ (s.step event).Delivered := by
  have stamped := waiting.stamped.step calm
  have moved := step_moved s event
  generalize s.step event = next at moved stamped
  cases moved with
  | observed watching => exact absurd watching (calm.unobserved rfl)
  | stamped own | signalled own =>
    rw [waiting.watcher] at own
    cases own
  | left cancelled => exact absurd cancelled calm.not_cancelled
  | received => exact .inr ⟨rfl, rfl, waiting.watcher, stamped⟩
  | _ =>
    exact .inl ⟨waiting.ready, waiting.watcher, stamped⟩

theorem Delivered.step (delivered : s.Delivered) (calm : s.Calm event) : (s.step event).Delivered ∨ (s.step event).Ripe := by
  have moved := step_moved s event
  generalize s.step event = next at moved
  cases moved with
  | idle | ticked => exact .inl ⟨delivered.updater, delivered.none, delivered.watcher, delivered.stamped⟩
  | observed watching => exact absurd watching (calm.unobserved rfl)
  | stamped own | signalled own =>
    rw [delivered.watcher] at own
    cases own
  | left cancelled | quit cancelled => exact absurd cancelled calm.not_cancelled
  | took => exact .inr ⟨delivered.stamped.took, delivered.none, delivered.watcher, trivial⟩
  | received own | fired own | timed own | armed own | passed own | failed own | dispatched own =>
    rw [delivered.updater] at own
    cases own
  | cancelled => exact absurd rfl calm.uncancelled

/-- A ripe updater stays ripe, and waits where it is or comes closer to its dispatch. -/
theorem Ripe.step (ripe : s.Ripe) (calm : s.Calm event) : (s.step event).Ripe ∧
      ((s.step event).rank < s.rank ∨ (s.step event).rank = s.rank ∧ (s.step event).periodicCheck = s.periodicCheck) := by
  obtain ⟨first, none, watcher, timed⟩ := ripe
  have moved := step_moved s event
  generalize s.step event = next at moved
  cases moved with
  | idle => exact ⟨⟨first, none, watcher, timed⟩, .inr ⟨rfl, rfl⟩⟩
  | ticked elapsed =>
    refine ⟨⟨first, none, watcher, ?_⟩, .inr ⟨rfl, rfl⟩⟩
    unfold Timed at timed ⊢
    cases phase : s.updater with
    | timing | dispatching => trivial
    | received | stopped | selecting =>
      rw [phase] at timed
      exact timed
    | arming | checking =>
      rw [phase] at timed
      obtain ⟨last, set, bound⟩ := timed
      exact ⟨last, set, bound.trans (Nat.le_add_right _ _)⟩
  | observed watching => exact absurd watching (calm.unobserved rfl)
  | stamped own | signalled own =>
    rw [watcher] at own
    cases own
  | left cancelled | quit cancelled => exact absurd cancelled calm.not_cancelled
  | received _ ready =>
    rw [none] at ready
    cases ready
  | fired held due =>
    rw [Timed, held] at timed
    obtain ⟨last, set, bound⟩ := timed
    refine ⟨⟨first, none, watcher, last, set, bound.trans due⟩, .inl ?_⟩
    simp [rank, held]
  | took held =>
    rw [Timed, held] at timed
    exact timed.elim
  | timed held =>
    refine ⟨⟨first, none, watcher, s.clock, rfl, le_rfl⟩, .inl ?_⟩
    simp [rank, held]
  | armed held =>
    rw [Timed, held] at timed
    obtain ⟨last, set, bound⟩ := timed
    refine ⟨⟨first, none, watcher, last, set, Nat.add_le_add bound refreshIdleTime_le_periodicCheckTime⟩, .inl ?_⟩
    simp [rank, held]
  | passed held =>
    refine ⟨⟨first, none, watcher, trivial⟩, .inl ?_⟩
    simp [rank, held]
  | failed held busy =>
    rw [Timed, held] at timed
    obtain ⟨last, set, bound⟩ := timed
    exact absurd bound (busy last set)
  | dispatched held => exact absurd ⟨⟨_, rfl⟩, held, first⟩ calm.unstamped
  | cancelled => exact absurd rfl calm.uncancelled

/-- When the updater runs and its timer is due, a ripe updater comes closer to its dispatch. -/
theorem Ripe.falls {pick : SelectCase} (ripe : s.Ripe) (calm : s.Calm (.updater pick)) (due : s.periodicCheck ≤ s.clock) :
    (s.step (.updater pick)).rank < s.rank := by
  obtain ⟨first, none, watcher, timed⟩ := ripe
  cases held : s.updater with
  | selecting =>
    have fires : s.step (.updater pick) = { s with updater := .checking } := by
      simp [Debouncer.step, update, held, select, calm.alive, none, due]
    rw [fires]
    simp [rank, held]
  | timing | arming => simp [Debouncer.step, update, held, rank]
  | checking =>
    rw [Timed, held] at timed
    obtain ⟨last, set, bound⟩ := timed
    have idle : (s.lastChange.any fun last => decide (last + refreshIdleTime ≤ s.clock)) = true := by
      rw [set, Option.any_some, decide_eq_true_eq]
      exact bound
    have passes : s.step (.updater pick) = { s with updater := .dispatching } := by
      simp only [Debouncer.step, update, held, idle, ↓reduceIte]
    rw [passes]
    simp [rank, held]
  | dispatching => exact absurd ⟨⟨_, rfl⟩, held, first⟩ calm.unstamped
  | received | stopped =>
    rw [Timed, held] at timed
    exact timed.elim

/-- How many steps the updater is away from its select. -/
def distance (s : Debouncer) : ℕ :=
  match s.updater with
  | .selecting | .stopped => 0
  | .arming => 1
  | .timing | .dispatching => 2
  | .received | .checking => 3

/-- Whatever else happens, the updater stays where it is. -/
theorem updater_step (others : ∀ pick, event ≠ .updater pick) : (s.step event).updater = s.updater := by
  have moved := step_moved s event
  generalize s.step event = next at moved
  cases moved with
  | received _ _ pick | fired _ _ pick | quit _ pick | took _ pick | timed _ pick | armed _ pick | passed _ _ _ pick
    | failed _ _ pick | dispatched _ pick => exact absurd rfl (others pick)
  | _ => rfl

theorem distance_falls (busy : s.distance ≠ 0) (pick : SelectCase) : (s.step (.updater pick)).distance < s.distance := by
  unfold distance at busy ⊢
  cases held : s.updater with
  | selecting | stopped => simp [held] at busy
  | checking =>
    simp only [Debouncer.step, update, held]
    split_ifs
    · exact Nat.lt_succ_self 2
    · exact Nat.lt_of_succ_lt (Nat.lt_succ_self 2)
  | _ => simp [Debouncer.step, update, held]

section Runs

variable (start : ℕ) (schedule : ℕ → DebounceStep)

/-- The watcher observes a change at the given time of the clock. -/
def Observes (n w : ℕ) : Prop :=
  schedule n = .observe ∧ (run start schedule n).watcher = .watching ∧ (run start schedule n).clock = w

/-- The handlers that want a time are dispatched with the given origin. -/
def Dispatches (n origin : ℕ) : Prop :=
  (∃ pick, schedule n = .updater pick) ∧ (run start schedule n).updater = .dispatching ∧
    (run start schedule n).firstWatchAt = some origin

variable {start schedule}

theorem run_past (n : ℕ) : (run start schedule n).Past := by
  induction n with
  | zero => exact ⟨nofun, nofun, nofun, nofun⟩
  | succ n ih => exact ih.step (schedule n)

theorem clock_le_step (s : Debouncer) (event : DebounceStep) : s.clock ≤ (s.step event).clock := by
  have moved := step_moved s event
  generalize s.step event = next at moved
  cases moved with
  | ticked elapsed => exact Nat.le_add_right _ _
  | _ => exact le_rfl

theorem run_clock_mono : Monotone fun n => (run start schedule n).clock :=
  monotone_nat_of_le_succ fun n => clock_le_step (run start schedule n) (schedule n)

/-- Between an observed change and the next dispatch with a time, the change is covered. -/
theorem run_covered {k n w : ℕ} (observed : Observes start schedule k w) (later : k < n)
    (quiet : ∀ j, k ≤ j → j < n → ∀ origin, ¬Dispatches start schedule j origin) : (run start schedule n).Covered w := by
  obtain ⟨label, watching, rfl⟩ := observed
  induction n, later using Nat.le_induction with
  | base =>
    have past : (run start schedule k).Past := run_past k
    have covered := past.covered watching
    rw [← label] at covered
    exact covered
  | succ n later ih =>
    refine (ih fun j first last => quiet j first (by omega)).step ?_
    rintro ⟨picked, dispatching, set⟩
    obtain ⟨origin, found⟩ := Option.ne_none_iff_exists'.mp set
    exact quiet n (by omega) (by omega) origin ⟨picked, dispatching, found⟩

/-- An origin is not later than any change observed since the previous dispatch with a time. -/
theorem origin_le {n origin k w : ℕ} (dispatched : Dispatches start schedule n origin) (observed : Observes start schedule k w)
    (quiet : ∀ j, k ≤ j → j < n → ∀ other, ¬Dispatches start schedule j other) : origin ≤ w := by
  obtain ⟨_, _, set⟩ := dispatched
  rcases Nat.lt_or_ge k n with earlier | later
  · rcases run_covered observed earlier quiet with ⟨t, found, bound⟩ | ⟨unset, _⟩
    · rw [set, Option.some_inj] at found
      exact found ▸ bound
    · rw [set] at unset
      cases unset
  · obtain ⟨_, _, rfl⟩ := observed
    exact ((run_past n).first origin set).trans (run_clock_mono later)

variable (start schedule) in
/-- The updater runs at its select while a signal is pending. -/
def Selects (n : ℕ) : Prop :=
  (∃ pick, schedule n = .updater pick) ∧ (run start schedule n).updater = .selecting ∧ (run start schedule n).change = true

variable (start schedule) in
/-- Both goroutines run again and again, a select does not pass over a pending signal forever, the clock keeps advancing, and
the context is not cancelled. -/
structure Goes : Prop where
  watcher : ∀ n, ∃ m, n ≤ m ∧ ∃ leave, schedule m = .watcher leave
  updater : ∀ n, ∃ m, n ≤ m ∧ ∃ pick, schedule m = .updater pick
  select : ∀ n, (∀ m, n ≤ m → ∃ k, m ≤ k ∧ Selects start schedule k) →
    ∃ k, n ≤ k ∧ Selects start schedule k ∧ schedule k = .updater .change
  time : ∀ t, ∃ n, t ≤ (run start schedule n).clock
  alive : ∀ n, schedule n ≠ .cancel

/-- A context that nobody cancels stays alive. -/
theorem Goes.uncancelled (goes : Goes start schedule) (n : ℕ) : (run start schedule n).cancelled = false := by
  induction n with
  | zero => rfl
  | succ n ih =>
    have moved := step_moved (run start schedule n) (schedule n)
    have live := goes.alive n
    rw [run]
    generalize (run start schedule n).step (schedule n) = next at moved
    generalize schedule n = event at moved live
    cases moved with
    | cancelled => exact absurd rfl live
    | _ => exact ih

/-- From the given time on nothing is observed and nothing is dispatched with a time. -/
def Silent (start : ℕ) (schedule : ℕ → DebounceStep) (n : ℕ) : Prop :=
  ∀ m, n ≤ m → (∀ w, ¬Observes start schedule m w) ∧ ∀ origin, ¬Dispatches start schedule m origin

variable {n : ℕ}

theorem Silent.calm (silent : Silent start schedule n) (goes : Goes start schedule) (m : ℕ) (late : n ≤ m) :
    (run start schedule m).Calm (schedule m) where
  alive := goes.uncancelled m
  uncancelled := goes.alive m
  unobserved label watching := (silent m late).1 _ ⟨label, watching, rfl⟩
  unstamped := by
    rintro ⟨picked, dispatching, set⟩
    obtain ⟨origin, found⟩ := Option.ne_none_iff_exists'.mp set
    exact (silent m late).2 origin ⟨picked, dispatching, found⟩

/-- The watcher leaves its time and then its signal. -/
theorem Silent.signals (silent : Silent start schedule n) (goes : Goes start schedule) (w : ℕ) :
    LeadsTo n (fun m => (run start schedule m).watcher = .observed w) fun m => (run start schedule m).Waiting := by
  have leaves : LeadsTo n (fun m => (run start schedule m).watcher = .observed w) fun m => (run start schedule m).Signalling := by
    refine .of_again (fun m late held => observed_step held (silent.calm goes m late)) fun m late => ?_
    obtain ⟨k, after, leave, label⟩ := goes.watcher m
    refine ⟨k, after, fun held => ?_⟩
    refine (observed_step held (silent.calm goes k (late.trans after))).resolve_left fun still => ?_
    simp [label, step, watch, held, goes.uncancelled k] at still
  refine leaves.trans (.of_again (fun m late held => held.step (silent.calm goes m late)) fun m late => ?_)
  obtain ⟨k, after, leave, label⟩ := goes.watcher m
  refine ⟨k, after, fun held => ?_⟩
  refine (held.step (silent.calm goes k (late.trans after))).resolve_left fun still => ?_
  have unmoved := still.watcher
  simp [label, step, watch, held.watcher, goes.uncancelled k] at unmoved

section

variable (goes : Goes start schedule)

include goes

/-- The updater comes back to its select. -/
theorem Goes.returns (n : ℕ) :
    LeadsTo n (fun _ => True) fun m => (run start schedule m).distance = 0 := by
  refine .of_rank (fun m => (run start schedule m).distance) fun r => ?_
  rcases eq_or_ne r 0 with rfl | zero
  · exact fun m _ holds => ⟨m, le_rfl, .inr holds.2⟩
  refine .of_again (fun m _ holds => ?_) fun m _ => ?_
  · by_cases runs : ∃ pick, schedule m = .updater pick
    · obtain ⟨pick, label⟩ := runs
      have lower := distance_falls (holds.2 ▸ zero) pick
      rw [← label, holds.2] at lower
      exact .inr (.inl ⟨trivial, lower⟩)
    · refine .inl ⟨trivial, ?_⟩
      rw [← holds.2, run, distance, updater_step fun pick label => runs ⟨pick, label⟩]
      rfl
  · obtain ⟨k, after, pick, label⟩ := goes.updater m
    refine ⟨k, after, fun holds => ?_⟩
    have lower := distance_falls (holds.2 ▸ zero) pick
    rw [← label, holds.2] at lower
    exact .inl ⟨trivial, lower⟩

theorem Goes.running (n : ℕ) : (run start schedule n).updater ≠ .stopped := by
  induction n with
  | zero => exact nofun
  | succ n ih =>
    have moved := step_moved (run start schedule n) (schedule n)
    have live := goes.uncancelled n
    rw [run]
    generalize (run start schedule n).step (schedule n) = next at moved
    generalize schedule n = event at moved
    cases moved with
    | idle | ticked | observed | stamped | signalled | left | cancelled => exact ih
    | quit cancelled =>
      rw [live] at cancelled
      cases cancelled
    | _ => exact nofun

theorem Goes.selecting (idle : (run start schedule n).distance = 0) :
    (run start schedule n).updater = .selecting := by
  unfold distance at idle
  cases held : (run start schedule n).updater with
  | selecting => rfl
  | stopped => exact absurd held (goes.running n)
  | _ => simp [held] at idle

/-- While a signal is pending, the updater comes to its select again and again. -/
theorem Goes.selects (pending : ∀ m, n ≤ m → (run start schedule m).change = true) (m : ℕ)
    (late : n ≤ m) : ∃ k, m ≤ k ∧ Selects start schedule k := by
  obtain ⟨k, after, idle⟩ := goes.returns n (m + 1) (by omega) trivial
  have moves : LeadsTo n (fun j => (run start schedule j).updater = .selecting) fun j =>
      ∃ i, j = i + 1 ∧ Selects start schedule i := by
    refine .of_again (fun j after selecting => ?_) fun j after => ?_
    · by_cases runs : ∃ pick, schedule j = .updater pick
      · exact .inr ⟨j, rfl, runs, selecting, pending j after⟩
      · refine .inl ?_
        rw [run, updater_step fun pick label => runs ⟨pick, label⟩]
        exact selecting
    · obtain ⟨i, later, runs⟩ := goes.updater j
      exact ⟨i, later, fun selecting => ⟨i, rfl, runs, selecting, pending i (after.trans later)⟩⟩
  obtain ⟨j, later, i, rfl, selects⟩ := moves k (by omega) (goes.selecting idle)
  exact ⟨i, by omega, selects⟩

end

section

variable (silent : Silent start schedule n)

include silent

/-- A pending signal is received. -/
theorem Silent.delivers (goes : Goes start schedule) :
    LeadsTo n (fun m => (run start schedule m).Waiting) fun m => (run start schedule m).Delivered := by
  intro m late waiting
  by_contra never
  have forever : ∀ k, m ≤ k → (run start schedule k).Waiting := by
    intro k after
    induction k, after using Nat.le_induction with
    | base => exact waiting
    | succ k after ih =>
      refine (ih.step (silent.calm goes k (late.trans after))).resolve_right fun delivered => never ⟨k + 1, ?_, delivered⟩
      omega
  obtain ⟨k, after, ⟨_, selecting, ready⟩, label⟩ := goes.select m (goes.selects fun k after => (forever k after).ready)
  have taken : (run start schedule (k + 1)).change = false := by
    rw [run, label]
    simp [step, update, selecting, select, ready]
  have still := (forever (k + 1) (by omega)).ready
  rw [taken] at still
  cases still

theorem Silent.ripens (goes : Goes start schedule) :
    LeadsTo n (fun m => (run start schedule m).Delivered) fun m => (run start schedule m).Ripe := by
  refine .of_again (fun m late held => held.step (silent.calm goes m late)) fun m late => ?_
  obtain ⟨k, after, pick, label⟩ := goes.updater m
  refine ⟨k, after, fun held => ?_⟩
  refine (held.step (silent.calm goes k (late.trans after))).resolve_left fun still => ?_
  have unmoved := still.updater
  simp [label, step, update, held.updater] at unmoved

/-- A ripe updater cannot stay silent. -/
theorem Silent.not_ripe (goes : Goes start schedule) :
    LeadsTo n (fun m => (run start schedule m).Ripe) fun _ => False := by
  refine .of_rank (fun m => (run start schedule m).rank) fun r m late holds => ?_
  -- The timer's time is fixed while the updater waits for it.
  have falls : LeadsTo n
      (fun k => (run start schedule k).Ripe ∧ (run start schedule k).rank = r ∧
        (run start schedule k).periodicCheck = (run start schedule m).periodicCheck)
      fun k => ((run start schedule k).Ripe ∧ (run start schedule k).rank < r) ∨ False := by
    refine .of_again (fun k late ⟨ripe, same, timer⟩ => ?_) fun k late => ?_
    · obtain ⟨still, lower | ⟨equal, fixed⟩⟩ := ripe.step (silent.calm goes k late)
      · exact .inr (.inl ⟨still, same ▸ lower⟩)
      · exact .inl ⟨still, equal.trans same, fixed.trans timer⟩
    · obtain ⟨enough, due⟩ := goes.time (run start schedule m).periodicCheck
      obtain ⟨j, after, pick, label⟩ := goes.updater (max k enough)
      refine ⟨j, (le_max_left _ _).trans after, fun ⟨ripe, same, timer⟩ => .inl ?_⟩
      have calm := silent.calm goes j (by omega)
      have passed : (run start schedule j).periodicCheck ≤ (run start schedule j).clock := by
        rw [timer]
        exact due.trans (run_clock_mono ((le_max_right _ _).trans after))
      refine ⟨(ripe.step calm).1, ?_⟩
      rw [label] at calm
      have lower := ripe.falls calm passed
      rw [← label, same] at lower
      exact lower
  exact falls m late ⟨holds.1, holds.2, rfl⟩

end

/-- After the last observed change there is a dispatch with a time. -/
theorem Goes.dispatches {w : ℕ} (goes : Goes start schedule) (observed : Observes start schedule n w)
    (last : ∀ m, n < m → ∀ v, ¬Observes start schedule m v) : ∃ m, n < m ∧ ∃ origin, Dispatches start schedule m origin := by
  by_contra never
  have silent : Silent start schedule (n + 1) := by
    refine fun m late => ⟨last m late, fun origin dispatched => never ⟨m, late, origin, dispatched⟩⟩
  have held : (run start schedule (n + 1)).watcher = .observed w := by
    obtain ⟨label, watching, rfl⟩ := observed
    rw [run, label]
    simp only [step, watching]
  obtain ⟨_, _, impossible⟩ := (((silent.signals goes w).trans (silent.delivers goes)).trans (silent.ripens goes)).trans
    (silent.not_ripe goes) (n + 1) le_rfl held
  exact impossible

end Runs

/-- For every interleaving: if the goroutines go on, the last observed change is followed by a dispatch with a time; and the
origin of a dispatch is not later than any change observed after the previous dispatch with a time, the first one in particular. -/
theorem debouncer_misses_nothing (start : ℕ) (schedule : ℕ → DebounceStep) :
    (Goes start schedule → ∀ n w, Observes start schedule n w → (∀ m, n < m → ∀ v, ¬Observes start schedule m v) →
      ∃ m, n < m ∧ ∃ origin, Dispatches start schedule m origin) ∧
    ∀ n origin, Dispatches start schedule n origin → ∀ k w, Observes start schedule k w →
      (∀ j, k ≤ j → j < n → ∀ other, ¬Dispatches start schedule j other) → origin ≤ w := by
  constructor
  · intro goes n w observed last
    exact goes.dispatches observed last
  · intro n origin dispatched k w observed quiet
    exact origin_le dispatched observed quiet

/-- One change, after which time passes and the goroutines take turns. -/
def oneChange (n : ℕ) : DebounceStep :=
  if n = 0 then .observe
  else match n % 3 with
    | 0 => .tick 50000000
    | 1 => .watcher false
    | _ => .updater .change

theorem oneChange_clock (start k : ℕ) : k ≤ (run start oneChange (3 * k + 1)).clock := by
  induction k with
  | zero => exact Nat.zero_le _
  | succ k ih =>
    have ticks : oneChange (3 * k + 3) = .tick 50000000 := by simp [oneChange]
    have advanced : (run start oneChange (3 * k + 4)).clock = (run start oneChange (3 * k + 3)).clock + 50000000 := by
      rw [run, ticks]
      rfl
    have before : (run start oneChange (3 * k + 1)).clock ≤ (run start oneChange (3 * k + 3)).clock := run_clock_mono (by omega)
    have same : 3 * (k + 1) + 1 = 3 * k + 4 := by omega
    rw [same, advanced]
    omega

theorem oneChange_goes (start : ℕ) : Goes start oneChange where
  watcher n := ⟨3 * n + 1, by omega, false, by simp [oneChange]⟩
  updater n := ⟨3 * n + 2, by omega, .change, by simp [oneChange]⟩
  select n again := by
    obtain ⟨k, after, selects⟩ := again n le_rfl
    refine ⟨k, after, selects, ?_⟩
    obtain ⟨⟨pick, label⟩, _⟩ := selects
    unfold oneChange at label ⊢
    split_ifs at label ⊢
    split at label
    · cases label
    · cases label
    · rfl
  time t := ⟨3 * t + 1, oneChange_clock start t⟩
  alive n := by
    unfold oneChange
    split_ifs
    · exact nofun
    · split
      · exact nofun
      · exact nofun
      · exact nofun

theorem oneChange_dispatched :
    Observes 1000 oneChange 0 1000 ∧ ∃ m, 0 < m ∧ ∃ origin, Dispatches 1000 oneChange m origin := by
  have observed : Observes 1000 oneChange 0 1000 := ⟨rfl, rfl, rfl⟩
  refine ⟨observed, (debouncer_misses_nothing 1000 oneChange).1 (oneChange_goes 1000) 0 1000 observed fun m late v again => ?_⟩
  have label := again.1
  unfold oneChange at label
  rw [if_neg (by omega)] at label
  split at label
  · cases label
  · cases label
  · cases label

end Debouncer

end Spotter.Providers.Consul
