import Spotter.Library.History
import Spotter.Internal.Steadiness
import Spotter.Worker.Fanout

/-! # One live provider set

At any time at most one committed set is not cancelled. When the main loop has handled a leadership loss or the
stop signal, every committed set is cancelled and its fan-out closed, and no sink write begins before the
server leads again. A leading server that has come to rest, without failed startups and without providers
that returned by themselves, runs exactly one set.
-/

namespace Spotter.Internal.Server

open Library

variable {s : Server} {g : Goroutine} {i k : ℕ} {step : ServerStep}

/-- The set is committed and its context not cancelled. -/
def Live (s : Server) (k : ℕ) : Prop := (s.startups k).committed = true ∧ (s.startups k).cancelled = false

theorem Sound.open_of_live (sound : s.Sound) (live : s.Live k) : s.Open k := by
  refine ⟨live.1, ?_⟩
  intro done
  have cancelled := sound.closable.begun k (by rw [done]; exact CleanupOnce.noConfusion)
  rw [live.2] at cancelled
  cases cancelled

theorem Sound.live_unique (sound : s.Sound) (first : s.Live i) (second : s.Live k) : i = k := by
  have held := sound.tended.holds sound.locked (sound.open_of_live first)
  rw [sound.tended.holds sound.locked (sound.open_of_live second)] at held
  exact (Option.some.inj held).symm

/-! ## After a loss or a stop -/

/-- The step ends the main loop's handling of a leadership loss or of the stop signal. -/
def EndsHandling (s : Server) (step : ServerStep) : Prop :=
  (∃ ending, s.main = .cancelling ending) ∧ ∀ ending, (s.step step).main ≠ .cancelling ending

/-- A set is opened only while the server leads. -/
theorem open_step (isOpen : (s.step step).Open k) : s.Open k ∨ s.isLeader = true := by
  have move := step_moves s step
  generalize s.step step = t at isOpen move
  cases move with
  | calls open_ move =>
    obtain ⟨committed, unclosed⟩ := isOpen
    simp only [(move.cleaned k).committed] at committed
    exact .inl ⟨committed, fun done => unclosed ((move.cleaned k).done done)⟩
  | spawns =>
    have earlier : (s.setPhase s.spawned .waiting).Open k → s.Open k := open_of_setStartup rfl rfl
    exact .inl (earlier isOpen)
  | @returning i | @returned i =>
    have earlier : ∀ providers, (s.setStartup i { s.startups i with providers := providers }).Open k → s.Open k :=
      fun providers => open_of_setStartup rfl rfl
    exact .inl (earlier _ isOpen)
  | @advances i _ effect quiet move =>
    have committed : effect.startup.committed = (s.startups i).committed ∨ s.isLeader = true := by
      cases move with
      | commits _ _ _ leads => exact .inr leads
      | _ => exact .inl rfl
    exact committed.imp_left fun same => open_of_setStartup same move.kept.2 isOpen
  | _ => exact .inl isOpen

/-- A write begins on an open set only. -/
theorem writes_step (closed : ∀ k, ¬s.Open k) : (s.step step).writes = s.writes := by
  have move := step_moves s step
  generalize s.step step = t at move
  cases move with
  | writes i isOpen => exact absurd isOpen (closed i)
  | _ => rfl

/-- From a state without open sets, nothing is opened or written until the server leads. -/
theorem rest_after (closed : ∀ k, ¬s.Open k) {more : List ServerStep}
    (unled : ∀ before, before <+: more → (s.after before).isLeader = false) :
    (∀ k, ¬(s.after more).Open k) ∧ (s.after more).writes = s.writes := by
  induction more generalizing s with
  | nil => exact ⟨closed, rfl⟩
  | cons step rest ih =>
    have now : s.isLeader = false := unled [] List.nil_prefix
    have next : ∀ k, ¬(s.step step).Open k := by
      intro k isOpen
      rcases open_step isOpen with before | leads
      · exact closed k before
      · rw [now] at leads
        cases leads
    obtain ⟨still, writes⟩ := ih next fun before initial => unled (step :: before) (List.prefix_cons_inj step |>.mpr initial)
    exact ⟨still, writes.trans (writes_step closed)⟩

/-- The main loop has come out of the function it took. -/
theorem EndsHandling.returned (ends : s.EndsHandling step) : s.calls .main = .returned := by
  obtain ⟨⟨ending, busy⟩, rests⟩ := ends
  by_contra called
  refine rests ending ?_
  have move := step_moves s step
  generalize s.step step = t at move
  cases move with
  | changes _ _ _ main | signals main =>
    rw [main] at busy
    cases busy
  | spawns quiet | drops _ quiet | rests _ quiet => exact absurd quiet called
  | _ => exact busy

/-- When the main loop has handled a loss or a stop, no set is open. -/
theorem EndsHandling.closed (ends : s.EndsHandling step) (sound : s.Sound) (k : ℕ) : ¬(s.step step).Open k := by
  intro isOpen
  obtain ⟨ending, busy⟩ := ends.1
  rcases open_step isOpen with before | leads
  · rcases sound.tended.reachable k before with registered | ⟨_, tends⟩
    · exact sound.led.unregistered ending busy k registered
    · rw [ends.returned] at tends
      cases tends
  · cases (sound.led.not_leader (by rw [busy]; rfl)).symm.trans leads

/-! ## Coming to rest -/

/-- Steps the server takes without the outside: no message, no call of `Stop`, no failure of a startup, and no return of a
provider whose set is not cancelled. -/
def Autonomous (s : Server) : ServerStep → Prop
  | .receive | .receiveStop => True
  | .run (.provider i j) (.ready _) => (s.startups i).providers[j]? = some .running → (s.startups i).cancelled = true
  | .run _ (.ready _) => True
  | _ => False

/-- No step of the server's own does anything. -/
def Quiescent (s : Server) : Prop := ∀ step, s.Autonomous step → s.step step = s

/-- The set is committed, not cancelled, and all its providers run. -/
structure Runs (s : Server) (k : ℕ) : Prop where
  live : s.Live k
  some_ : (s.startups k).providers ≠ []
  running : ∀ provider ∈ (s.startups k).providers, provider = .running

section

variable (quiescent : s.Quiescent)

include quiescent

theorem Quiescent.run_eq (steady : s.Steady) (called : s.calls g ≠ .returned) : s.callStep g = s := by
  have autonomous : s.Autonomous (.run g (.ready 0)) := by
    cases g with
    | main => trivial
    | stopper => trivial
    | startup i => trivial
    | provider i j => exact fun _ => (steady.called i j called).1
  have same := quiescent _ autonomous
  simp only [Server.step, Server.run] at same
  rwa [if_pos called] at same

theorem Quiescent.no_closing (steady : s.Steady) : s.calls g ≠ .closing k := by
  intro closing
  have same := quiescent.run_eq steady (by rw [closing]; exact Call.noConfusion)
  have moved := congrArg (fun t : Server => t.calls g) same
  simp [callStep, closing, setCall] at moved

section

variable (sound : s.Sound)

include sound

/-- At rest no goroutine is inside a cancel function. -/
theorem Quiescent.returned (steady : s.Steady) (g : Goroutine) :
    s.calls g = .returned := by
  by_contra called
  have same := quiescent.run_eq steady called
  obtain ⟨startups, call, move, moved⟩ := callStep_cases called
  have calls : call = s.calls g := by
    have after := congrArg (fun t : Server => t.calls g) (moved.symm.trans same)
    simpa using after
  cases move with
  | cancels i before => exact called calls.symm
  | begins i before => exact quiescent.no_closing steady calls.symm
  | waits i before during =>
    obtain ⟨other, closing⟩ := sound.closable.closer i during
    exact quiescent.no_closing steady closing
  | late i before | closes i before => exact called calls.symm

/-- At rest, the startup with the lock is in the phase in which its set runs. -/
theorem Quiescent.holder_phase (steady : s.Steady) (held : s.lifecycle = some k) :
    ∃ generation, (s.startups k).phase = .running generation := by
  have quiet := quiescent.returned sound steady (.startup k)
  have holds := (sound.locked.holder k).mpr held
  obtain ⟨effect, move, moved⟩ := startupStep_cases (.ready 0) quiet
  have same := quiescent (.run (.startup k) (.ready 0)) trivial
  simp only [Server.step, Server.run, quiet, ne_eq, not_true_eq_false, ↓reduceIte] at same
  have stuck : effect.startup.phase = (s.startups k).phase := by
    have after := congrArg (fun t : Server => (t.startups k).phase) (moved.symm.trans same)
    simpa [advance] using after
  cases move with
  | stays phase =>
    rcases phase with free | running
    · rw [holds] at free
      cases free
    · exact running
  | _ => simp_all

/-- At rest, a set whose startup has the lock is not cancelled: its providers would return, and then its startup would go on. -/
theorem Quiescent.holder_live (steady : s.Steady) {generation : ℕ}
    (phase : (s.startups k).phase = .running generation) : (s.startups k).cancelled = false := by
  rw [← Bool.not_eq_true]
  intro cancelled
  by_cases all : ∀ provider ∈ (s.startups k).providers, provider = .returned
  · have quiet := quiescent.returned sound steady (.startup k)
    have same := quiescent (.run (.startup k) (.ready 0)) trivial
    simp only [Server.step, Server.run, quiet, ne_eq, not_true_eq_false, ↓reduceIte, startupStep, phase] at same
    rw [if_pos (by simpa using all)] at same
    have stuck := congrArg (fun t : Server => (t.startups k).phase) same
    simp [setPhase, setStartup, setCall, phase] at stuck
  · simp only [not_forall] at all
    obtain ⟨provider, member, unreturned⟩ := all
    obtain ⟨j, found⟩ := List.mem_iff_getElem?.mp member
    obtain ⟨within, value⟩ := List.getElem?_eq_some_iff.mp found
    have quiet := quiescent.returned sound steady (.provider k j)
    have same := quiescent (.run (.provider k j) (.ready 0)) fun _ => cancelled
    simp only [Server.step, Server.run, quiet, ne_eq, not_true_eq_false, ↓reduceIte, providerStep, found] at same
    have stuck := congrArg (fun t : Server => (t.startups k).providers[j]?) same
    cases provider with
    | running => simp [setStartup, setCall, within, value] at stuck
    | returning => simp [setStartup, within, value] at stuck
    | returned => exact unreturned rfl

theorem Quiescent.holder_runs (steady : s.Steady) (held : s.lifecycle = some k) :
    s.Runs k := by
  obtain ⟨generation, phase⟩ := quiescent.holder_phase sound steady held
  have live := quiescent.holder_live sound steady phase
  obtain ⟨committed, some_⟩ := (steady.records k).provided generation phase
  refine ⟨⟨committed, live⟩, some_, ?_⟩
  intro provider member
  by_contra returned
  cases live.symm.trans ((steady.records k).returned provider member returned)

/-- At rest, a leading server runs a set. -/
theorem Quiescent.runs (steady : s.Steady) (leads : s.isLeader = true) :
    ∃ k, s.Runs k := by
  rcases steady.hope leads with spawning | ⟨i, hopeful⟩
  · have quiet := quiescent.returned sound steady .main
    have same := quiescent (.run .main (.ready 0)) trivial
    simp only [Server.step, Server.run, quiet, ne_eq, not_true_eq_false, ↓reduceIte, mainStep, spawning] at same
    have stuck := congrArg Server.main same
    rw [spawning] at stuck
    cases stuck
  · have held : (s.startups i).phase.holds = true → ∃ k, s.Runs k := fun holds =>
      ⟨i, quiescent.holder_runs sound steady ((sound.locked.holder i).mp holds)⟩
    cases hopeful with
    | waiting phase =>
      cases lifecycle : s.lifecycle with
      | some k => exact ⟨k, quiescent.holder_runs sound steady lifecycle⟩
      | none =>
        have quiet := quiescent.returned sound steady (.startup i)
        have same := quiescent (.run (.startup i) (.ready 0)) trivial
        simp only [Server.step, Server.run, quiet, ne_eq, not_true_eq_false, ↓reduceIte, startupStep, phase, lifecycle] at same
        have stuck := congrArg Server.lifecycle same
        rw [lifecycle] at stuck
        cases stuck
    | stopping phase | cancelling phase | entering phase | starting phase | committing others phase
    | running generation phase => exact held (by rw [phase]; rfl)

end

end

theorem after_append (s : Server) (history : List ServerStep) (step : ServerStep) :
    s.after (history ++ [step]) = (s.after history).step step := by
  simp only [Server.after, List.foldl_concat]

theorem steady_after {history : List ServerStep}
    (healthy : History.AllSteps (fun before step => (Server.after {} before).Healthy step) history) :
    (Server.after {} history).Steady := by
  refine (History.invariant (fun history => (Server.after {} history).Sound ∧ (Server.after {} history).Fresh ∧
    (Server.after {} history).Steady) ⟨sound_start, fresh_start, steady_start⟩ ?_ healthy).2.2
  rintro earlier step unharmed ⟨sound, fresh, steady⟩
  rw [after_append]
  have move := step_moves (Server.after {} earlier) step
  exact ⟨sound.step step, fresh.step sound.locked move, steady.step sound fresh unharmed move⟩

theorem StartupMove.generation_le {result : StartupResult} {effect : StartupEffect} (move : StartupMove s i result effect) :
    effect.generation ≤ s.startupGeneration + 1 := by
  cases move with
  | takes | enters => exact Nat.le_refl _
  | _ => exact Nat.le_succ _

/-- Each step moves the startup generation on by one at most, so 64 bits hold it for as many steps. -/
theorem startupGeneration_le (history : List ServerStep) : (Server.after {} history).startupGeneration ≤ history.length := by
  induction history using List.reverseRecOn with
  | nil => exact Nat.le_refl _
  | append_singleton earlier step ih =>
    rw [after_append, List.length_append]
    refine Nat.le_trans ?_ (Nat.succ_le_succ ih)
    have moves := step_moves (Server.after {} earlier) step
    generalize (Server.after {} earlier).step step = next at moves ⊢
    cases moves with
    | advances quiet move => exact move.generation_le
    | drops => exact Nat.le_refl _
    | _ =>
      exact Nat.le_succ _

/-- In every run: at most one set is live; from the end of the main loop's handling of a loss or a stop on, every committed
set is cancelled and closed and no write begins, until the server leads again; and a leading server at rest runs exactly one
set if no startup failed and no provider returned by itself. -/
theorem at_most_one_live_set (history : List ServerStep) :
    let s := Server.after {} history
    (∀ i k, s.Live i → s.Live k → i = k) ∧
    (∀ step more, s.EndsHandling step → (∀ before, before <+: more → ((s.step step).after before).isLeader = false) →
      (∀ k, (((s.step step).after more).startups k).committed = true → (((s.step step).after more).startups k).cancelled = true ∧
          (((s.step step).after more).startups k).cleanupOnce = .done) ∧
      ((s.step step).after more).writes = (s.step step).writes) ∧
    (History.AllSteps (fun before step => (Server.after {} before).Healthy step) history → s.Quiescent → s.isLeader = true →
      ∃ k, s.Runs k ∧ ∀ i, s.Live i → i = k) := by
  intro s
  have sound : s.Sound := sound_start.after history
  refine ⟨fun i k => sound.live_unique, ?_, ?_⟩
  · intro step more ends unled
    obtain ⟨closed, writes⟩ := rest_after (ends.closed sound) unled
    refine ⟨?_, writes⟩
    intro k committed
    have done : (((s.step step).after more).startups k).cleanupOnce = .done := by
      by_contra unclosed
      exact closed k ⟨committed, unclosed⟩
    have later := ((sound.step step).after more).closable.begun k
    exact ⟨later (by rw [done]; exact CleanupOnce.noConfusion), done⟩
  · intro healthy quiescent leads
    obtain ⟨k, runs⟩ := quiescent.runs sound (steady_after healthy) leads
    exact ⟨k, runs, fun i live => sound.live_unique live runs.live⟩

/-- Leadership is gained, and the startup commits a set of two providers. -/
def gainedHistory : List ServerStep :=
  [.message true, .receive, .run .main (.ready 0)] ++ List.replicate 4 (.run (.startup 0) (.ready 0)) ++
    [.run (.startup 0) (.ready 1), .run (.startup 0) (.ready 0)]

theorem gainedHistory_healthy : History.AllSteps (fun before step => (Server.after {} before).Healthy step) gainedHistory := by
  intro before step rest split
  have member : step ∈ gainedHistory := by
    rw [split]
    exact List.mem_append_right before List.mem_cons_self
  simp only [gainedHistory, List.replicate, List.cons_append, List.nil_append, List.mem_cons, List.not_mem_nil, or_false] at member
  rcases member with rfl | rfl | rfl | rfl | rfl | rfl | rfl | rfl | rfl
  · trivial
  · trivial
  · trivial
  all_goals exact .inr ⟨_, rfl⟩

theorem gainedHistory_quiescent : (Server.after {} gainedHistory).Quiescent := by
  intro step autonomous
  cases step with
  | message => cases autonomous
  | receive => rfl
  | receiveStop => rfl
  | callStop | write => cases autonomous
  | run g result =>
    cases g with
    | main => rfl
    | stopper => rfl
    | startup i =>
      match i with
      | 0 => rfl
      | i + 1 => rfl
    | provider i j =>
      cases result with
      | ready others =>
        match i, j with
        | 0, 0 | 0, 1 => cases autonomous rfl
        | 0, j + 2 => rfl
        | i + 1, j => rfl
      | noDiscovery | noRegistry | failed => cases autonomous

/-- Leadership is lost, and the main loop calls the set's cleanup. -/
def lostHistory : List ServerStep :=
  gainedHistory ++ [.message false, .receive] ++ List.replicate 3 (.run .main (.ready 0))

/-- The server that gained leadership runs one set; when it has lost it, the set is closed and writes nothing. -/
theorem gained_and_lost :
    let gained := Server.after {} gainedHistory
    let handled := (Server.after {} lostHistory).step (.run .main (.ready 0))
    (∃ k, gained.Runs k ∧ ∀ i, gained.Live i → i = k) ∧ ((handled.after [.write 0]).startups 0).committed = true ∧
      ((handled.after [.write 0]).startups 0).cleanupOnce = .done ∧ (handled.after [.write 0]).writes = handled.writes := by
  intro gained handled
  have one := (at_most_one_live_set gainedHistory).2.2 gainedHistory_healthy gainedHistory_quiescent rfl
  have ends : (Server.after {} lostHistory).EndsHandling (.run .main (.ready 0)) :=
    ⟨⟨false, rfl⟩, fun ending => MainPhase.noConfusion⟩
  have unled : ∀ before, before <+: [.write 0] → (handled.after before).isLeader = false := by
    intro before initial
    rcases List.prefix_cons_iff.mp initial with rfl | ⟨rest, rfl, none_⟩
    · rfl
    · cases List.prefix_nil.mp none_
      rfl
  obtain ⟨closed, writes⟩ := (at_most_one_live_set lostHistory).2.1 _ _ ends unled
  exact ⟨one, rfl, (closed 0 rfl).2, writes⟩

end Spotter.Internal.Server

namespace Spotter.Internal

open Worker

/-! ## The fan-outs of the sets -/

/-- The server with the fan-out of every set. -/
structure Deployed where
  server : Server
  fanouts : ℕ → FanoutSink

/-- The server moves on, or somebody calls the fan-out of a set. -/
inductive DeployedStep where
  | server (step : ServerStep)
  | call (startup : ℕ) (call : String → SinkStep)

namespace Deployed

/-- The end of a set's cleanup closes its fan-out. -/
def step (d : Deployed) : DeployedStep → Deployed
  | .server step =>
    let server := d.server.step step
    ⟨server, fun i => if (server.startups i).cleanupOnce = .done then (d.fanouts i).close else d.fanouts i⟩
  | .call i call => ⟨d.server.write i, Function.update d.fanouts i ((d.fanouts i).broadcast call).fanout⟩

variable (fanouts : ℕ → FanoutSink) (history : List DeployedStep)

def after : Deployed := history.foldl step ⟨{}, fanouts⟩

/-- The sinks of a set whose cleanup is done are closed. -/
def Closes (d : Deployed) : Prop :=
  ∀ i, (d.server.startups i).cleanupOnce = .done → ∀ named ∈ (d.fanouts i).sinks, named.sink.closed = true

theorem Closes.step {d : Deployed} (closes : d.Closes) (event : DeployedStep) : (d.step event).Closes := by
  intro i done named member
  cases event with
  | server step =>
    simp only [Deployed.step] at done member
    rw [if_pos done] at member
    obtain ⟨before, _, rfl⟩ := List.mem_map.mp member
    simp only [OrderedSink.close]
    split_ifs with closed
    · exact closed
    · rfl
  | call j call =>
    have startups : (d.server.write j).startups = d.server.startups := by
      rw [Server.write]
      split_ifs <;> rfl
    simp only [Deployed.step, startups] at done member
    rcases eq_or_ne i j with rfl | other
    · rw [Function.update_self] at member
      obtain ⟨before, among, rfl⟩ := List.mem_map.mp member
      exact (OrderedSink.apply_closed (closes i done before among) _).1
    · rw [Function.update_of_ne other] at member
      exact closes i done named member

theorem closes_after : (after fanouts history).Closes := by
  refine List.foldlRecOn history step ?_ fun _ closes event _ => closes.step event
  intro i done
  cases done

/-- In every run, a call that gets through the fan-out of a committed set to a sink is a write of the server. -/
theorem call_writes {i : ℕ} {call : String → SinkStep} {attempt : SinkAttempt}
    (committed : ((after fanouts history).server.startups i).committed = true)
    (member : attempt ∈ (((after fanouts history).fanouts i).broadcast call).attempts) (reached : attempt.outcome.call ≠ none) :
    ((after fanouts history).step (.call i call)).server.writes = (after fanouts history).server.writes ++ [i] := by
  have unclosed : ((after fanouts history).server.startups i).cleanupOnce ≠ .done := by
    intro done
    obtain ⟨named, among, rfl⟩ := FanoutSink.mem_broadcast_attempts.mp member
    exact reached (OrderedSink.apply_closed (closes_after fanouts history i done named among) _).2
  simp only [Deployed.step, Server.write]
  rw [if_pos ⟨committed, unclosed⟩]

end Deployed

end Spotter.Internal
