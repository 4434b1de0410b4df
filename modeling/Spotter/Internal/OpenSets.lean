import Spotter.Internal.LifecycleInvariants

/-! # Open provider sets

A set is open when it is committed and its fan-out is not closed. An open set is tended by its startup, which
has the lifecycle lock, so there is at most one. It is also reachable: its cleanup is registered or the main
loop is inside it. So when the main loop has come out of the function it took, no set is open.
-/

namespace Spotter.Internal

/-- The set whose cleanup the call is of. -/
def Call.tends : Call → Option ℕ
  | .calling (.cleanup k) | .closing k => some k
  | _ => none

namespace Server

/-- The set is committed and its fan-out not closed. -/
def Open (s : Server) (k : ℕ) : Prop := (s.startups k).committed = true ∧ (s.startups k).cleanupOnce ≠ .done

/-- An open set's startup runs it or is inside its cleanup, and the main loop can get at the cleanup. -/
structure Tended (s : Server) : Prop where
  tended : ∀ k, s.Open k → (∃ generation, (s.startups k).phase = .running generation) ∨
    (∃ generation, (s.startups k).phase = .cleaning generation) ∧ (s.calls (.startup k)).tends = some k
  reachable : ∀ k, s.Open k → s.stopProviderFunc = some (.cleanup k) ∨
    (∃ ending, s.main = .cancelling ending) ∧ (s.calls .main).tends = some k

variable {s t : Server} {g : Goroutine} {i k : ℕ} {result : StartupResult} {effect : StartupEffect} {event : ServerStep}

theorem Tended.holds (tended : s.Tended) (locked : s.Locked) (isOpen : s.Open k) : s.lifecycle = some k := by
  rw [← locked.holder]
  rcases tended.tended k isOpen with ⟨generation, running⟩ | ⟨⟨generation, cleaning⟩, _⟩
  · rw [running]
    rfl
  · rw [cleaning]
    rfl

/-- While a startup runs its own code with the lock, the only set that can be open is the one it runs. -/
theorem Tended.open_eq (tended : s.Tended) (locked : s.Locked) (quiet : s.calls (.startup i) = .returned)
    (held : (s.startups i).phase.holds = true) (isOpen : s.Open k) :
    k = i ∧ ∃ generation, (s.startups i).phase = .running generation := by
  obtain rfl : i = k := Option.some.inj (((locked.holder i).mp held).symm.trans (tended.holds locked isOpen))
  refine ⟨rfl, (tended.tended i isOpen).resolve_right ?_⟩
  rintro ⟨_, tends⟩
  rw [quiet] at tends
  cases tends

theorem open_of_setStartup {startup : Startup} (committed : startup.committed = (s.startups i).committed)
    (once : startup.cleanupOnce = (s.startups i).cleanupOnce) (isOpen : (s.setStartup i startup).Open k) : s.Open k := by
  obtain ⟨isCommitted, unclosed⟩ := isOpen
  refine ⟨(update_component Startup.committed committed k).symm.trans isCommitted, ?_⟩
  exact fun done => unclosed ((update_component Startup.cleanupOnce once k).trans done)

theorem Tended.congr (tended : s.Tended) (opens : ∀ k, t.Open k → s.Open k)
    (phases : ∀ k, (t.startups k).phase = (s.startups k).phase) (calls : ∀ k, t.calls (.startup k) = s.calls (.startup k))
    (registered : t.stopProviderFunc = s.stopProviderFunc) (main : t.main = s.main) (mainCall : t.calls .main = s.calls .main) :
    t.Tended where
  tended k isOpen := by
    rw [phases, calls]
    exact tended.tended k (opens k isOpen)
  reachable k isOpen := by
    rw [registered, main, mainCall]
    exact tended.reachable k (opens k isOpen)

theorem CallMove.tends {startups : ℕ → Startup} {call : Call} (move : CallMove s g startups call)
    (tends : (s.calls g).tends = some k) (unclosed : (startups k).cleanupOnce ≠ .done) : call.tends = some k := by
  cases move with
  | cancels i called =>
    rw [called] at tends
    cases tends
  | begins i called | waits i called =>
    rw [called] at tends
    exact tends
  | late i called done =>
    rw [called] at tends
    cases tends
    exact absurd done unclosed
  | closes i called =>
    rw [called] at tends
    cases tends
    simp at unclosed

theorem Tended.call {startups : ℕ → Startup} {call : Call} (tended : s.Tended) (move : CallMove s g startups call) :
    Tended { s with startups := startups, calls := Function.update s.calls g call } := by
  have earlier : ∀ k, (startups k).committed = true → (startups k).cleanupOnce ≠ .done → s.Open k := by
    intro k committed unclosed
    have kept := move.cleaned k
    rw [kept.committed] at committed
    exact ⟨committed, fun done => unclosed (kept.done done)⟩
  have still : ∀ other k, (startups k).cleanupOnce ≠ .done → (s.calls other).tends = some k →
      (Function.update s.calls g call other).tends = some k := by
    intro other k unclosed tends
    rcases eq_or_ne other g with rfl | different
    · rw [Function.update_self]
      exact move.tends tends unclosed
    · rwa [Function.update_of_ne different]
  refine ⟨?_, ?_⟩
  · rintro k ⟨committed, unclosed⟩
    simp only [(move.cleaned k).phase]
    rcases tended.tended k (earlier k committed unclosed) with running | ⟨cleaning, tends⟩
    · exact .inl running
    · exact .inr ⟨cleaning, still _ k unclosed tends⟩
  · rintro k ⟨committed, unclosed⟩
    rcases tended.reachable k (earlier k committed unclosed) with registered | ⟨busy, tends⟩
    · exact .inl registered
    · exact .inr ⟨busy, still _ k unclosed tends⟩

/-- Outside a called function, the cleanup of an open set is registered. -/
theorem Tended.registered (tended : s.Tended) (outside : ∀ ending, s.main ≠ .cancelling ending) (isOpen : s.Open k) :
    s.stopProviderFunc = some (.cleanup k) := by
  rcases tended.reachable k isOpen with registered | ⟨⟨ending, busy⟩, _⟩
  · exact registered
  · exact absurd busy (outside ending)

theorem Tended.of_closed (closed : ∀ k, ¬s.Open k) : s.Tended :=
  ⟨fun k isOpen => absurd isOpen (closed k), fun k isOpen => absurd isOpen (closed k)⟩

theorem Tended.startup (tended : s.Tended) (locked : s.Locked) (quiet : s.calls (.startup i) = .returned)
    (move : StartupMove s i result effect) : (s.advance i effect).Tended := by
  have earlier : effect.startup.committed = (s.startups i).committed → ∀ k, (s.advance i effect).Open k → s.Open k :=
    fun committed k isOpen => open_of_setStartup committed move.kept.2 isOpen
  have only : (s.startups i).phase.holds = true → ∀ k, (s.advance i effect).Open k → k = i := by
    rintro held k ⟨committed, unclosed⟩
    by_contra other
    simp only [advance, Function.update_of_ne other] at committed unclosed
    exact other (tended.open_eq locked quiet held ⟨committed, unclosed⟩).1
  -- Apart from the steps of a startup that runs its set, no set is open while a startup runs its own code.
  have closed : effect.startup.committed = (s.startups i).committed → (s.startups i).phase.holds = true →
      (∀ generation, (s.startups i).phase ≠ .running generation) → (s.advance i effect).Tended := by
    intro committed held notRunning
    refine .of_closed fun k isOpen => ?_
    obtain ⟨_, generation, running⟩ := tended.open_eq locked quiet held (earlier committed k isOpen)
    exact notRunning generation running
  cases move with
  | stays =>
    refine tended.congr (earlier rfl) (update_component Startup.phase rfl) ?_ rfl rfl rfl
    intro k
    rcases eq_or_ne k i with rfl | other
    · simp [advance, quiet]
    · simp [advance, other]
  | acquires phase free =>
    refine .of_closed fun k isOpen => ?_
    cases free.symm.trans (tended.holds locked (earlier rfl k isOpen))
  | commits generation others phase =>
    have held : (s.startups i).phase.holds = true := by rw [phase]; rfl
    refine ⟨fun k isOpen => ?_, fun k isOpen => ?_⟩
    · cases only held k isOpen
      exact .inl ⟨generation, by simp [advance]⟩
    · cases only held k isOpen
      exact .inl rfl
  | returns generation phase =>
    have held : (s.startups i).phase.holds = true := by rw [phase]; rfl
    refine ⟨fun k isOpen => ?_, fun k isOpen => tended.reachable k (earlier rfl k isOpen)⟩
    cases only held k isOpen
    exact .inr ⟨⟨some generation, by simp [advance]⟩, by simp [advance, Call.tends]⟩
  | takes phase | proceeds phase | refused phase _ | enters phase _ | builds _ _ phase | gives _ phase _ | fails _ _ phase _ _
  | rejected _ _ phase _ | cleaned _ phase | clears _ _ _ phase _ | gone phase | leaves phase =>
    refine closed rfl ?_ ?_
    · rw [phase]
      rfl
    · intro other running
      cases phase.symm.trans running

theorem Tended.spawned (tended : s.Tended) (locked : s.Locked) (main : s.main = .spawning) :
    Tended { s.setPhase s.spawned .waiting with main := .idle, spawned := s.spawned + 1 } := by
  have fresh := locked.unspawned s.spawned (Nat.le_refl _)
  have earlier : ∀ k, (s.setPhase s.spawned .waiting).Open k → s.Open k := fun k => open_of_setStartup rfl rfl
  have spawnedEarlier : ∀ k, s.Open k → k ≠ s.spawned := by
    rintro k isOpen rfl
    rcases tended.tended s.spawned isOpen with ⟨_, phase⟩ | ⟨⟨_, phase⟩, _⟩
    · cases fresh.symm.trans phase
    · cases fresh.symm.trans phase
  refine ⟨?_, ?_⟩
  · intro k isOpen
    have before := earlier k isOpen
    have same := tended.tended k before
    simpa [setPhase, setStartup, spawnedEarlier k before] using same
  · intro k isOpen
    exact .inl (tended.registered (by rw [main]; exact fun _ => MainPhase.noConfusion) (earlier k isOpen))

theorem Tended.step (tended : s.Tended) (locked : s.Locked) (led : s.Led) (move : ServerMove s event t) : t.Tended := by
  cases move with
  | idles => exact tended
  | changes _ _ _ main | signals main =>
    refine ⟨tended.tended, fun k isOpen => .inl (tended.registered ?_ isOpen)⟩
    rw [main]
    exact fun _ => MainPhase.noConfusion
  | calls open_ move => exact tended.call move
  | spawns quiet main => exact tended.spawned locked main
  | drops ending quiet main =>
    refine ⟨tended.tended, fun k isOpen => .inr ⟨⟨ending, rfl⟩, ?_⟩⟩
    have registered := tended.registered (by rw [main]; exact fun _ => MainPhase.noConfusion) isOpen
    simp [takeCancel, setCall, registered, Call.of, Call.tends]
  | rests ending quiet main =>
    refine .of_closed fun k isOpen => ?_
    rcases tended.reachable k isOpen with registered | ⟨_, tends⟩
    · exact led.unregistered ending main k registered
    · rw [quiet] at tends
      cases tends
  | advances quiet move => exact tended.startup locked quiet move
  | returning | returned =>
    exact tended.congr (fun _ => open_of_setStartup rfl rfl) (update_component Startup.phase rfl) (fun _ => rfl) rfl rfl rfl
  | _ => exact tended.congr (fun _ => id) (fun _ => rfl) (fun _ => rfl) rfl rfl rfl

/-! ## Every run -/

/-- What holds in every state of the server. -/
structure Sound (s : Server) : Prop where
  locked : s.Locked
  led : s.Led
  closable : s.Closable
  tended : s.Tended

theorem sound_start : Sound {} := by
  refine ⟨⟨?_, fun _ _ => rfl, ?_⟩, ⟨?_, ?_, ?_, ?_, ?_⟩, ⟨?_, ?_, ?_⟩, .of_closed ?_⟩
  · simp [StartupPhase.holds]
  · exact fun _ called => absurd rfl called
  · exact Bool.noConfusion
  · exact fun called => absurd rfl called
  · exact fun called => absurd rfl called
  · exact fun called => absurd rfl called
  · exact fun _ => MainPhase.noConfusion
  · exact fun _ => CleanupOnce.noConfusion
  · exact fun _ used => absurd rfl used
  · exact fun _ _ => Call.noConfusion
  · exact fun _ isOpen => Bool.noConfusion isOpen.1

theorem Sound.step (sound : s.Sound) (step : ServerStep) : (s.step step).Sound := by
  have move := step_moves s step
  exact ⟨sound.locked.step move, sound.led.step move, sound.closable.step sound.led move,
    sound.tended.step sound.locked sound.led move⟩

theorem Sound.after (sound : s.Sound) (history : List ServerStep) : (s.after history).Sound := by
  induction history generalizing s with
  | nil => exact sound
  | cons step rest ih => exact ih (sound.step step)

end Server

end Spotter.Internal
