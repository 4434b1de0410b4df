import Spotter.Internal.LifecycleSteps

/-! # Invariants of the server

The startup in the locked part of its code is the one that has the lifecycle lock. While the server leads,
the main loop is at rest or about to spawn. A running cleanup has a goroutine that runs it. And an open set,
one that is committed and whose fan-out is not closed, is tended by its startup and can be reached: its
cleanup is registered, or the main loop is calling it.
-/

namespace Spotter.Internal

/-- Phases in which a startup may be inside a called cancel function. -/
def StartupPhase.awaits : StartupPhase → Bool
  | .cancelling | .cleaning _ | .leaving => true
  | _ => false

/-- The main loop handles a leadership loss or the stop signal, or has ended. -/
def MainPhase.away : MainPhase → Bool
  | .idle | .spawning => false
  | _ => true

theorem Call.of_ne_closing (cancel : Option CancelFunc) (k : ℕ) : Call.of cancel ≠ .closing k := by
  cases cancel with
  | none | some cancel => exact Call.noConfusion

namespace Server

/-- An update that leaves a component of one startup alone leaves it alone in all of them. -/
theorem update_component {α : Type} (component : Startup → α) {startups : ℕ → Startup} {i : ℕ} {startup : Startup}
    (same : component startup = component (startups i)) (k : ℕ) :
    component (Function.update startups i startup k) = component (startups k) :=
  update_keeps (fun old new => component new = component old) (fun _ => rfl) same k

/-- The lifecycle lock is exclusive. -/
structure Locked (s : Server) : Prop where
  holder : ∀ i, (s.startups i).phase.holds = true ↔ s.lifecycle = some i
  unspawned : ∀ i, s.spawned ≤ i → (s.startups i).phase = .unspawned
  awaits : ∀ i, s.calls (.startup i) ≠ .returned → (s.startups i).phase.awaits = true

variable {s t : Server} {g : Goroutine} {i : ℕ} {result : StartupResult} {effect : StartupEffect} {event : ServerStep}

theorem Locked.congr (locked : s.Locked) (phases : ∀ k, (t.startups k).phase = (s.startups k).phase)
    (lifecycle : t.lifecycle = s.lifecycle) (spawned : t.spawned = s.spawned)
    (calls : ∀ k, t.calls (.startup k) ≠ .returned → s.calls (.startup k) ≠ .returned) : t.Locked where
  holder k := by rw [phases, lifecycle, locked.holder]
  unspawned k later := by
    rw [spawned] at later
    rw [phases, locked.unspawned k later]
  awaits k called := by rw [phases, locked.awaits k (calls k called)]

theorem Locked.startup (locked : s.Locked) (move : StartupMove s i result effect) : (s.advance i effect).Locked := by
  have before := locked.holder i
  have held : effect.startup.phase.holds = true ↔ effect.lifecycle = some i := by
    cases move <;> simp_all [StartupPhase.holds]
  have others : ∀ k, k ≠ i → (s.lifecycle = some k ↔ effect.lifecycle = some k) := by
    intro k other
    have apart := other.symm
    cases move <;> simp_all [StartupPhase.holds]
  have spawned : (s.startups i).phase = .unspawned → effect.startup.phase = .unspawned := by
    cases move <;> simp_all
  have called : effect.call ≠ .returned → effect.startup.phase.awaits = true := by
    cases move <;> simp [StartupPhase.awaits]
  refine ⟨?_, ?_, ?_⟩
  · refine (Function.forall_update_iff s.startups fun k t => t.phase.holds = true ↔ effect.lifecycle = some k).mpr ?_
    exact ⟨held, fun k other => (locked.holder k).trans (others k other)⟩
  · refine (Function.forall_update_iff s.startups fun k t => s.spawned ≤ k → t.phase = .unspawned).mpr ?_
    exact ⟨fun later => spawned (locked.unspawned i later), fun k _ => locked.unspawned k⟩
  · intro k open_
    rcases eq_or_ne k i with rfl | other
    · simp only [advance, Function.update_self] at open_ ⊢
      exact called open_
    · have elsewhere : Goroutine.startup k ≠ .startup i := by simpa using other
      simp only [advance, Function.update_of_ne elsewhere] at open_
      simp only [advance, Function.update_of_ne other]
      exact locked.awaits k open_

theorem Locked.spawned (locked : s.Locked) :
    Locked { s.setPhase s.spawned .waiting with main := .idle, spawned := s.spawned + 1 } := by
  have fresh := locked.unspawned s.spawned (Nat.le_refl _)
  refine ⟨?_, ?_, ?_⟩
  · have before := locked.holder s.spawned
    rw [fresh] at before
    refine (Function.forall_update_iff s.startups fun k t => t.phase.holds = true ↔ s.lifecycle = some k).mpr ?_
    exact ⟨before, fun k _ => locked.holder k⟩
  · refine (Function.forall_update_iff s.startups fun k t => s.spawned + 1 ≤ k → t.phase = .unspawned).mpr ?_
    exact ⟨fun later => absurd later (Nat.not_succ_le_self _), fun k _ later => locked.unspawned k (Nat.le_of_succ_le later)⟩
  · refine (Function.forall_update_iff s.startups fun k t => s.calls (.startup k) ≠ .returned → t.phase.awaits = true).mpr ?_
    refine ⟨fun called => ?_, fun k _ => locked.awaits k⟩
    have before := locked.awaits s.spawned called
    rw [fresh] at before
    cases before

theorem Locked.step (locked : s.Locked) (move : ServerMove s event t) : t.Locked := by
  cases move with
  | idles => exact locked
  | @calls g _ _ _ open_ move =>
    refine locked.congr (fun k => (move.cleaned k).phase) rfl rfl ?_
    intro k called
    rcases eq_or_ne (Goroutine.startup k) g with rfl | other
    · exact open_
    · simp only [Function.update_of_ne other] at called
      exact called
  | spawns => exact locked.spawned
  | advances quiet move => exact locked.startup move
  | returning | returned => exact locked.congr (update_component Startup.phase rfl) rfl rfl (fun k called => called)
  | _ =>
    exact locked.congr (fun k => rfl) rfl rfl (fun k called => called)

/-- While the server leads, the main loop is at rest or about to spawn; while it calls a function it took, no cleanup is
registered. -/
structure Led (s : Server) : Prop where
  leader : s.isLeader = true → s.stopped = false ∧ s.main.away = false
  stopCalled : s.stopper ≠ .uncalled → s.stopped = true
  mainCall : s.calls .main ≠ .returned → ∃ ending, s.main = .cancelling ending
  stopperCall : s.calls .stopper ≠ .returned → s.stopper = .cancelling
  unregistered : ∀ ending, s.main = .cancelling ending → ∀ k, s.stopProviderFunc ≠ some (.cleanup k)

theorem Led.congr (led : s.Led) (isLeader : t.isLeader = s.isLeader) (stopped : t.stopped = s.stopped) (main : t.main = s.main)
    (stopper : t.stopper = s.stopper) (mainCall : t.calls .main ≠ .returned → s.calls .main ≠ .returned)
    (stopperCall : t.calls .stopper ≠ .returned → s.calls .stopper ≠ .returned)
    (registered : ∀ ending, s.main = .cancelling ending → ∀ k, t.stopProviderFunc = some (.cleanup k) →
      s.stopProviderFunc = some (.cleanup k)) : t.Led where
  leader := by rw [isLeader, stopped, main]; exact led.leader
  stopCalled := by rw [stopper, stopped]; exact led.stopCalled
  mainCall called := by rw [main]; exact led.mainCall (mainCall called)
  stopperCall called := by rw [stopper]; exact led.stopperCall (stopperCall called)
  unregistered ending cancelling k cleanup := by
    rw [main] at cancelling
    exact led.unregistered ending cancelling k (registered ending cancelling k cleanup)

theorem Led.not_leader (led : s.Led) (away : s.main.away = true) : s.isLeader = false := by
  rw [← Bool.not_eq_true]
  intro leads
  cases away.symm.trans (led.leader leads).2

theorem Led.quiet_main (led : s.Led) (main : s.main = .idle) : s.calls .main = .returned := by
  by_contra called
  obtain ⟨ending, cancelling⟩ := led.mainCall called
  cases main.symm.trans cancelling

theorem Led.step (led : s.Led) (move : ServerMove s event t) : t.Led := by
  cases move with
  | idles => exact led
  | changes isLeader _ _ main running =>
    refine ⟨?_, led.stopCalled, fun called => absurd (led.quiet_main main) called, led.stopperCall, ?_⟩
    · intro leads
      have now : isLeader = true := leads
      exact ⟨running, by rw [now]; rfl⟩
    · intro ending busy
      cases isLeader with
      | true | false => cases busy
  | signals main =>
    refine ⟨?_, fun _ => rfl, fun called => absurd (led.quiet_main main) called, led.stopperCall, ?_⟩
    · intro leads
      cases leads
    · intro ending busy
      cases busy
  | stops =>
    refine ⟨?_, fun _ => rfl, led.mainCall, fun _ => rfl, led.unregistered⟩
    intro leads
    cases leads
  | @calls g _ _ call open_ =>
    have earlier : ∀ other, Function.update s.calls g call other ≠ .returned → s.calls other ≠ .returned := by
      refine (Function.forall_update_iff s.calls fun other c => c ≠ .returned → s.calls other ≠ .returned).mpr ?_
      exact ⟨fun _ => open_, fun other _ => id⟩
    exact led.congr rfl rfl rfl rfl (earlier .main) (earlier .stopper) (fun _ _ _ => id)
  | spawns quiet =>
    refine ⟨?_, led.stopCalled, fun called => absurd quiet called, led.stopperCall, ?_⟩
    · intro leads
      exact ⟨(led.leader leads).1, rfl⟩
    · intro ending busy
      cases busy
  | drops ending quiet main =>
    refine ⟨?_, led.stopCalled, fun _ => ⟨ending, rfl⟩, led.stopperCall, ?_⟩
    · intro leads
      cases (led.not_leader (by rw [main]; rfl)).symm.trans leads
    · intro _ _ k registered
      cases registered
  | rests ending quiet main =>
    refine ⟨?_, led.stopCalled, fun called => absurd quiet called, led.stopperCall, ?_⟩
    · intro leads
      cases (led.not_leader (by rw [main]; rfl)).symm.trans leads
    · intro other busy
      cases ending with
      | true | false => cases busy
  | ends quiet stopper =>
    refine ⟨led.leader, ?_, led.mainCall, fun called => absurd quiet called, led.unregistered⟩
    exact fun _ => led.stopCalled (by rw [stopper]; decide)
  | advances quiet move =>
    refine led.congr rfl rfl rfl rfl id id ?_
    intro ending busy k cleanup
    have unled := led.not_leader (by rw [busy]; rfl)
    cases move <;> simp_all [advance]
  | _ => exact led.congr rfl rfl rfl rfl id id (fun _ _ _ => id)

/-- A cleanup that runs is run by some goroutine, and it began by cancelling the context. -/
structure Closable (s : Server) : Prop where
  closer : ∀ i, (s.startups i).cleanupOnce = .running → ∃ g, s.calls g = .closing i
  begun : ∀ i, (s.startups i).cleanupOnce ≠ .unused → (s.startups i).cancelled = true
  closing : ∀ g i, s.calls g = .closing i → (s.startups i).cancelled = true

theorem Closable.congr (closable : s.Closable) (once : ∀ k, (t.startups k).cleanupOnce = (s.startups k).cleanupOnce)
    (cancelled : ∀ k, (t.startups k).cancelled = (s.startups k).cancelled)
    (calls : ∀ g k, t.calls g = .closing k ↔ s.calls g = .closing k) : t.Closable where
  closer k running := by
    rw [once] at running
    obtain ⟨g, closing⟩ := closable.closer k running
    exact ⟨g, (calls g k).mpr closing⟩
  begun k used := by
    rw [once] at used
    rw [cancelled, closable.begun k used]
  closing g k closing := by rw [cancelled, closable.closing g k ((calls g k).mp closing)]

/-- A goroutine outside any call opens one: the calls that close something are the same. -/
theorem closing_update_iff {call : Call} (quiet : s.calls g = .returned) (opened : ∀ k, call ≠ .closing k) (other : Goroutine)
    (k : ℕ) : Function.update s.calls g call other = .closing k ↔ s.calls other = .closing k := by
  rcases eq_or_ne other g with rfl | different
  · rw [Function.update_self, quiet]
    exact iff_of_false (opened k) Call.noConfusion
  · rw [Function.update_of_ne different]

theorem Closable.call {startups : ℕ → Startup} {call : Call} (closable : s.Closable) (move : CallMove s g startups call) :
    Closable { s with startups := startups, calls := Function.update s.calls g call } := by
  -- A cleanup that was running before is run by another goroutine, or by this one, which then ends it.
  have elsewhere : ∀ k, (s.startups k).cleanupOnce = .running → s.calls g ≠ .closing k →
      ∃ other, Function.update s.calls g call other = .closing k := by
    intro k running busy
    obtain ⟨other, closing⟩ := closable.closer k running
    refine ⟨other, ?_⟩
    rw [Function.update_of_ne, closing]
    rintro rfl
    exact busy closing
  refine ⟨?_, ?_, ?_⟩
  · intro k running
    cases move with
    | cancels i called =>
      refine elsewhere k ((update_component Startup.cleanupOnce ?_ k).symm.trans running) (by rw [called]; exact Call.noConfusion)
      rfl
    | begins i called =>
      rcases eq_or_ne k i with rfl | other
      · exact ⟨g, by simp⟩
      · exact elsewhere k (by simpa [other] using running) (by rw [called]; exact Call.noConfusion)
    | waits i called | late i called => exact elsewhere k running (by rw [called]; exact Call.noConfusion)
    | closes i called =>
      rcases eq_or_ne k i with rfl | other
      · simp at running
      · refine elsewhere k (by simpa [other] using running) ?_
        rw [called]
        intro same
        exact other (Call.closing.inj same).symm
  · intro k used
    cases move with
    | cancels i | begins i =>
      rcases eq_or_ne k i with rfl | other
      · simp
      · simpa [other] using closable.begun k (by simpa [other] using used)
    | waits i | late i => exact closable.begun k used
    | closes i called =>
      rcases eq_or_ne k i with rfl | other
      · simpa using closable.closing g k called
      · simpa [other] using closable.begun k (by simpa [other] using used)
  · intro other k closing
    rcases eq_or_ne other g with rfl | different
    · simp only [Function.update_self] at closing
      cases move with
      | begins i =>
        cases closing
        simp
      | _ => cases closing
    · simp only [Function.update_of_ne different] at closing
      exact (move.cleaned k).cancelled (closable.closing other k closing)

theorem Closable.step (closable : s.Closable) (led : s.Led) (move : ServerMove s event t) : t.Closable := by
  cases move with
  | idles => exact closable
  | stops uncalled =>
    have quiet : s.calls .stopper = .returned := by
      by_contra called
      rw [led.stopperCall called] at uncalled
      cases uncalled
    exact closable.congr (fun _ => rfl) (fun _ => rfl) (closing_update_iff quiet (Call.of_ne_closing _))
  | calls open_ move => exact closable.call move
  | spawns | returned =>
    exact closable.congr (update_component Startup.cleanupOnce rfl) (update_component Startup.cancelled rfl)
      (fun _ _ => Iff.rfl)
  | drops ending quiet =>
    exact closable.congr (fun _ => rfl) (fun _ => rfl) (closing_update_iff quiet (Call.of_ne_closing _))
  | @advances _ _ effect quiet move =>
    obtain ⟨cancelled, once⟩ := move.kept
    have opened : ∀ k, effect.call ≠ .closing k := by
      intro k
      cases move <;> first | exact Call.noConfusion | exact Call.of_ne_closing _ k
    exact closable.congr (update_component Startup.cleanupOnce once) (update_component Startup.cancelled cancelled)
      (closing_update_iff quiet opened)
  | returning quiet =>
    exact closable.congr (update_component Startup.cleanupOnce rfl) (update_component Startup.cancelled rfl)
      (closing_update_iff quiet (fun _ => Call.noConfusion))
  | _ =>
    exact closable.congr (fun _ => rfl) (fun _ => rfl) (fun _ _ => Iff.rfl)

end Server

end Spotter.Internal
