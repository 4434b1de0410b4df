import Mathlib.Tactic.Common
import Spotter.Internal.Lifecycle

/-! # What the steps of the server can do

One relation for the steps inside a called cancel function and one for a startup's own steps. A startup
writes its own record, its own call, and of the shared state the generation, the registered cancel function
and the lifecycle lock.
-/

namespace Spotter.Internal

/-- The startup that a cancel function belongs to. -/
def CancelFunc.target : CancelFunc → ℕ
  | .wcancel i => i
  | .cleanup i => i

namespace Server

variable {s : Server} {g : Goroutine} {i : ℕ}

/-- A step inside a called cancel function: the startups afterwards and what is left of the call. -/
inductive CallMove (s : Server) (g : Goroutine) : (ℕ → Startup) → Call → Prop where
  | cancels (i : ℕ) (open_ : s.calls g = .calling (.wcancel i)) :
      CallMove s g (Function.update s.startups i { s.startups i with cancelled := true }) .returned
  | begins (i : ℕ) (open_ : s.calls g = .calling (.cleanup i)) (first : (s.startups i).cleanupOnce = .unused) :
      CallMove s g (Function.update s.startups i { s.startups i with cancelled := true, cleanupOnce := .running }) (.closing i)
  | waits (i : ℕ) (open_ : s.calls g = .calling (.cleanup i)) (during : (s.startups i).cleanupOnce = .running) :
      CallMove s g s.startups (.calling (.cleanup i))
  | late (i : ℕ) (open_ : s.calls g = .calling (.cleanup i)) (done : (s.startups i).cleanupOnce = .done) :
      CallMove s g s.startups .returned
  | closes (i : ℕ) (open_ : s.calls g = .closing i) :
      CallMove s g (Function.update s.startups i { s.startups i with cleanupOnce := .done }) .returned

theorem callStep_cases (open_ : s.calls g ≠ .returned) : ∃ startups call, CallMove s g startups call ∧
      s.callStep g = { s with startups := startups, calls := Function.update s.calls g call } := by
  unfold callStep
  cases calls : s.calls g with
  | returned => exact absurd calls open_
  | calling cancel =>
    cases cancel with
    | wcancel i => exact ⟨_, _, .cancels i calls, rfl⟩
    | cleanup i =>
      simp only
      cases once : (s.startups i).cleanupOnce with
      | unused => exact ⟨_, _, .begins i calls once, rfl⟩
      | running =>
        refine ⟨_, _, .waits i calls once, ?_⟩
        rw [← calls, Function.update_eq_self]
      | done => exact ⟨_, _, .late i calls once, rfl⟩
  | closing i => exact ⟨_, _, .closes i calls, rfl⟩

/-- What a call leaves alone, and in which direction it changes the rest. -/
structure Cleaned (old new : Startup) : Prop where
  phase : new.phase = old.phase
  committed : new.committed = old.committed
  providers : new.providers = old.providers
  cancelled : old.cancelled = true → new.cancelled = true
  done : old.cleanupOnce = .done → new.cleanupOnce = .done

theorem Cleaned.refl (startup : Startup) : Cleaned startup startup := ⟨rfl, rfl, rfl, id, id⟩

/-- What an update keeps of its own startup it keeps of each. -/
theorem update_keeps (keeps : Startup → Startup → Prop) (refl : ∀ startup, keeps startup startup) {startups : ℕ → Startup}
    {startup : Startup} (own : keeps (startups i) startup) (k : ℕ) :
    keeps (startups k) (Function.update startups i startup k) := by
  rcases eq_or_ne k i with rfl | other
  · rwa [Function.update_self]
  · rw [Function.update_of_ne other]
    exact refl _

theorem CallMove.cleaned {startups : ℕ → Startup} {call : Call} (move : CallMove s g startups call) (k : ℕ) :
    Cleaned (s.startups k) (startups k) := by
  cases move with
  | cancels i =>
    refine update_keeps Cleaned .refl ?_ k
    exact ⟨rfl, rfl, rfl, fun _ => rfl, id⟩
  | begins i _ first =>
    refine update_keeps Cleaned .refl ?_ k
    refine ⟨rfl, rfl, rfl, fun _ => rfl, fun done => ?_⟩
    cases first.symm.trans done
  | waits i | late i => exact .refl _
  | closes i =>
    refine update_keeps Cleaned .refl ?_ k
    exact ⟨rfl, rfl, rfl, id, fun _ => rfl⟩

/-- What a startup's own step leaves: its record, its call, the generation, the registered function and the lock. -/
structure StartupEffect where
  startup : Startup
  call : Call
  generation : ℕ
  registered : Option CancelFunc
  lifecycle : Option ℕ

/-- The server after a startup's own step. -/
def advance (s : Server) (i : ℕ) (effect : StartupEffect) : Server :=
  { s with
    startups := Function.update s.startups i effect.startup, calls := Function.update s.calls (.startup i) effect.call
    startupGeneration := effect.generation, stopProviderFunc := effect.registered, lifecycle := effect.lifecycle }

/-- The startup goes on to another phase and leaves the shared state alone. -/
abbrev passes (s : Server) (i : ℕ) (phase : StartupPhase) (call : Call) : StartupEffect :=
  ⟨{ s.startups i with phase := phase }, call, s.startupGeneration, s.stopProviderFunc, s.lifecycle⟩

inductive StartupMove (s : Server) (i : ℕ) (result : StartupResult) : StartupEffect → Prop where
  | stays (phase : (s.startups i).phase.holds = false ∨ ∃ generation, (s.startups i).phase = .running generation) :
      StartupMove s i result ⟨s.startups i, .returned, s.startupGeneration, s.stopProviderFunc, s.lifecycle⟩
  | acquires (phase : (s.startups i).phase = .waiting) (free : s.lifecycle = none) :
      StartupMove s i result { s.passes i .stopping .returned with lifecycle := some i }
  | takes (phase : (s.startups i).phase = .stopping) :
      StartupMove s i result
        { s.passes i .cancelling (.of s.stopProviderFunc) with generation := s.startupGeneration + 1, registered := none }
  | proceeds (phase : (s.startups i).phase = .cancelling) : StartupMove s i result (s.passes i .entering .returned)
  | refused (phase : (s.startups i).phase = .entering) (unled : s.isLeader = false ∨ s.stopped = true) :
      StartupMove s i result (s.passes i (.cleaning none) (.calling (.wcancel i)))
  | enters (phase : (s.startups i).phase = .entering) (leads : s.isLeader = true) :
      StartupMove s i result
        { s.passes i (.starting (s.startupGeneration + 1)) .returned with
          generation := s.startupGeneration + 1, registered := some (.wcancel i) }
  | builds (generation others : ℕ) (phase : (s.startups i).phase = .starting generation) :
      StartupMove s i result (s.passes i (.committing generation others) .returned)
  | gives (generation : ℕ) (phase : (s.startups i).phase = .starting generation) (failure : ∀ others, result ≠ .ready others) :
      StartupMove s i result (s.passes i (.clearing generation (some (.wcancel i))) .returned)
  | fails (generation : ℕ) (cancel : CancelFunc) (phase : (s.startups i).phase = .starting generation)
      (failure : ∀ others, result ≠ .ready others) (own : cancel.target = i) :
      StartupMove s i result (s.passes i (.cleaning (some generation)) (.calling cancel))
  | rejected (generation others : ℕ) (phase : (s.startups i).phase = .committing generation others)
      (stale : s.startupGeneration ≠ generation ∨ s.isLeader = false ∨ s.stopped = true ∨ (s.startups i).cancelled = true) :
      StartupMove s i result (s.passes i (.cleaning none) (.calling (.cleanup i)))
  | commits (generation others : ℕ) (phase : (s.startups i).phase = .committing generation others) (leads : s.isLeader = true)
      (live : (s.startups i).cancelled = false) :
      StartupMove s i result
        ⟨{ s.startups i with
          phase := .running generation, committed := true, providers := List.replicate (others + 1) .running },
        .returned, s.startupGeneration, some (.cleanup i), s.lifecycle⟩
  | returns (generation : ℕ) (phase : (s.startups i).phase = .running generation)
      (all : ∀ provider ∈ (s.startups i).providers, provider = .returned) :
      StartupMove s i result (s.passes i (.cleaning (some generation)) (.calling (.cleanup i)))
  | cleaned (generation : ℕ) (phase : (s.startups i).phase = .cleaning (some generation)) :
      StartupMove s i result (s.passes i (.clearing generation none) .returned)
  | clears (generation : ℕ) (cancel registered : Option CancelFunc) (phase : (s.startups i).phase = .clearing generation cancel)
      (cleared : registered = none ∨ registered = s.stopProviderFunc) :
      StartupMove s i result { s.passes i .leaving (.of cancel) with registered := registered }
  | gone (phase : (s.startups i).phase = .cleaning none) :
      StartupMove s i result { s.passes i .finished .returned with lifecycle := none }
  | leaves (phase : (s.startups i).phase = .leaving) :
      StartupMove s i result { s.passes i .finished .returned with lifecycle := none }

variable {result : StartupResult} {effect : StartupEffect}

/-- A startup's own step leaves its context and its cleanup alone. -/
theorem StartupMove.kept (move : StartupMove s i result effect) :
    effect.startup.cancelled = (s.startups i).cancelled ∧ effect.startup.cleanupOnce = (s.startups i).cleanupOnce := by
  cases move with
  | _ => exact ⟨rfl, rfl⟩

theorem startupStep_cases (result : StartupResult) (quiet : s.calls (.startup i) = .returned) :
    ∃ effect, StartupMove s i result effect ∧ s.startupStep i result = s.advance i effect := by
  have silent : Function.update s.calls (.startup i) .returned = s.calls := by rw [← quiet, Function.update_eq_self]
  have stays : s = s.advance i ⟨s.startups i, .returned, s.startupGeneration, s.stopProviderFunc, s.lifecycle⟩ := by
    rw [advance, silent, Function.update_eq_self]
  unfold startupStep
  cases phase : (s.startups i).phase with
  | unspawned => exact ⟨_, .stays (.inl (by rw [phase]; rfl)), stays⟩
  | waiting =>
    simp only
    split_ifs with free
    · exact ⟨_, .acquires phase free, by rw [advance, silent]; rfl⟩
    · exact ⟨_, .stays (.inl (by rw [phase]; rfl)), stays⟩
  | stopping => exact ⟨_, .takes phase, rfl⟩
  | cancelling => exact ⟨_, .proceeds phase, by rw [advance, silent]; rfl⟩
  | entering =>
    simp only [enter]
    split_ifs with unled
    · exact ⟨_, .refused phase unled, rfl⟩
    · have leads : s.isLeader = true := by
        rw [← Bool.not_eq_false]
        exact fun no => unled (.inl no)
      exact ⟨_, .enters phase leads, by rw [advance, silent]; rfl⟩
  | starting generation =>
    cases result with
    | ready others => exact ⟨_, .builds generation others phase, by rw [advance, silent]; rfl⟩
    | noDiscovery =>
      refine ⟨_, .gives generation phase ?_, by rw [advance, silent]; rfl⟩
      intro others ready
      cases ready
    | noRegistry | failed =>
      refine ⟨_, .fails generation _ phase ?_ rfl, rfl⟩
      intro others ready
      cases ready
  | committing generation others =>
    simp only [commit]
    split_ifs with stale
    · exact ⟨_, .rejected generation others phase stale, rfl⟩
    · simp only [not_or, Bool.not_eq_false, Bool.not_eq_true, ne_eq, not_not] at stale
      exact ⟨_, .commits generation others phase stale.2.1 stale.2.2.2, by rw [advance, silent]; rfl⟩
  | running generation =>
    simp only
    split_ifs with all
    · exact ⟨_, .returns generation phase (by simpa using all), rfl⟩
    · exact ⟨_, .stays (.inr ⟨generation, phase⟩), stays⟩
  | cleaning generation =>
    cases generation with
    | none => exact ⟨_, .gone phase, by rw [advance, silent]; rfl⟩
    | some generation => exact ⟨_, .cleaned generation phase, by rw [advance, silent]; rfl⟩
  | clearing generation cancel =>
    refine ⟨_, .clears generation cancel (if s.startupGeneration = generation then none else s.stopProviderFunc) phase ?_, rfl⟩
    split_ifs
    · exact .inl rfl
    · exact .inr rfl
  | leaving => exact ⟨_, .leaves phase, by rw [advance, silent]; rfl⟩
  | finished => exact ⟨_, .stays (.inl (by rw [phase]; rfl)), stays⟩

/-- A step of the server, and the server after it. -/
inductive ServerMove (s : Server) : ServerStep → Server → Prop where
  | idles (step : ServerStep) : ServerMove s step s
  | posts (isLeader : Bool) : ServerMove s (.message isLeader) { s with leaderCh := s.leaderCh ++ [isLeader] }
  | ignores (isLeader : Bool) (rest : List Bool) (channel : s.leaderCh = isLeader :: rest)
      (ignored : s.isLeader = isLeader ∨ s.stopped = true) : ServerMove s .receive { s with leaderCh := rest }
  | changes (isLeader : Bool) (rest : List Bool) (channel : s.leaderCh = isLeader :: rest) (main : s.main = .idle)
      (running : s.stopped = false) :
      ServerMove s .receive
        { s with leaderCh := rest, isLeader := isLeader, main := if isLeader then .spawning else .dropping false }
  | signals (main : s.main = .idle) :
      ServerMove s .receiveStop { s with stopped := true, isLeader := false, main := .dropping true }
  | stops (stopper : s.stopper = .uncalled) :
      ServerMove s .callStop
        { s.setCall .stopper (.of s.stopProviderFunc) with stopped := true, isLeader := false, stopper := .cancelling }
  | calls {g : Goroutine} {result : StartupResult} {startups : ℕ → Startup} {call : Call} (open_ : s.calls g ≠ .returned)
      (move : CallMove s g startups call) :
      ServerMove s (.run g result) { s with startups := startups, calls := Function.update s.calls g call }
  | spawns {result : StartupResult} (quiet : s.calls .main = .returned) (main : s.main = .spawning) :
      ServerMove s (.run .main result) { s.setPhase s.spawned .waiting with main := .idle, spawned := s.spawned + 1 }
  | drops {result : StartupResult} (ending : Bool) (quiet : s.calls .main = .returned) (main : s.main = .dropping ending) :
      ServerMove s (.run .main result) { s.takeCancel .main with main := .cancelling ending }
  | rests {result : StartupResult} (ending : Bool) (quiet : s.calls .main = .returned) (main : s.main = .cancelling ending) :
      ServerMove s (.run .main result) { s with main := if ending then .ended else .idle }
  | ends {result : StartupResult} (quiet : s.calls .stopper = .returned) (stopper : s.stopper = .cancelling) :
      ServerMove s (.run .stopper result) { s with stop := true, stopper := .done }
  | advances {i : ℕ} {result : StartupResult} {effect : StartupEffect} (quiet : s.calls (.startup i) = .returned)
      (move : StartupMove s i result effect) : ServerMove s (.run (.startup i) result) (s.advance i effect)
  | returning {i j : ℕ} {result : StartupResult} (quiet : s.calls (.provider i j) = .returned)
      (found : (s.startups i).providers[j]? = some .running) :
      ServerMove s (.run (.provider i j) result)
        ((s.setStartup i { s.startups i with providers := (s.startups i).providers.set j .returning }).setCall (.provider i j)
          (.calling (.cleanup i)))
  | returned {i j : ℕ} {result : StartupResult} (found : (s.startups i).providers[j]? = some .returning) :
      ServerMove s (.run (.provider i j) result)
        (s.setStartup i { s.startups i with providers := (s.startups i).providers.set j .returned })
  | writes (i : ℕ) (isOpen : (s.startups i).committed = true ∧ (s.startups i).cleanupOnce ≠ .done) :
      ServerMove s (.write i) { s with writes := s.writes ++ [i] }

theorem run_moves (s : Server) (g : Goroutine) (result : StartupResult) : ServerMove s (.run g result) (s.run g result) := by
  unfold run
  split_ifs with quiet
  · obtain ⟨startups, call, move, moved⟩ := callStep_cases quiet
    rw [moved]
    exact .calls quiet move
  · rw [not_not] at quiet
    cases g with
    | main =>
      simp only [mainStep]
      cases main : s.main with
      | idle | ended => exact .idles _
      | spawning => exact .spawns quiet main
      | dropping ending => exact .drops ending quiet main
      | cancelling ending => exact .rests ending quiet main
    | stopper =>
      simp only [stopperStep]
      cases stopper : s.stopper with
      | uncalled | done => exact .idles _
      | cancelling => exact .ends quiet stopper
    | startup i =>
      obtain ⟨effect, move, moved⟩ := startupStep_cases result quiet
      simp only [moved]
      exact .advances quiet move
    | provider i j =>
      simp only [providerStep]
      split
      · next found => exact .returning quiet found
      · next found => exact .returned found
      · exact .idles _

theorem step_moves (s : Server) (step : ServerStep) : ServerMove s step (s.step step) := by
  cases step with
  | message isLeader => exact .posts isLeader
  | receive =>
    simp only [step, receive]
    split
    · next isLeader rest main channel =>
      by_cases ignored : s.isLeader = isLeader ∨ s.stopped = true
      · rw [if_pos ignored]
        exact .ignores isLeader rest channel ignored
      · rw [if_neg ignored]
        exact .changes isLeader rest channel main (by simpa using (not_or.mp ignored).2)
    · exact .idles _
  | receiveStop =>
    simp only [step, receiveStop]
    split_ifs with signalled
    · exact .signals signalled.1
    · exact .idles _
  | callStop =>
    simp only [step, callStop]
    cases stopper : s.stopper with
    | uncalled => exact .stops stopper
    | cancelling | done => exact .idles _
  | run g result => exact run_moves s g result
  | write i =>
    simp only [step, write]
    split_ifs with isOpen
    · exact .writes i isOpen
    · exact .idles _

end Server

end Spotter.Internal
