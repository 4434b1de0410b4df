import Mathlib.Data.Nat.Notation
import Mathlib.Logic.Function.Basic

/-! # The server's provider sets

The goroutines of the server: the main loop, the caller of `Stop`, one startup goroutine per leadership
gained, and the providers each startup runs. A step runs one goroutine up to its next use of shared state;
the sections under the server's lock are single steps. A goroutine that called a cancel function goes on
when the call has returned.

What a startup builds before it commits (clients, sinks, fan-out, worker) appears through the three ways
in which the source leaves a startup that failed. The debug recorder, the metrics server and the
notifications are left out, and so is the list of providers the debug endpoint reads.
-/

namespace Spotter.Internal

/-- The goroutines; startups are numbered in the order in which they are spawned. -/
inductive Goroutine where
  | main
  | stopper
  | startup (index : ℕ)
  | provider (startup index : ℕ)
deriving DecidableEq

/-- A cancel function: the one of a startup's context, or a startup's whole cleanup. -/
inductive CancelFunc where
  | wcancel (startup : ℕ)
  | cleanup (startup : ℕ)
deriving DecidableEq

/-- A goroutine's call of a cancel function; the call that runs a cleanup is closing the fan-out. -/
inductive Call where
  | returned
  | calling (cancel : CancelFunc)
  | closing (startup : ℕ)
deriving DecidableEq

/-- Call a cancel function unless it is nil. -/
def Call.of : Option CancelFunc → Call
  | none => .returned
  | some cancel => .calling cancel

/-- How far a startup's cleanup is: it runs once, and further calls wait until it is done. -/
inductive CleanupOnce where
  | unused
  | running
  | done
deriving DecidableEq

inductive ProviderPhase where
  | running
  | returning
  | returned
deriving DecidableEq

/-- Where a startup goroutine is in `stopAndStartProviders`. -/
inductive StartupPhase where
  | unspawned
  | waiting
  | stopping
  | cancelling
  | entering
  | starting (generation : ℕ)
  | committing (generation others : ℕ)
  | running (generation : ℕ)
  | cleaning (generation : Option ℕ)
  | clearing (generation : ℕ) (cancel : Option CancelFunc)
  | leaving
  | finished
deriving DecidableEq

/-- The goroutine has the lifecycle lock. -/
def StartupPhase.holds : StartupPhase → Bool
  | .unspawned | .waiting | .finished => false
  | _ => true

/-- A startup and the provider set it builds: whether its context is cancelled, its cleanup, and its providers. -/
structure Startup where
  phase : StartupPhase := .unspawned
  cancelled : Bool := false
  cleanupOnce : CleanupOnce := .unused
  committed : Bool := false
  providers : List ProviderPhase := []
deriving DecidableEq

/-- What building the sinks and the providers comes to: a provider and some others, or a failure before any sink, of the
Atlas registry, or later. -/
inductive StartupResult where
  | ready (others : ℕ)
  | noDiscovery
  | noRegistry
  | failed
deriving DecidableEq

/-- Where the main loop is; `ending` tells the handling of the stop signal from that of a leadership loss. -/
inductive MainPhase where
  | idle
  | spawning
  | dropping (ending : Bool)
  | cancelling (ending : Bool)
  | ended
deriving DecidableEq

inductive StopPhase where
  | uncalled
  | cancelling
  | done
deriving DecidableEq

/-- The server; `lifecycle` is the startup that has the lifecycle lock, `stop` says that the stop channel is closed, and
`writes` records the startups whose fan-out began a sink write. -/
structure Server where
  isLeader : Bool := false
  stopped : Bool := false
  startupGeneration : ℕ := 0
  stopProviderFunc : Option CancelFunc := none
  lifecycle : Option ℕ := none
  leaderCh : List Bool := []
  stop : Bool := false
  main : MainPhase := .idle
  stopper : StopPhase := .uncalled
  spawned : ℕ := 0
  startups : ℕ → Startup := fun _ => {}
  calls : Goroutine → Call := fun _ => .returned
  writes : List ℕ := []

/-- A leader change arrives, the main loop takes a message or the stop signal, `Stop` is called, a goroutine runs, or a
write begins. -/
inductive ServerStep where
  | message (isLeader : Bool)
  | receive
  | receiveStop
  | callStop
  | run (goroutine : Goroutine) (result : StartupResult)
  | write (startup : ℕ)
deriving DecidableEq

namespace Server

variable (s : Server)

def setStartup (i : ℕ) (startup : Startup) : Server :=
  { s with startups := Function.update s.startups i startup }

def setCall (g : Goroutine) (call : Call) : Server := { s with calls := Function.update s.calls g call }

def setPhase (i : ℕ) (phase : StartupPhase) : Server :=
  s.setStartup i { s.startups i with phase := phase }

/-- A step inside a called cancel function. -/
def callStep (g : Goroutine) : Server :=
  match s.calls g with
  | .returned => s
  | .calling (.wcancel i) => (s.setStartup i { s.startups i with cancelled := true }).setCall g .returned
  | .calling (.cleanup i) =>
    match (s.startups i).cleanupOnce with
    | .unused => (s.setStartup i { s.startups i with cancelled := true, cleanupOnce := .running }).setCall g (.closing i)
    | .running => s
    | .done => s.setCall g .returned
  | .closing i => (s.setStartup i { s.startups i with cleanupOnce := .done }).setCall g .returned

/-- The locked section of `stopProviders`, whose caller then calls the function it took. -/
def takeCancel (g : Goroutine) : Server :=
  { s.setCall g (.of s.stopProviderFunc) with startupGeneration := s.startupGeneration + 1, stopProviderFunc := none }

/-- The main loop takes a leader change. -/
def receive : Server :=
  match s.main, s.leaderCh with
  | .idle, isLeader :: rest =>
    if s.isLeader = isLeader ∨ s.stopped = true then { s with leaderCh := rest }
    else { s with leaderCh := rest, isLeader := isLeader, main := if isLeader then .spawning else .dropping false }
  | _, _ => s

/-- The main loop takes the stop signal. -/
def receiveStop : Server :=
  if s.main = .idle ∧ s.stop = true then { s with stopped := true, isLeader := false, main := .dropping true } else s

def mainStep : Server :=
  match s.main with
  | .idle => s
  | .spawning => { s.setPhase s.spawned .waiting with main := .idle, spawned := s.spawned + 1 }
  | .dropping ending => { s.takeCancel .main with main := .cancelling ending }
  | .cancelling ending => { s with main := if ending then .ended else .idle }
  | .ended => s

/-- `Stop`, up to the call of the cancel function it read; only the first call does anything. -/
def callStop : Server :=
  match s.stopper with
  | .uncalled =>
    { s.setCall .stopper (.of s.stopProviderFunc) with stopped := true, isLeader := false, stopper := .cancelling }
  | _ => s

def stopperStep : Server :=
  match s.stopper with
  | .cancelling => { s with stop := true, stopper := .done }
  | _ => s

/-- The goroutine gives the lifecycle lock back. -/
def finish (i : ℕ) : Server := { s.setPhase i .finished with lifecycle := none }

/-- A startup's context is created and registered if the server still leads. -/
def enter (i : ℕ) : Server :=
  if s.isLeader = false ∨ s.stopped = true then (s.setPhase i (.cleaning none)).setCall (.startup i) (.calling (.wcancel i))
  else
    { s.setPhase i (.starting (s.startupGeneration + 1)) with
      startupGeneration := s.startupGeneration + 1, stopProviderFunc := some (.wcancel i) }

/-- The last check of a startup; if it passes, the set is committed and its providers run. -/
def commit (i generation others : ℕ) : Server :=
  if s.startupGeneration ≠ generation ∨ s.isLeader = false ∨ s.stopped = true ∨ (s.startups i).cancelled = true then
    (s.setPhase i (.cleaning none)).setCall (.startup i) (.calling (.cleanup i))
  else
    { s.setStartup i { s.startups i with
        phase := .running generation, committed := true, providers := List.replicate (others + 1) .running } with
      stopProviderFunc := some (.cleanup i) }

/-- The locked section of `clearStartup`. -/
def clear (i generation : ℕ) (cancel : Option CancelFunc) : Server :=
  { (s.setPhase i .leaving).setCall (.startup i) (.of cancel) with
    stopProviderFunc := if s.startupGeneration = generation then none else s.stopProviderFunc }

def startupStep (i : ℕ) (result : StartupResult) : Server :=
  match (s.startups i).phase with
  | .unspawned => s
  | .waiting => if s.lifecycle = none then { s.setPhase i .stopping with lifecycle := some i } else s
  | .stopping => (s.setPhase i .cancelling).takeCancel (.startup i)
  | .cancelling => s.setPhase i .entering
  | .entering => s.enter i
  | .starting generation =>
    match result with
    | .ready others => s.setPhase i (.committing generation others)
    | .noDiscovery => s.setPhase i (.clearing generation (some (.wcancel i)))
    | .noRegistry => (s.setPhase i (.cleaning (some generation))).setCall (.startup i) (.calling (.wcancel i))
    | .failed => (s.setPhase i (.cleaning (some generation))).setCall (.startup i) (.calling (.cleanup i))
  | .committing generation others => s.commit i generation others
  | .running generation =>
    if (s.startups i).providers.all (fun provider => decide (provider = .returned)) then
      (s.setPhase i (.cleaning (some generation))).setCall (.startup i) (.calling (.cleanup i))
    else s
  | .cleaning (some generation) => s.setPhase i (.clearing generation none)
  | .cleaning none => s.finish i
  | .clearing generation cancel => s.clear i generation cancel
  | .leaving => s.finish i
  | .finished => s

/-- A provider returns and runs the set's cleanup. -/
def providerStep (i j : ℕ) : Server :=
  match (s.startups i).providers[j]? with
  | some .running =>
    (s.setStartup i { s.startups i with providers := (s.startups i).providers.set j .returning }).setCall (.provider i j)
      (.calling (.cleanup i))
  | some .returning =>
    s.setStartup i { s.startups i with providers := (s.startups i).providers.set j .returned }
  | _ => s

/-- A goroutine runs: its open call first, and otherwise its own code. -/
def run (g : Goroutine) (result : StartupResult) : Server :=
  if s.calls g ≠ .returned then s.callStep g
  else
    match g with
    | .main => s.mainStep
    | .stopper => s.stopperStep
    | .startup i => s.startupStep i result
    | .provider i j => s.providerStep i j

/-- A committed set's fan-out begins a sink write; a closed fan-out refuses every write. -/
def write (i : ℕ) : Server :=
  if (s.startups i).committed = true ∧ (s.startups i).cleanupOnce ≠ .done then { s with writes := s.writes ++ [i] } else s

def step : ServerStep → Server
  | .message isLeader => { s with leaderCh := s.leaderCh ++ [isLeader] }
  | .receive => s.receive
  | .receiveStop => s.receiveStop
  | .callStop => s.callStop
  | .run g result => s.run g result
  | .write i => s.write i

def after (history : List ServerStep) : Server := history.foldl step s

end Server

end Spotter.Internal
