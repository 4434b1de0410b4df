import Spotter.Worker.OrderedSink

/-! # The fan-out

The fan-out broadcasts a push to every registered sink at once and aggregates the failures in
declaration order. Each sink works behind its own gate, so a broadcast is one call per sink in the
sink's own environment; the sinks' names are fixed at construction and form an identity.
-/

namespace Spotter.Worker

open Domain Ports

/-- The queue-depth label that no sink may claim. -/
def totalSinkName : String := "__total__"

/-- What construction guarantees of the sink names. -/
structure WellNamed (names : List String) : Prop where
  registered : names ≠ []
  distinct : names.Nodup
  named : "" ∉ names
  unreserved : totalSinkName ∉ names

structure NamedSink where
  name : String
  sink : OrderedSink

structure FanoutSink where
  sinks : List NamedSink
  wellNamed : WellNamed (sinks.map NamedSink.name)

/-- One sink's share of a push: the sink before it and the call it receives. -/
structure SinkAttempt where
  name : String
  before : OrderedSink
  step : SinkStep

def SinkAttempt.outcome (attempt : SinkAttempt) : Outcome := attempt.before.apply attempt.step

/-- `collectFailures`: the failed sinks in declaration order. -/
def collectFailures (attempts : List SinkAttempt) : Option GoError :=
  match attempts.filterMap (fun attempt => attempt.outcome.err.map fun err => (attempt.name, err)) with
  | [] => none
  | failures => some (.fanout failures)

structure FanoutOutcome where
  fanout : FanoutSink
  attempts : List SinkAttempt
  err : Option GoError

namespace FanoutSink

variable (f : FanoutSink)

/-- `Sinks`: the registered names in declaration order. -/
def names : List String := f.sinks.map NamedSink.name

/-- Replace every sink's state, leaving the registration alone. -/
def mapSinks (change : NamedSink → OrderedSink) : FanoutSink where
  sinks := f.sinks.map (fun named => { named with sink := change named })
  wellNamed := by
    have names : (f.sinks.map fun named => { named with sink := change named }).map NamedSink.name =
        f.sinks.map NamedSink.name := by
      rw [List.map_map]
      rfl
    rw [names]
    exact f.wellNamed

/-- Run one call on every sink. -/
def broadcast (step : String → SinkStep) : FanoutOutcome :=
  let attempts := f.sinks.map fun named => ⟨named.name, named.sink, step named.name⟩
  ⟨f.mapSinks (fun named => (named.sink.apply (step named.name)).sink), attempts, collectFailures attempts⟩

/-- Run one call on the sink of the given name, if there is one. -/
def dispatch (name : String) (unknown : GoError) (step : SinkStep) : FanoutOutcome :=
  match f.sinks.find? (fun named => named.name == name) with
  | some named =>
    let outcome := named.sink.apply step
    ⟨f.mapSinks (fun other => if other.name = name then outcome.sink else other.sink), [⟨name, named.sink, step⟩], outcome.err⟩
  | none => ⟨f, [], some unknown⟩

def push (f : FanoutSink) (trigger : ℤ) (items : Instances) (env : String → SinkEnv) : FanoutOutcome :=
  f.broadcast fun name => (.push trigger items, env name)

def pushTo (name : String) (trigger : ℤ) (items : Instances) (env : SinkEnv) :
    FanoutOutcome :=
  f.dispatch name (.errorf "worker: fanout PushTo unknown sink %q (known sinks: %s)" (name :: f.names))
    (.push trigger items, env)

def pushAllWithRevalidate (f : FanoutSink) (trigger : ℤ) (items : Instances) (revalidate : Bool)
    (env : String → SinkEnv) : FanoutOutcome :=
  f.broadcast fun name => (.pushAllWithRevalidate trigger items revalidate, env name)

/-- An operation without a sink goes to every sink under that sink's name. -/
def pushAllOperation (f : FanoutSink) (operation : RetryOperation) (env : String → SinkEnv) : FanoutOutcome :=
  if operation.sink = "" then
    f.broadcast fun name => (.pushAllOperation { operation with sink := name }, env name)
  else
    f.dispatch operation.sink (.errorf "worker: full operation sink %q is not registered" [operation.sink])
      (.pushAllOperation operation, env operation.sink)

/-- `Close`: every sink is closed. -/
def close (f : FanoutSink) : FanoutSink := f.mapSinks fun named => named.sink.close

/-- What other callers do to the sinks meanwhile. -/
def interfere (gap : String → List SinkStep) : FanoutSink :=
  f.mapSinks fun named => named.sink.after (gap named.name)

theorem mem_broadcast_attempts {f : FanoutSink} {step : String → SinkStep} {attempt : SinkAttempt} :
    attempt ∈ (f.broadcast step).attempts ↔
      ∃ named ∈ f.sinks, attempt = ⟨named.name, named.sink, step named.name⟩ := by
  simp only [broadcast, List.mem_map, eq_comm]

end FanoutSink

/-! ## Reading the aggregate -/

/-- Some failure of the aggregate is not the stale rejection. -/
def hasNonStaleFanoutFailure (err : GoError) : Bool :=
  match err.asFanout with
  | some failures => failures.any fun failure => !failure.2.isStale
  | none => false

/-- The sinks a push error queues retries for: the named failures that are not stale, or every known
sink when the error names none. -/
def failedSinkNames (err : GoError) (known : List String) : List String :=
  if known.isEmpty then []
  else match err.asFanout with
    | some failures =>
      if failures.isEmpty then known
      else (failures.filter fun failure => !failure.2.isStale).map Prod.fst
    | none => known

/-- The aggregate of a broadcast is a stale rejection and nothing else exactly when some sink failed
and every failure is a stale rejection. -/
theorem collectFailures_staleOnly_iff {attempts : List SinkAttempt} :
    (∃ err, collectFailures attempts = some err ∧ err.isStale = true ∧ hasNonStaleFanoutFailure err = false) ↔
      (∃ attempt ∈ attempts, ∃ err, attempt.outcome.err = some err ∧ err.isStale = true) ∧
        ∀ attempt ∈ attempts, ∀ err, attempt.outcome.err = some err → err.isStale = true := by
  unfold collectFailures
  generalize listed : attempts.filterMap (fun attempt => attempt.outcome.err.map fun err => (attempt.name, err)) = failures
  have member : ∀ failure, failure ∈ failures ↔
      ∃ attempt ∈ attempts, ∃ err, attempt.outcome.err = some err ∧ (attempt.name, err) = failure := by
    intro failure
    rw [← listed]
    simp only [List.mem_filterMap, Option.map_eq_some_iff]
  constructor
  · rintro ⟨err, equal, stale, only⟩
    split at equal
    · cases equal
    · cases equal
      simp only [GoError.isStale_fanout, List.any_eq_true] at stale
      simp only [hasNonStaleFanoutFailure, GoError.asFanout, List.any_eq_false, Bool.not_eq_true', Bool.not_eq_false] at only
      obtain ⟨failure, among, isStale⟩ := stale
      obtain ⟨attempt, inAttempts, err, failed, rfl⟩ := (member failure).mp among
      refine ⟨⟨attempt, inAttempts, err, failed, isStale⟩, ?_⟩
      intro other inOther otherErr otherFailed
      exact only (other.name, otherErr) ((member _).mpr ⟨other, inOther, otherErr, otherFailed, rfl⟩)
  · rintro ⟨⟨attempt, inAttempts, err, failed, isStale⟩, all⟩
    have among : (attempt.name, err) ∈ failures := (member _).mpr ⟨attempt, inAttempts, err, failed, rfl⟩
    cases failures with
    | nil => cases among
    | cons first rest =>
      refine ⟨.fanout (first :: rest), rfl, ?_, ?_⟩
      · rw [GoError.isStale_fanout, List.any_eq_true]
        exact ⟨_, among, isStale⟩
      · simp only [hasNonStaleFanoutFailure, GoError.asFanout, List.any_eq_false, Bool.not_eq_true', Bool.not_eq_false]
        intro failure inFailures
        obtain ⟨other, inOther, otherErr, otherFailed, rfl⟩ := (member failure).mp inFailures
        exact all other inOther otherErr otherFailed

end Spotter.Worker
