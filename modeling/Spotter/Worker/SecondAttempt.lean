import Spotter.Worker.Handler

/-! # When the second attempt is made

A scoped full operation fails in three ways: its gate is closed or its snapshot repeats an identity,
its snapshot holds a superseded item, or the wrapped sink refuses it. Only the second is a stale
rejection. The handler makes its second attempt when some sink rejects the event as stale and no
sink fails otherwise, so whether it can happen is decided by the ledgers and the first snapshots.
-/

namespace Spotter.Worker

open Library Domain Ports

namespace OrderedSink

variable {s : OrderedSink} {env : SinkEnv} {request : Request}

/-- The snapshot holds an item the ledger judges superseded. -/
def HoldsStale (s : OrderedSink) (request : Request) : Prop :=
  ∃ item, some item ∈ request.items ∧ staleItem s.latest request.mode request.trigger item = true

theorem runRequest_err_of_repeated (opened : s.closed = false) (full : request.mode.full = true)
    (repeated : ¬(keysOf request.items).Nodup) :
    ∃ key, (s.runRequest request env).err = some (duplicateIdentity key) := by
  obtain ⟨key, looped⟩ := filterItems_eq_error s.latest request.mode request.trigger [] request.items full
    (by simp [keysOf]) repeated
  rw [admissionOf_nil] at looped
  exact ⟨key, by simp only [runRequest, runLocked, opened, looped, Bool.false_eq_true, ↓reduceIte]⟩

theorem runRequest_err_of_stale (opened : s.closed = false) (full : request.mode.full = true)
    (trusted : request.mode.trustedComplete = true) (distinct : (keysOf request.items).Nodup)
    (stale : s.HoldsStale request) : (s.runRequest request env).err = some .staleFullPush := by
  have looped := filterItems_eq_ok s.latest request.mode request.trigger request.items (fun _ => distinct)
  obtain ⟨item, offered, verdict⟩ := stale
  have flagged : (admissionOf s.latest request.mode request.trigger request.items).stale = true := by
    simp only [admissionOf, List.any_eq_true, List.reduceOption_mem_iff]
    exact ⟨item, offered, verdict⟩
  simp only [runRequest, runLocked, opened, looped, full, trusted, flagged, Bool.not_true, Bool.and_false,
    Bool.false_and, Bool.and_self, Bool.false_eq_true, ↓reduceIte]

/-- Without a superseded item, a trusted snapshot can only fail at the wrapped sink. -/
theorem runRequest_err_of_fresh (opened : s.closed = false) (trusted : request.mode.trustedComplete = true)
    (distinct : (keysOf request.items).Nodup) (fresh : ¬s.HoldsStale request) {err : GoError}
    (failed : (s.runRequest request env).err = some err) : ∃ call, env.inner call = some err := by
  have looped := filterItems_eq_ok s.latest request.mode request.trigger request.items (fun _ => distinct)
  have unflagged : (admissionOf s.latest request.mode request.trigger request.items).stale = false := by
    simp only [admissionOf, List.any_eq_false, List.reduceOption_mem_iff]
    intro item offered verdict
    exact fresh ⟨item, offered, verdict⟩
  simp only [runRequest, runLocked, opened, looped, trusted, unflagged, Bool.not_true, Bool.and_false,
    Bool.false_and, Bool.false_eq_true, ↓reduceIte] at failed
  split_ifs at failed
  split at failed
  · next answer =>
    cases failed
    exact ⟨_, answer⟩
  · cases failed

end OrderedSink

/-- The error of an operation on an open gate is the error of its run, and none when it stops before. -/
theorem pushAllOperation_err {s : OrderedSink} (opened : s.closed = false) (operation : RetryOperation)
    (env : SinkEnv) :
    ∃ gate, SameLedger gate s ∧ (s.apply (.pushAllOperation operation, env)).err =
      (SinkStep.request (.pushAllOperation operation, env)).bind fun request => (gate.runRequest request env).err := by
  cases s.apply_course (.pushAllOperation operation, env) with
  | close isClose => cases isClose
  | refused closed =>
    rw [opened] at closed
    cases closed
  | stopped _ none_requested nothing => exact ⟨s, OrderedSink.SameLedger_refl s, by rw [nothing, none_requested]; rfl⟩
  | ran _ request requested scope batchID runs =>
    exact ⟨s.marked scope batchID, ⟨rfl, rfl, rfl, rfl⟩, by rw [runs, requested]; rfl⟩

/-- A run on behalf of a scoped operation is full, trusted, under that scope, and either of a snapshot
with items or a confirmed one. -/
structure ScopedRun (operation : RetryOperation) (request : Request) : Prop where
  full : request.mode.full = true
  trusted : request.mode.trustedComplete = true
  scope : operationScope request.operation = operation.scope
  listed : request.items ≠ [] ∨ operation.emptyConfirmed = true

theorem scopedRun_of_request {operation : RetryOperation} {env : SinkEnv} {request : Request}
    (hasScope : operation.scope ≠ "")
    (requested : SinkStep.request (.pushAllOperation operation, env) = some request) :
    ScopedRun operation request := by
  simp only [SinkStep.request, Option.bind_eq_some_iff] at requested
  obtain ⟨resolved, rebuilt, requested⟩ := requested
  have kept : resolved.scope = operation.scope ∧ resolved.emptyConfirmed = operation.emptyConfirmed := by
    unfold resolve at rebuilt
    split_ifs at rebuilt <;> cases rebuilt <;> exact ⟨rfl, rfl⟩
  split_ifs at requested with empty
  cases requested
  simp only [unconfirmedEmpty, decide_eq_true_eq, kept] at empty
  have listed : resolved.instances ≠ [] ∨ operation.emptyConfirmed = true := by
    by_cases none_listed : resolved.instances = []
    · refine .inr ?_
      rw [← Bool.not_eq_false]
      exact fun unconfirmed => empty ⟨hasScope, none_listed, unconfirmed⟩
    · exact .inl none_listed
  refine ⟨rfl, ?_, kept.1, listed⟩
  simp only [destructiveAuthorized, decide_eq_true_eq, kept]
  exact ⟨hasScope, listed⟩

section Rejection

variable {s : OrderedSink} {operation : RetryOperation} {env : SinkEnv}

/-- The gate can judge the operation's snapshot: it is open and the snapshot repeats no identity. -/
def OrderedSink.Judges (s : OrderedSink) (operation : RetryOperation) (env : SinkEnv) : Prop :=
  s.closed = false ∧ ∀ request, SinkStep.request (.pushAllOperation operation, env) = some request → (keysOf request.items).Nodup

/-- A gate that cannot judge a scoped operation fails it, and not as stale. -/
theorem err_of_not_judges (hasScope : operation.scope ≠ "") (unjudged : ¬s.Judges operation env) :
    ∃ err, (s.apply (.pushAllOperation operation, env)).err = some err ∧ err.isStale = false := by
  by_cases opened : s.closed = false
  · have repeated : ∃ request, SinkStep.request (.pushAllOperation operation, env) = some request ∧
        ¬(keysOf request.items).Nodup := by
      by_contra none_repeats
      exact unjudged ⟨opened, fun request requested =>
        by_contra fun repeats => none_repeats ⟨request, requested, repeats⟩⟩
    obtain ⟨request, requested, repeats⟩ := repeated
    obtain ⟨gate, same, err⟩ := pushAllOperation_err opened operation env
    obtain ⟨key, failed⟩ := OrderedSink.runRequest_err_of_repeated (same.closed.trans opened)
      (scopedRun_of_request hasScope requested).full repeats
    exact ⟨duplicateIdentity key, by rw [err, requested, Option.bind_some, failed], rfl⟩
  · refine ⟨sinkClosed, ?_, rfl⟩
    simp [OrderedSink.apply, OrderedSink.pushAllOperation, Bool.not_eq_false _ ▸ opened]

/-- Among judged operations, the stale rejections are the snapshots with a superseded item. -/
theorem stale_err_iff (hasScope : operation.scope ≠ "") (judged : s.Judges operation env) :
    (∃ err, (s.apply (.pushAllOperation operation, env)).err = some err ∧ err.isStale = true) ↔
      ∃ request, SinkStep.request (.pushAllOperation operation, env) = some request ∧ s.HoldsStale request := by
  obtain ⟨gate, same, ran⟩ := pushAllOperation_err judged.1 operation env
  have opened := same.closed.trans judged.1
  constructor
  · rintro ⟨err, failed, stale⟩
    rw [ran, Option.bind_eq_some_iff] at failed
    obtain ⟨request, requested, failed⟩ := failed
    refine ⟨request, requested, ?_⟩
    by_contra fresh
    have trusted := (scopedRun_of_request hasScope requested).trusted
    obtain ⟨call, answer⟩ := OrderedSink.runRequest_err_of_fresh opened trusted (judged.2 request requested)
      (by rwa [OrderedSink.HoldsStale, same.latest]) failed
    rw [env.foreign call err answer] at stale
    cases stale
  · rintro ⟨request, requested, stale⟩
    obtain ⟨full, trusted, _, _⟩ := scopedRun_of_request hasScope requested
    refine ⟨.staleFullPush, ?_, rfl⟩
    rw [ran, requested, Option.bind_some]
    exact OrderedSink.runRequest_err_of_stale opened full trusted (judged.2 request requested)
      (by rwa [OrderedSink.HoldsStale, same.latest])

/-- A judged operation that the wrapped sink does not refuse can only be rejected as stale. -/
theorem stale_of_err (hasScope : operation.scope ≠ "") (judged : s.Judges operation env)
    (answers : ∀ call, env.inner call = none) {err : GoError}
    (failed : (s.apply (.pushAllOperation operation, env)).err = some err) : err.isStale = true := by
  obtain ⟨gate, same, ran⟩ := pushAllOperation_err judged.1 operation env
  rw [ran, Option.bind_eq_some_iff] at failed
  obtain ⟨request, requested, failed⟩ := failed
  obtain ⟨full, trusted, _, _⟩ := scopedRun_of_request hasScope requested
  have opened := same.closed.trans judged.1
  by_cases stale : gate.HoldsStale request
  · rw [OrderedSink.runRequest_err_of_stale opened full trusted (judged.2 request requested) stale] at failed
    cases failed
    rfl
  · obtain ⟨call, answer⟩ := OrderedSink.runRequest_err_of_fresh opened trusted (judged.2 request requested) stale failed
    rw [answers call] at answer
    cases answer

end Rejection

/-- The run of a second attempt whose snapshot became empty. -/
def emptyRun (trigger : ℤ) : Request := ⟨trigger, [], ⟨true, true, true⟩, none⟩

/-- An open gate lets an empty trusted snapshot through. -/
theorem passes_emptyRun {s : OrderedSink} (opened : s.closed = false) (trigger : ℤ) :
    s.PassesRequest (emptyRun trigger) := by
  refine ⟨opened, ?_, fun _ => rfl⟩
  intro _
  refine ⟨List.nodup_nil, ?_, ?_⟩
  · intro untrusted
    cases untrusted
  · intro item member
    cases member

/-- Only closing closes a gate. -/
theorem apply_open {s : OrderedSink} {step : SinkStep} (opened : s.closed = false) (notClose : step.1 ≠ .close) :
    (s.apply step).sink.closed = false := by
  cases s.apply_effect step with
  | closed isClose => exact absurd isClose notClose
  | kept same | committed request _ _ _ _ same => exact same.closed.trans opened

/-! ## The handler's attempts -/

variable {Ptr : Type} (deref : Ptr → Instance)

/-- The call a sink receives in the first attempt. -/
def SyncAllEvent.firstStep (event : SyncAllEvent Ptr) (name : String) (env : SinkEnv) : SinkStep :=
  (.pushAllOperation { event.operation deref with sink := name }, env)

/-- The call a sink receives in the second attempt. -/
def SyncAllEvent.secondStep (event : SyncAllEvent Ptr) (now : ℤ) (env : SinkEnv) : SinkStep :=
  (.pushAllWithRevalidate now (derefAll deref event.data) event.revalidate, env)

/-- The snapshot a sink's gate judges in the first attempt depends only on the rebuilt one. -/
def SyncAllEvent.firstRequest (event : SyncAllEvent Ptr) (name : String) (answer : Revalidation) : Option Request :=
  (event.firstStep deref name { answer := answer }).request

/-- The first attempt can end in nothing but stale rejections: every gate can judge its snapshot, and
some ledger has an item of its snapshot superseded. The event is one the handler may revalidate. -/
structure SecondAttempt (w : DefaultWorker Ptr) (event : SyncAllEvent Ptr) (answers : String → Revalidation) :
    Prop where
  kept : event.unconfirmed = false
  revalidates : event.revalidate = true
  opened : ∀ named ∈ w.pusher.sinks, named.sink.closed = false
  distinct : ∀ named ∈ w.pusher.sinks, ∀ request,
    event.firstRequest deref named.name (answers named.name) = some request → (keysOf request.items).Nodup
  stale : ∃ named ∈ w.pusher.sinks, ∃ request,
    event.firstRequest deref named.name (answers named.name) = some request ∧ named.sink.HoldsStale request

section Handler

variable {w : DefaultWorker Ptr} {event : SyncAllEvent Ptr} {answers : String → Revalidation}
  {first second : String → SinkEnv} {gap : String → List SinkStep} {now : ℤ}

theorem SyncAllEvent.firstStep_request {name : String} {env : SinkEnv} {answer : Revalidation}
    (answered : env.answer = answer) :
    (event.firstStep deref name env).request = event.firstRequest deref name answer := by
  subst answered
  rfl

/-- A broadcast is rejected as stale and nothing else when some sink is and no sink fails otherwise. -/
theorem broadcast_staleOnly_iff {f : FanoutSink} {step : String → SinkStep} : staleOnly (f.broadcast step).err = true ↔
      (∃ named ∈ f.sinks, ∃ err, (named.sink.apply (step named.name)).err = some err ∧ err.isStale = true) ∧
        ∀ named ∈ f.sinks, ∀ err, (named.sink.apply (step named.name)).err = some err → err.isStale = true := by
  have unfolded : ∀ err : Option GoError, staleOnly err = true ↔
      ∃ e, err = some e ∧ e.isStale = true ∧ hasNonStaleFanoutFailure e = false := by
    intro err
    cases err <;> simp [staleOnly]
  rw [unfolded]
  refine collectFailures_staleOnly_iff.trans ?_
  simp only [List.mem_map, exists_exists_and_eq_and, forall_exists_index, and_imp, forall_apply_eq_imp_iff₂, SinkAttempt.outcome]

theorem pushAllOperation_broadcast (f : FanoutSink) : f.pushAllOperation (event.operation deref) first =
      f.broadcast fun name => event.firstStep deref name (first name) := rfl

/-- What a first attempt that ended in stale rejections alone says about the ledgers before it. -/
theorem secondAttempt_of_staleOnly (hasScope : event.scope ≠ "") (kept : event.unconfirmed = false)
    (revalidates : event.revalidate = true) (answered : ∀ name, (first name).answer = answers name)
    (rejected : staleOnly (w.pusher.pushAllOperation (event.operation deref) first).err = true) :
    SecondAttempt deref w event answers := by
  rw [pushAllOperation_broadcast, broadcast_staleOnly_iff] at rejected
  obtain ⟨⟨named, registered, err, failed, isStale⟩, onlyStale⟩ := rejected
  have judges : ∀ named ∈ w.pusher.sinks,
      named.sink.Judges { event.operation deref with sink := named.name } (first named.name) := by
    intro named registered
    by_contra unjudged
    obtain ⟨other, otherFailed, otherwise⟩ := err_of_not_judges hasScope unjudged
    rw [onlyStale named registered other otherFailed] at otherwise
    cases otherwise
  obtain ⟨request, requested, holds⟩ := (stale_err_iff hasScope (judges named registered)).mp ⟨err, failed, isStale⟩
  refine ⟨kept, revalidates, fun other member => (judges other member).1, ?_, named, registered, request, ?_, holds⟩
  · intro other member request requested
    rw [← event.firstStep_request deref (answered other.name)] at requested
    exact (judges other member).2 request requested
  · rw [← event.firstStep_request deref (answered named.name)]
    exact requested

/-- Wrapped sinks that acknowledge everything realise a possible second attempt. -/
theorem SecondAttempt.staleOnly (attempt : SecondAttempt deref w event answers) (hasScope : event.scope ≠ "") :
    staleOnly (w.pusher.pushAllOperation (event.operation deref) fun name => { answer := answers name }).err = true := by
  have judges : ∀ named ∈ w.pusher.sinks,
      named.sink.Judges { event.operation deref with sink := named.name } { answer := answers named.name } :=
    fun named registered => ⟨attempt.opened named registered, attempt.distinct named registered⟩
  rw [pushAllOperation_broadcast, broadcast_staleOnly_iff]
  constructor
  · obtain ⟨named, registered, request, requested, holds⟩ := attempt.stale
    exact ⟨named, registered, (stale_err_iff hasScope (judges named registered)).mpr ⟨request, requested, holds⟩⟩
  · intro named registered err failed
    exact stale_of_err hasScope (judges named registered) (fun _ => rfl) failed

@[simp] theorem finishSyncAll_attempts (pushed : FanoutOutcome) (attempts : List SinkAttempt) :
    (w.finishSyncAll event pushed attempts).attempts = attempts := by
  unfold DefaultWorker.finishSyncAll
  split_ifs
  · rfl
  · split <;> rfl

/-- A sink when the second attempt reaches it: after the first attempt and what others did since. -/
def secondSink (event : SyncAllEvent Ptr) (first : String → SinkEnv) (gap : String → List SinkStep)
    (named : NamedSink) : OrderedSink :=
  (named.sink.apply (event.firstStep deref named.name (first named.name))).sink.after (gap named.name)

theorem secondAttempt_attempts :
    (w.secondAttempt deref event (w.pusher.pushAllOperation (event.operation deref) first) gap now second).attempts =
      (w.pusher.sinks.map fun named => ⟨named.name, named.sink, event.firstStep deref named.name (first named.name)⟩) ++
        w.pusher.sinks.map fun named =>
          ⟨named.name, secondSink deref event first gap named, event.secondStep deref now (second named.name)⟩ := by
  have both : ∀ pushed : FanoutOutcome, ∀ attempts, (if pushed.err.all GoError.isStale then
        ({ worker := { w with pusher := pushed.fanout }, attempts := attempts } : Handling Ptr)
      else w.finishSyncAll event pushed attempts).attempts = attempts := by
    intro pushed attempts
    split_ifs
    · rfl
    · exact finishSyncAll_attempts pushed attempts
  unfold DefaultWorker.secondAttempt
  rw [both, pushAllOperation_broadcast]
  simp only [FanoutSink.broadcast, FanoutSink.pushAllWithRevalidate, FanoutSink.interfere, FanoutSink.mapSinks,
    List.map_map, Function.comp_def]
  rfl

/-- Every attempt of the handler is a first one, or a second one that the ledgers allowed for. -/
theorem handleSyncAll_attempts_cases (hasScope : event.scope ≠ "")
    (answered : ∀ name, (first name).answer = answers name) {attempt : SinkAttempt}
    (made : attempt ∈ (w.handleSyncAll deref event first gap now second).attempts) :
    event.unconfirmed = false ∧ ∃ named ∈ w.pusher.sinks,
      attempt = ⟨named.name, named.sink, event.firstStep deref named.name (first named.name)⟩ ∨
      (SecondAttempt deref w event answers ∧ attempt =
        ⟨named.name, secondSink deref event first gap named, event.secondStep deref now (second named.name)⟩) := by
  simp only [DefaultWorker.handleSyncAll] at made
  split_ifs at made with unconfirmed again
  · cases made
  · rw [Bool.not_eq_true] at unconfirmed
    refine ⟨unconfirmed, ?_⟩
    rw [secondAttempt_attempts, List.mem_append, List.mem_map, List.mem_map] at made
    rcases made with ⟨named, registered, rfl⟩ | ⟨named, registered, rfl⟩
    · exact ⟨named, registered, .inl rfl⟩
    · exact ⟨named, registered, .inr
        ⟨secondAttempt_of_staleOnly deref hasScope unconfirmed again.2 answered again.1, rfl⟩⟩
  · rw [Bool.not_eq_true] at unconfirmed
    refine ⟨unconfirmed, ?_⟩
    rw [finishSyncAll_attempts, pushAllOperation_broadcast] at made
    obtain ⟨named, registered, rfl⟩ := FanoutSink.mem_broadcast_attempts.mp made
    exact ⟨named, registered, .inl rfl⟩

theorem first_mem_handleSyncAll (first : String → SinkEnv) (gap : String → List SinkStep) (now : ℤ)
    (second : String → SinkEnv) (kept : event.unconfirmed = false) {named : NamedSink}
    (registered : named ∈ w.pusher.sinks) :
    ⟨named.name, named.sink, event.firstStep deref named.name (first named.name)⟩ ∈
      (w.handleSyncAll deref event first gap now second).attempts := by
  unfold DefaultWorker.handleSyncAll
  rw [if_neg (by rw [kept]; exact Bool.false_ne_true)]
  simp only
  split_ifs
  · rw [secondAttempt_attempts, List.mem_append]
    exact .inl (List.mem_map.mpr ⟨named, registered, rfl⟩)
  · rw [finishSyncAll_attempts, pushAllOperation_broadcast]
    exact FanoutSink.mem_broadcast_attempts.mpr ⟨named, registered, rfl⟩

theorem SecondAttempt.mem_handleSyncAll (attempt : SecondAttempt deref w event answers) (hasScope : event.scope ≠ "")
    (gap : String → List SinkStep) (now : ℤ) (second : String → SinkEnv) {named : NamedSink}
    (registered : named ∈ w.pusher.sinks) :
    ⟨named.name, secondSink deref event (fun name => { answer := answers name }) gap named,
        event.secondStep deref now (second named.name)⟩ ∈
      (w.handleSyncAll deref event (fun name => { answer := answers name }) gap now second).attempts := by
  unfold DefaultWorker.handleSyncAll
  rw [if_neg (by rw [attempt.kept]; exact Bool.false_ne_true)]
  simp only
  rw [if_pos ⟨attempt.staleOnly deref hasScope, attempt.revalidates⟩, secondAttempt_attempts, List.mem_append]
  exact .inr (List.mem_map.mpr ⟨named, registered, rfl⟩)

end Handler

/-! ## One pod in one sink -/

def pod : Instance := { sourceKey := "k8s/prod/uid-1", provider := "k8s", reversion := 5, status := 1 }

/-- A worker over one sink whose ledger is the result of a history. -/
def workerAfter (history : List SinkStep) : DefaultWorker Instance where
  pusher :=
    { sinks := [⟨"nacos", ({ typed := true } : OrderedSink).after history⟩]
      wellNamed := ⟨by simp, by simp, by simp, by simp [totalSinkName]⟩ }
  unsyncedService := { sinkNames := ["nacos"] }

/-- The K8s provider's full-snapshot event, with a `Revalidate` function. -/
def podSnapshot (data : Instances) : SyncAllEvent Instance where
  trigger := 100
  data := data
  scope := "k8s"
  batchID := "batch-1"
  sequence := 1
  revalidate := true
  emptyConfirmed := false

/-- A pod snapshot that the ledger has overtaken can be attempted a second time. -/
theorem secondAttempt_podSnapshot {history : List SinkStep}
    (opened : (({ typed := true } : OrderedSink).after history).closed = false)
    (stale : staleItem (({ typed := true } : OrderedSink).after history).latest ⟨true, true, true⟩ 100 pod = true) :
    SecondAttempt id (workerAfter history) (podSnapshot [some pod]) (fun _ => ⟨[some pod], true⟩) := by
  refine ⟨by decide, rfl, ?_, ?_, _, List.mem_singleton.mpr rfl, _, rfl, pod, List.mem_singleton.mpr rfl, stale⟩
  · intro named registered
    cases List.mem_singleton.mp registered
    exact opened
  · intro named registered request requested
    cases requested
    exact List.nodup_singleton _

end Spotter.Worker
