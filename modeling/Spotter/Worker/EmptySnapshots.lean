import Spotter.Worker.SecondAttempt

/-! # Unconfirmed empty snapshots

An empty snapshot of a scope is meant to be a strict no-op until it is confirmed. The handler's door
and the gate's operation check it, before and after rebuilding, so the first attempt and all retries
are harmless. The second attempt checks nothing: a snapshot that becomes empty in between is
delivered as a full push of nothing.
-/

namespace Spotter.Worker

open Library Domain Ports

/-- The attempt delivers no empty full snapshot, and no empty snapshot changes the ledger. -/
structure Harmless (attempt : SinkAttempt) : Prop where
  delivered : ∀ call, attempt.outcome.call = some call → call.full = true → call.items ≠ []
  recorded : SameLedger attempt.outcome.sink attempt.before ∨
    ∃ request, attempt.step.request = some request ∧ ∃ item, some item ∈ request.items

section Attempts

variable {s : OrderedSink} {step : SinkStep}

/-- A call whose snapshot is not empty is harmless. -/
theorem harmless_of_listed (name : String) (notClose : step.1 ≠ .close)
    (listed : ∀ request, step.request = some request → request.items ≠ []) : Harmless ⟨name, s, step⟩ := by
  have forwarded : ∀ request, step.request = some request → s.PassesRequest request →
      survivors s.latest request.mode request.trigger request.items ≠ [] := by
    intro request requested passes none_left
    exact listed request requested (passes.2.2 none_left)
  cases s.apply_effect step with
  | closed isClose => exact absurd isClose notClose
  | kept same _ reached =>
    refine ⟨?_, .inl same⟩
    intro call called _
    obtain ⟨request, requested, passes, rfl⟩ := reached call called
    rw [OrderedSink.requestCall_items]
    exact forwarded request requested passes
  | committed request requested passes _ reached _ =>
    have left := forwarded request requested passes
    constructor
    · intro call called _
      rw [show (s.apply step).call = some call from called] at reached
      cases reached
      rw [OrderedSink.requestCall_items]
      exact left
    · obtain ⟨item, member⟩ := List.exists_mem_of_ne_nil _ left
      exact .inr ⟨request, requested, item, (mem_survivors.mp member).1⟩

/-- An unconfirmed scoped operation is harmless, whatever its snapshot is rebuilt to. -/
theorem harmless_of_unconfirmed {operation : RetryOperation} (name : String) (hasScope : operation.scope ≠ "")
    (unconfirmed : operation.emptyConfirmed = false) (env : SinkEnv) :
    Harmless ⟨name, s, (.pushAllOperation operation, env)⟩ := by
  refine harmless_of_listed name (by simp) ?_
  intro request requested
  rcases (scopedRun_of_request hasScope requested).listed with listed | confirmed
  · exact listed
  · rw [unconfirmed] at confirmed
    cases confirmed

/-- An open gate delivers the empty snapshot of a second attempt. -/
theorem not_harmless_of_empty (name : String) (opened : s.closed = false) (trigger : ℤ)
    (items : Instances) :
    ¬Harmless ⟨name, s, (.pushAllWithRevalidate trigger items true, { answer := ⟨[], true⟩ })⟩ := by
  intro harmless
  have requested : SinkStep.request (.pushAllWithRevalidate trigger items true, { answer := ⟨[], true⟩ }) =
      some (emptyRun trigger) := rfl
  obtain ⟨_, reached, _⟩ := OrderedSink.apply_of_acknowledging requested (passes_emptyRun opened trigger) (fun _ => rfl)
  refine harmless.delivered _ reached rfl ?_
  rw [OrderedSink.requestCall_items]
  rfl

end Attempts

/-! ## The queue after the event -/

section Handler

variable {Ptr : Type} (deref : Ptr → Instance) {w : DefaultWorker Ptr} {event : SyncAllEvent Ptr}

theorem finishSyncAll_lookup {pushed : FanoutOutcome} {attempts : List SinkAttempt} {key : FullKey}
    {entry : PendingFull Ptr}
    (found : (w.finishSyncAll event pushed attempts).worker.unsyncedService.store.fulls.lookup key = some entry) :
    w.unsyncedService.store.fulls.lookup key = some entry ∨
      (entry.scope = event.scope ∧ entry.emptyConfirmed = event.emptyConfirmed) := by
  unfold DefaultWorker.finishSyncAll at found
  split_ifs at found
  · exact .inl found
  · split at found
    · exact .inl found
    · rcases UnsyncedService.addFullWithMeta_lookup found with before | ⟨_, rfl⟩
      · exact .inl before
      · exact .inr ⟨rfl, rfl⟩

/-- Everything the handling of an event does with snapshots is harmless: its attempts, and every later
replay of what it queued. -/
structure HarmlessHandling (w : DefaultWorker Ptr) (handled : Handling Ptr) : Prop where
  attempts : ∀ attempt ∈ handled.attempts, Harmless attempt
  retries : ∀ key entry, handled.worker.unsyncedService.store.fulls.lookup key = some entry →
    w.unsyncedService.store.fulls.lookup key ≠ some entry → ∀ gate env,
      Harmless ⟨key.sink, gate, (.pushAllOperation (entry.operation deref key.sink), env)⟩

/-- Handling an unconfirmed event of a scope is harmless, in every run with the given answers of its
`Revalidate` function, exactly when no sink's second snapshot is empty or no second attempt can be made. -/
theorem handleSyncAll_harmless_iff (w : DefaultWorker Ptr) (event : SyncAllEvent Ptr)
    (answers answersAgain : String → Revalidation) (hasScope : event.scope ≠ "")
    (unconfirmed : event.emptyConfirmed = false) :
    (∀ first gap now second, (∀ name, (first name).answer = answers name) → (∀ name, (second name).answer = answersAgain name) →
      HarmlessHandling deref w (w.handleSyncAll deref event first gap now second)) ↔
    (SecondAttempt deref w event answers → ∀ named ∈ w.pusher.sinks, answersAgain named.name ≠ ⟨[], true⟩) := by
  constructor
  · intro harmless again named registered empty
    have opened : (named.sink.apply (event.firstStep deref named.name { answer := answers named.name })).sink.closed =
        false := apply_open (again.opened named registered) (by simp [SyncAllEvent.firstStep])
    have made := again.mem_handleSyncAll deref hasScope (fun _ => []) 0
      (fun name => { answer := answersAgain name }) registered
    have kept := (harmless _ _ _ _ (fun _ => rfl) (fun _ => rfl)).attempts _ made
    rw [SyncAllEvent.secondStep, again.revalidates, empty] at kept
    exact not_harmless_of_empty named.name opened _ _ kept
  · intro listed first gap now second answered answeredAgain
    constructor
    · intro attempt made
      obtain ⟨_, named, registered, rfl | ⟨again, rfl⟩⟩ := handleSyncAll_attempts_cases deref hasScope answered made
      · exact harmless_of_unconfirmed named.name hasScope unconfirmed (first named.name)
      · refine harmless_of_listed named.name (by simp [SyncAllEvent.secondStep]) ?_
        intro request requested empty
        simp only [SyncAllEvent.secondStep, SinkStep.request, again.revalidates, answeredAgain, ↓reduceIte] at requested
        split_ifs at requested with valid
        cases requested
        refine listed again named registered ?_
        cases answer : answersAgain named.name
        simp_all
    · intro key entry found new gate env
      -- Handling an event queues nothing but the event itself.
      obtain ⟨scope, confirmed⟩ : entry.scope = event.scope ∧ entry.emptyConfirmed = event.emptyConfirmed := by
        simp only [DefaultWorker.handleSyncAll, DefaultWorker.secondAttempt] at found
        split_ifs at found
        · exact absurd found new
        · exact absurd found new
        · exact (finishSyncAll_lookup found).resolve_left new
        · exact (finishSyncAll_lookup found).resolve_left new
      have entryScope : entry.scope ≠ "" := by rwa [scope]
      exact harmless_of_unconfirmed key.sink entryScope (confirmed.trans unconfirmed) env

end Handler

/-- The pod snapshot is overtaken and rebuilt twice, each time with the pod in it. -/
theorem handleSyncAll_harmless_rebuilt : (podSnapshot [some pod]).scope ≠ "" ∧
    ∀ first gap now second, (∀ name : String, (first name).answer = ⟨[some pod], true⟩) →
      (∀ name : String, (second name).answer = ⟨[some { pod with reversion := 8 }], true⟩) →
      HarmlessHandling id (workerAfter [(.push 90 [some { pod with reversion := 8 }], .acknowledging)])
        ((workerAfter [(.push 90 [some { pod with reversion := 8 }], .acknowledging)]).handleSyncAll id
          (podSnapshot [some pod]) first gap now second) := by
  have hasScope : (podSnapshot [some pod]).scope ≠ "" := by decide
  refine ⟨hasScope, (handleSyncAll_harmless_iff id _ (podSnapshot [some pod]) (fun _ => ⟨[some pod], true⟩)
    (fun _ => ⟨[some { pod with reversion := 8 }], true⟩) hasScope rfl).mpr ?_⟩
  intro _ named _
  decide

/-- The pod snapshot is overtaken and its cache is empty at the second attempt: the wrapped sink
receives a full push of nothing. -/
theorem secondAttempt_delivers_empty :
    let w := workerAfter [(.push 90 [some { pod with reversion := 8 }], .acknowledging)]
    ¬HarmlessHandling id w (w.handleSyncAll id (podSnapshot [some pod]) (fun _ => { answer := ⟨[some pod], true⟩ })
      (fun _ => []) 110 (fun _ => { answer := ⟨[], true⟩ })) := by
  intro w harmless
  have again : SecondAttempt id w (podSnapshot [some pod]) (fun _ => ⟨[some pod], true⟩) :=
    secondAttempt_podSnapshot (by decide) (by decide)
  have made := again.mem_handleSyncAll id (by decide) (fun _ => []) 110 (fun _ => { answer := ⟨[], true⟩ })
    (List.mem_singleton.mpr rfl)
  exact (harmless.attempts _ made).delivered (.pushAll 110 []) (by decide) rfl rfl

end Spotter.Worker
