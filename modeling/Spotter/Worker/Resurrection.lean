import Spotter.Worker.SourceRevisions

/-! # Deletions by omission and late pushes

A full operation that may delete tombstones the identities it omits, so that a delayed incremental
push from before the deletion is refused. Under a scope the tombstone is written only for identities
recorded under that scope, and only scoped full operations record it: an identity that reached the
gate through incremental pushes alone stays open to resurrection.
-/

namespace Spotter.Worker

open Library Domain Ports

/-- No full push among the calls names the identity. -/
def NoFullNames (key : String) (later : List SinkStep) : Prop :=
  ∀ step ∈ later, ∀ request, step.request = some request → request.mode.full = true → key ∉ keysOf request.items

/-- Until a full push names the identity again, no incremental push of it at or below the revision
reaches the wrapped sink. -/
def Buried (s : OrderedSink) (key : String) (revision : ℤ) : Prop :=
  ∀ later, NoFullNames key later → ∀ trigger items env call, ((s.after later).push trigger items env).call = some call →
    ∀ item ∈ call.items, identityKey item = key → revision < effectiveRevision trigger item

/-- The ledger refuses the identity at and below the revision. -/
def Refuses (s : OrderedSink) (key : String) (revision : ℤ) : Prop :=
  s.closed = true ∨ ∃ entry, s.latest.lookup key = some entry ∧
    (revision < entry.revision ∨ (entry.revision = revision ∧ entry.tombstone = true))

variable {s : OrderedSink} {step : SinkStep} {request : Request} {key : String} {revision : ℤ}

section

variable (refuses : Refuses s key revision)

include refuses

/-- An incremental item that survives a refusing ledger is newer. -/
theorem Refuses.lt_of_survivor (opened : s.closed = false) (incremental : request.mode.full = false) {item : Instance}
    (survives : item ∈ survivors s.latest request.mode request.trigger request.items)
    (named : identityKey item = key) : revision < effectiveRevision request.trigger item := by
  rcases refuses with closed | ⟨entry, found, above⟩
  · rw [opened] at closed
    cases closed
  · have fresh : ¬staleItem s.latest request.mode request.trigger item = true := by
      rw [(mem_survivors.mp survives).2]
      exact Bool.false_ne_true
    rw [staleItem_iff, named] at fresh
    by_contra notAbove
    refine fresh ⟨entry, found, ?_⟩
    rcases above with higher | ⟨equal, gone⟩
    · exact .inl (by omega)
    · by_cases below : effectiveRevision request.trigger item < entry.revision
      · exact .inl below
      · refine .inr ⟨gone, by omega, ?_⟩
        rintro ⟨full, _⟩
        rw [incremental] at full
        cases full

/-- Refusal survives every call that is not a full push of the identity. -/
theorem Refuses.apply (unnamed : ∀ request, step.request = some request → request.mode.full = true → key ∉ keysOf request.items) :
    Refuses (s.apply step).sink key revision := by
  cases s.apply_effect step with
  | closed isClose silent sink =>
    refine .inl ?_
    rw [sink, OrderedSink.close]
    split_ifs with already
    · exact already
    · rfl
  | kept same unacknowledged reached =>
    rcases refuses with closed | ⟨entry, found, above⟩
    · exact .inl (same.closed.trans closed)
    · exact .inr ⟨entry, by rw [same.latest]; exact found, above⟩
  | committed request requested passes success reached same =>
    have opened : s.closed = false := passes.1
    refine .inr ?_
    rw [same.latest]
    obtain closed | ⟨entry, found, above⟩ := id refuses
    · rw [opened] at closed
      cases closed
    have present : ∃ entry, (s.commitRequest request).latest.lookup key = some entry := by
      rw [OrderedSink.commitRequest_lookup, found, Option.map_some]
      cases (record request.trigger ∅ _).lookup key <;> simp
    obtain ⟨after, final⟩ := present
    refine ⟨after, final, ?_⟩
    rcases OrderedSink.commitRequest_entry final with ⟨item, member, named, rfl⟩ | ⟨old, before, equal, stays⟩
    · -- A surviving item of the identity can only come from an incremental push.
      have incremental : request.mode.full = false := by
        rw [Bool.eq_false_iff]
        intro full
        exact unnamed request requested full (mem_keysOf.mpr ⟨item, (mem_survivors.mp member).1, named⟩)
      exact .inl (refuses.lt_of_survivor opened incremental member named)
    · rw [found] at before
      cases before
      rcases above with higher | ⟨same, gone⟩
      · exact .inl (by rw [equal]; exact higher)
      · exact .inr ⟨equal.trans same, stays gone⟩

theorem Refuses.after {later : List SinkStep} (unnamed : NoFullNames key later) :
    Refuses (s.after later) key revision := by
  induction later generalizing s with
  | nil => exact refuses
  | cons step rest ih =>
    have next := refuses.apply (unnamed step (by simp))
    exact ih next (fun other member => unnamed other (by simp [member]))

theorem Refuses.buried : Buried s key revision := by
  intro later unnamed trigger items env call reached item member named
  have still := refuses.after unnamed
  cases (s.after later).apply_effect (.push trigger items, env) with
  | closed isClose => cases isClose
  | kept _ _ calls =>
    obtain ⟨request, requested, passes, rfl⟩ := calls call reached
    cases requested
    rw [OrderedSink.requestCall_items] at member
    exact still.lt_of_survivor passes.1 rfl member named
  | committed request requested passes _ calls _ =>
    cases requested
    rw [show ((s.after later).apply (.push trigger items, env)).call = _ from reached] at calls
    cases calls
    rw [OrderedSink.requestCall_items] at member
    exact still.lt_of_survivor passes.1 rfl member named

end

variable {entry : IdentityRevision}

/-- What an authorised, acknowledged full operation leaves for an identity it omits. -/
theorem pushAllOperation_omitted {operation resolved : RetryOperation} {env : SinkEnv}
    (acknowledged : (s.pushAllOperation operation env).acknowledged)
    (ran : resolve operation env = some resolved) (authorised : destructiveAuthorized resolved = true)
    (omitted : key ∉ keysOf resolved.instances) (found : s.latest.lookup key = some entry) :
    (s.pushAllOperation operation env).sink.closed = false ∧
    (s.pushAllOperation operation env).sink.latest.lookup key =
      some (if entry.tombstone ∨ s.scopeOf key ≠ resolved.scope then entry else ⟨entry.revision, true⟩) := by
  cases s.apply_effect (.pushAllOperation operation, env) with
  | closed isClose => cases isClose
  | kept _ unacknowledged _ => exact absurd acknowledged unacknowledged
  | committed request requested passes _ _ same =>
    have confirmed : unconfirmedEmpty resolved = false := by
      simp only [destructiveAuthorized, decide_eq_true_eq] at authorised
      simp only [unconfirmedEmpty, decide_eq_false_iff_not]
      rintro ⟨_, empty, unconfirmed⟩
      rcases authorised.2 with nonempty | confirmed
      · exact nonempty empty
      · rw [unconfirmed] at confirmed
        cases confirmed
    simp only [SinkStep.request, ran, Option.bind_some, confirmed, Bool.false_eq_true, ↓reduceIte, Option.some.injEq] at requested
    subst requested
    refine ⟨same.closed.trans passes.1, ?_⟩
    have scope : resolved.scope ≠ "" := (of_decide_eq_true authorised).1
    change (s.apply (.pushAllOperation operation, env)).sink.latest.lookup key = _
    rw [same.latest, OrderedSink.commitRequest_lookup_of_absent, found, Option.map_some]
    · simp [OrderedSink.keptEntry, authorised, operationScope, scope, omitted]
    · intro item member named
      exact omitted (mem_keysOf.mpr ⟨item, (mem_survivors.mp member).1, named⟩)

/-- A live entry is open to a push of its own revision. -/
theorem not_buried_of_live (opened : s.closed = false)
    (found : s.latest.lookup key = some entry) (live : entry.tombstone = false) :
    ¬Buried s key entry.revision := by
  obtain ⟨item, named, own, _⟩ := exists_identityKey key entry.revision instanceStatusOnline
  have revision : effectiveRevision entry.revision item = entry.revision := by
    unfold effectiveRevision
    split_ifs
    · rfl
    · exact own
  have fresh : staleItem s.latest ⟨false, false, false⟩ entry.revision item = false := by
    rw [Bool.eq_false_iff]
    intro stale
    obtain ⟨other, present, verdict⟩ := staleItem_iff.mp stale
    rw [named, found] at present
    cases present
    rcases verdict with below | ⟨gone, _⟩
    · omega
    · rw [live] at gone
      cases gone
  intro buried
  have late := buried [] (fun _ member => nomatch member) entry.revision [some item] .acknowledging (.push entry.revision [item])
    (by
      change (s.push entry.revision [some item] .acknowledging).call = _
      simp [OrderedSink.push, OrderedSink.runLocked, filterItems, filterItem, opened, fresh, OrderedSink.innerCall,
        SinkEnv.acknowledging])
    item (by simp [InnerCall.items]) named
  omega

/-- After an authorised full operation succeeded without an identity, late pushes of the identity are
kept out exactly when it was a tombstone already or was recorded under the operation's scope. -/
theorem fullOperation_buries_iff {operation resolved : RetryOperation} {env : SinkEnv}
    (acknowledged : (s.pushAllOperation operation env).acknowledged)
    (ran : resolve operation env = some resolved) (authorised : destructiveAuthorized resolved = true)
    (omitted : key ∉ keysOf resolved.instances) (found : s.latest.lookup key = some entry) :
    Buried (s.pushAllOperation operation env).sink key entry.revision ↔
      entry.tombstone = true ∨ s.scopeOf key = resolved.scope := by
  obtain ⟨opened, left⟩ := pushAllOperation_omitted acknowledged ran authorised omitted found
  constructor
  · intro buried
    by_contra neither
    rw [not_or, Bool.not_eq_true] at neither
    obtain ⟨live, foreign⟩ := neither
    rw [if_pos (.inr foreign)] at left
    exact not_buried_of_live opened left live buried
  · intro recorded
    refine Refuses.buried (.inr ⟨_, left, .inr ?_⟩)
    rcases recorded with gone | same
    · rw [if_pos (.inl gone)]
      exact ⟨rfl, gone⟩
    · split_ifs with kept
      · rcases kept with gone | foreign
        · exact ⟨rfl, gone⟩
        · exact absurd same foreign
      · exact ⟨rfl, rfl⟩

/-- Two pods of one cluster. -/
def podA : Instance := { sourceKey := "k8s/prod/uid-a", instanceId := "pod-a", provider := "k8s", reversion := 7, status := 1 }
def podB : Instance := { sourceKey := "k8s/prod/uid-b", instanceId := "pod-b", provider := "k8s", reversion := 9, status := 1 }

/-- The next full snapshot of the provider, in which the first pod is gone. -/
def snapshotWithoutA : RetryOperation := { scope := "k8s", batchID := "b2", trigger := 20, instances := [some podB] }

/-- A pod that an earlier snapshot of its provider contained stays deleted. -/
theorem fullOperation_buries_recorded :
    let gate := ({ typed := true } : OrderedSink).after
      [(.pushAllOperation { snapshotWithoutA with instances := [some podA, some podB] }, {})]
    Buried (gate.pushAllOperation snapshotWithoutA .acknowledging).sink "k8s/prod/uid-a" 7 := by
  intro gate
  have acknowledged : (gate.pushAllOperation snapshotWithoutA .acknowledging).acknowledged := ⟨by decide, rfl⟩
  have ran : resolve snapshotWithoutA .acknowledging = some snapshotWithoutA := rfl
  have found : gate.latest.lookup "k8s/prod/uid-a" = some ⟨7, false⟩ := by decide
  exact (fullOperation_buries_iff acknowledged ran (by decide) (by decide) found).mpr (.inr (by decide))

/-- A pod that reached the gate only through an incremental push is resurrected by its late retry. -/
theorem lateRetry_resurrects :
    let gate := ({ typed := true } : OrderedSink).after [(.push 10 [some podA], .acknowledging)]
    let outcome := gate.pushAllOperation snapshotWithoutA .acknowledging
    gate.latest.lookup "k8s/prod/uid-a" = some ⟨7, false⟩ ∧ outcome.acknowledged ∧
      destructiveAuthorized snapshotWithoutA = true ∧ "k8s/prod/uid-a" ∉ keysOf snapshotWithoutA.instances ∧
      ¬Buried outcome.sink "k8s/prod/uid-a" 7 := by
  intro gate outcome
  have left : outcome.sink.latest.lookup "k8s/prod/uid-a" = some ⟨7, false⟩ := by decide
  exact ⟨by decide, ⟨by decide, rfl⟩, by decide, by decide, not_buried_of_live (by decide) left rfl⟩

end Spotter.Worker
