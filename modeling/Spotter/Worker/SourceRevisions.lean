import Spotter.Library.History
import Spotter.Worker.Ledger

/-! # Staleness and source revisions

The gate is meant to judge an item against what its source already delivered. An item without a
revision of its own is recorded under its trigger, which is a wall-clock time in nanoseconds and
lives on another scale than source revisions. As long as such an item is never recorded above the
revisions the source really used, every stale verdict is backed by an accepted source revision.
-/

namespace Spotter.Worker

open Library Domain Ports

/-- The items a call got accepted: those of an acknowledged call to the wrapped sink. -/
def Outcome.accepted (outcome : Outcome) : List Instance :=
  match outcome.err, outcome.call with
  | none, some call => call.items
  | _, _ => []

variable (s : OrderedSink) (history : List SinkStep)

namespace OrderedSink

theorem after_append (step : SinkStep) :
    s.after (history ++ [step]) = ((s.after history).apply step).sink := by
  simp only [after, List.foldl_concat]

/-- Every item accepted along a history, oldest first. -/
def acceptedAlong (s : OrderedSink) : List SinkStep → List Instance
  | [] => []
  | step :: rest => (s.apply step).accepted ++ (s.apply step).sink.acceptedAlong rest

theorem acceptedAlong_append (step : SinkStep) : s.acceptedAlong (history ++ [step]) =
      s.acceptedAlong history ++ ((s.after history).apply step).accepted := by
  induction history generalizing s with
  | nil => simp [acceptedAlong, after]
  | cons first rest ih =>
    rw [List.cons_append, acceptedAlong, acceptedAlong, ih, List.append_assoc]
    rfl

end OrderedSink

/-- Some item of the identity with at least this revision of its own was accepted along the history. -/
def SourceAccepted (key : String) (revision : ℤ) : Prop :=
  ∃ earlier ∈ s.acceptedAlong history, identityKey earlier = key ∧ revision ≤ earlier.reversion

instance (s : OrderedSink) (history : List SinkStep) (key : String) (revision : ℤ) :
    Decidable (SourceAccepted s history key revision) :=
  inferInstanceAs (Decidable (∃ _ ∈ _, _))

/-- Every item of the identity that the next call judges superseded has a source revision that was
reached by an accepted item of the identity. -/
def JudgedBySource (step : SinkStep) (key : String) : Prop :=
  ∀ request, step.request = some request → ∀ item, some item ∈ request.items → identityKey item = key → item.reversion ≠ 0 →
    staleItem (s.after history).latest request.mode request.trigger item = true →
    SourceAccepted s history key item.reversion

/-- An item of the identity without a revision of its own that the call gets accepted comes with a trigger
that is not positive, or not above a source revision of the identity accepted before. -/
def TriggersCovered (key : String) (history : List SinkStep) (step : SinkStep) : Prop :=
  ∀ request ∈ step.request, ∀ item ∈ ((s.after history).apply step).accepted, identityKey item = key →
    item.reversion = 0 → request.trigger ≤ 0 ∨ SourceAccepted s history key request.trigger

instance (s : OrderedSink) (key : String) (history : List SinkStep) (step : SinkStep) :
    Decidable (TriggersCovered s key history step) :=
  inferInstanceAs (Decidable (∀ _ ∈ _, _))

/-- Every recorded revision of the identity was reached by an accepted source revision. -/
def LedgerCovered (key : String) (history : List SinkStep) : Prop :=
  ∀ entry, (s.after history).latest.lookup key = some entry → SourceAccepted s history key entry.revision

variable {s : OrderedSink} {history : List SinkStep} {step : SinkStep} {key : String}

theorem SourceAccepted.extend {revision : ℤ} (reached : SourceAccepted s history key revision) (step : SinkStep) :
    SourceAccepted s (history ++ [step]) key revision := by
  obtain ⟨earlier, member, named, bound⟩ := reached
  refine ⟨earlier, ?_, named, bound⟩
  rw [OrderedSink.acceptedAlong_append]
  exact List.mem_append_left _ member

/-- One call keeps the ledger covered when the revisionless items it gets accepted are covered. -/
theorem ledgerCovered_step (triggers : TriggersCovered s key history step) (covered : LedgerCovered s key history) :
    LedgerCovered s key (history ++ [step]) := by
  intro entry found
  rw [OrderedSink.after_append] at found
  cases (s.after history).apply_effect step with
  | closed isClose silent sink =>
    rw [sink, OrderedSink.close] at found
    split_ifs at found
    · exact (covered entry found).extend step
    · simp at found
  | kept same unacknowledged reached =>
    rw [same.latest] at found
    exact (covered entry found).extend step
  | committed request requested passes success reached same =>
    rw [same.latest] at found
    rcases OrderedSink.commitRequest_entry found with ⟨item, member, named, recorded⟩ | ⟨old, present, equal, _⟩
    · have delivered : item ∈ ((s.after history).apply step).accepted := by
        rw [Outcome.accepted, success, reached]
        simpa only [OrderedSink.requestCall_items] using member
      have accepted : item ∈ s.acceptedAlong (history ++ [step]) := by
        rw [OrderedSink.acceptedAlong_append]
        exact List.mem_append_right _ delivered
      subst recorded
      by_cases own : item.reversion = 0
      · have value : (entryOf request.trigger item).revision = request.trigger := if_pos own
        rw [value]
        rcases triggers request requested item delivered named own with low | reachedBefore
        · exact ⟨item, accepted, named, by omega⟩
        · exact reachedBefore.extend step
      · have value : (entryOf request.trigger item).revision = item.reversion := if_neg own
        exact ⟨item, accepted, named, le_of_eq value⟩
    · rw [equal]
      exact (covered old present).extend step

/-- In every run from a fresh gate in which accepted revisionless items of an identity never carry a trigger
above its accepted source revisions, every stale verdict on the identity is backed by an accepted
source revision. -/
theorem judgedBySource_of_triggersCovered (typed : Bool) (key : String) (history : List SinkStep)
    (triggers : History.AllSteps (TriggersCovered { typed := typed } key) history) (step : SinkStep) :
    JudgedBySource { typed := typed } history step key := by
  have covered : LedgerCovered { typed := typed } key history := by
    refine History.invariant (LedgerCovered _ key) ?_ (fun _ _ meets before => ledgerCovered_step meets before) triggers
    intro entry found
    simp [OrderedSink.after] at found
  intro request requested item offered named own stale
  obtain ⟨entry, found, older⟩ := staleItem_iff.mp stale
  have bound : effectiveRevision request.trigger item ≤ entry.revision := older.elim le_of_lt fun ties => le_of_eq ties.2.1
  rw [named] at found
  obtain ⟨earlier, member, sameKey, reached⟩ := covered entry found
  refine ⟨earlier, member, sameKey, ?_⟩
  rw [effectiveRevision, if_neg own] at bound
  omega

/-- A Consul endpoint, and the offline event that a reconcile builds from its degraded read-back. -/
def endpoint : Instance :=
  { sourceKey := "consul/east/web-1", instanceId := "web-1", provider := "ecs", reversion := 42, status := 1 }
def degradedOffline : Instance := { endpoint with reversion := 0, status := 3 }

/-- The wrapped sink does not get through. -/
def timingOut : SinkEnv where
  inner := fun _ => some (.errorf "read tcp: i/o timeout" [])
  foreign := by
    rintro call err ⟨⟩
    rfl

/-- A removal stamped with a wall-clock trigger that the sink does not accept is harmless, and so is an accepted one
whose trigger lies below the endpoint's accepted revision. -/
theorem judgedBySource_after_covered_removal : JudgedBySource { typed := true }
      [(.push 40 [some endpoint], .acknowledging), (.push 1700000000000000000 [some degradedOffline], timingOut),
        (.push 41 [some degradedOffline], .acknowledging)]
      (.push 50 [some { endpoint with reversion := 41 }], .acknowledging) "consul/east/web-1" :=
  judgedBySource_of_triggersCovered true "consul/east/web-1" _ (by decide +kernel) _

/-- A revisionless removal stamped with a wall-clock trigger makes the endpoint's next real revision stale. -/
theorem degradedRemoval_shadows_source :
    ¬JudgedBySource { typed := true } [(.push 1700000000000000000 [some degradedOffline], .acknowledging)]
      (.push 1700000000000000001 [some endpoint], .acknowledging) "consul/east/web-1" := by
  intro judged
  obtain ⟨earlier, member, _, bound⟩ := judged _ rfl endpoint (by simp) (by decide) (by decide) (by decide)
  have accepted : ({ typed := true } : OrderedSink).acceptedAlong
      [(.push 1700000000000000000 [some degradedOffline], .acknowledging)] = [degradedOffline] := by decide
  rw [accepted, List.mem_singleton] at member
  subst member
  exact absurd bound (by decide)

end Spotter.Worker
