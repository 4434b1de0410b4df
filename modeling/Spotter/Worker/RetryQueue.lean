import Spotter.Ports.Sink

/-! # The retry queue

Failed pushes wait in a queue with one entry per identity and sink, failed full operations in one
entry per scope and sink. Additions update the queue in place at any time. A retry cycle copies the
queue by value, pushes outside the lock, and deletes an entry only if it is still the one it pushed.

Instances are shared by pointer and the deletion test of an incremental entry compares pointers, so
the queue holds pointers and `deref` reads through them. The operation kind in the source's key
splits its one map into the two maps here. The batch hash of full operations is a parameter.
-/

namespace Spotter.Worker

open Library Domain Ports

/-- An incremental entry's key: the identity and the sink that failed to receive it. -/
structure RetryKey where
  identity : String
  sink : String
deriving DecidableEq

/-- A full entry's key: a newer batch of the scope replaces an older one. -/
structure FullKey where
  sink : String
  scope : String
deriving DecidableEq

structure PendingPush (Ptr : Type) where
  trigger : ℤ
  item : Ptr

structure PendingFull (Ptr : Type) where
  trigger : ℤ
  batch : List (Option Ptr)
  scope : String
  batchID : String
  fullRevision : ℕ
  revalidate : Bool
  emptyConfirmed : Bool

structure RetryStore (Ptr : Type) where
  pushes : FiniteMap RetryKey (PendingPush Ptr) := ∅
  fulls : FiniteMap FullKey (PendingFull Ptr) := ∅

/-- The queue, the registered sinks, and the by-value copy the running cycle has left to push. -/
structure UnsyncedService (Ptr : Type) where
  sinkNames : List String
  store : RetryStore Ptr := {}
  batch : RetryStore Ptr := {}

variable {Ptr : Type} (deref : Ptr → Instance) (fullBatchID : FullBatchID) (service : UnsyncedService Ptr)

/-! ## Additions -/

/-- The queue key of an instance at a sink. -/
def retryKey (item : Ptr) (sink : String) : RetryKey := ⟨identityKey (deref item), sink⟩

/-- One round of `Add`'s loop: a queued entry is replaced only by a higher revision, and keeps its trigger. -/
def addOne (trigger : ℤ) (item : Ptr) (pushes : FiniteMap RetryKey (PendingPush Ptr)) (sink : String) :
    FiniteMap RetryKey (PendingPush Ptr) :=
  match pushes.lookup (retryKey deref item sink) with
  | some old =>
    if (deref old.item).reversion < (deref item).reversion then
      pushes.insert (retryKey deref item sink) { old with item := item }
    else pushes
  | none => pushes.insert (retryKey deref item sink) ⟨trigger, item⟩

/-- `Add`'s loop over the instances, nil ones skipped, and for each over the target sinks. -/
def addAll (trigger : ℤ) (targets : List String) :
    List (Option Ptr) → FiniteMap RetryKey (PendingPush Ptr) → FiniteMap RetryKey (PendingPush Ptr)
  | [], pushes => pushes
  | none :: rest, pushes => addAll trigger targets rest pushes
  | some item :: rest, pushes => addAll trigger targets rest (targets.foldl (addOne deref trigger item) pushes)

namespace UnsyncedService

/-- No sinks named means every registered sink. -/
def targets (sinks : List String) : List String :=
  if sinks.isEmpty then service.sinkNames else sinks

def add (trigger : ℤ) (instances : List (Option Ptr)) (sinks : List String) :
    UnsyncedService Ptr :=
  { service with
    store := { service.store with
      pushes := addAll deref trigger (service.targets sinks) instances service.store.pushes } }

end UnsyncedService

/-- One round of `AddFullWithMeta`'s loop: an entry of a later sequence stays. -/
def addFullOne (pending : PendingFull Ptr) (fulls : FiniteMap FullKey (PendingFull Ptr)) (sink : String) :
    FiniteMap FullKey (PendingFull Ptr) :=
  match fulls.lookup ⟨sink, pending.scope⟩ with
  | some old => if pending.fullRevision < old.fullRevision then fulls else fulls.insert ⟨sink, pending.scope⟩ pending
  | none => fulls.insert ⟨sink, pending.scope⟩ pending

/-- A missing sequence number is replaced by a positive trigger. -/
def effectiveSequence (sequence : ℕ) (trigger : ℤ) : ℕ :=
  if sequence = 0 then trigger.toNat else sequence

namespace UnsyncedService

/-- Queue a failed full operation; without a scope and a batch it cannot be retried. -/
def addFullWithMeta (pending : PendingFull Ptr) (sinks : List String) :
    UnsyncedService Ptr :=
  if pending.scope = "" ∨ pending.batchID = "" then service
  else
    let queued := { pending with fullRevision := effectiveSequence pending.fullRevision pending.trigger }
    { service with
      store := { service.store with fulls := (service.targets sinks).foldl (addFullOne queued) service.store.fulls } }

end UnsyncedService

/-! ## Retry cycles -/

/-- The full entry queued now is the one that was attempted. -/
def sameFull (fullBatchID : FullBatchID) (current attempted : PendingFull Ptr) : Bool :=
  decide (current.scope = attempted.scope ∧ current.batchID = attempted.batchID ∧ current.fullRevision = attempted.fullRevision ∧
    fullBatchID current.scope (current.batch.map (Option.map deref)) =
      fullBatchID attempted.scope (attempted.batch.map (Option.map deref)))

/-- The outcome of a push settles its entry: success, or an error no retry can cure. -/
def settled (err : Option GoError) : Bool := err.all GoError.isPermanentError

/-- A stale full operation is settled as well: the next snapshot rebuilds it. -/
def settledFull (err : Option GoError) : Bool := err.all (fun err => err.isStale || err.isPermanentError)

namespace UnsyncedService

/-- A cycle starts with a copy of the whole queue. -/
def beginCycle : UnsyncedService Ptr := { service with batch := service.store }

/-- Delete a full entry if it is still the attempted one. -/
def dropFull (key : FullKey) (attempted : PendingFull Ptr) : UnsyncedService Ptr :=
  match service.store.fulls.lookup key with
  | some current =>
    if sameFull deref fullBatchID current attempted then
      { service with store := { service.store with fulls := service.store.fulls.erase key } }
    else service
  | none => service

/-- The outcome of replaying one full entry of the batch on its sink. -/
def retryFull (key : FullKey) (err : Option GoError) : UnsyncedService Ptr :=
  match service.batch.fulls.lookup key with
  | some attempted =>
    let next := { service with batch := { service.batch with fulls := service.batch.fulls.erase key } }
    if key.sink ∈ service.sinkNames ∧ settledFull err then next.dropFull deref fullBatchID key attempted else next
  | none => service

/-- The outcome of a full entry takes it from the batch, and from the queue at most. -/
theorem retryFull_cases (key : FullKey) (err : Option GoError) : service.retryFull deref fullBatchID key err = service ∨
      ∃ fulls, (fulls = service.store.fulls ∨ fulls = service.store.fulls.erase key) ∧
        service.retryFull deref fullBatchID key err =
          { service with
            store := { service.store with fulls := fulls }
            batch := { service.batch with fulls := service.batch.fulls.erase key } } := by
  unfold retryFull
  split
  · refine .inr ?_
    simp only [dropFull]
    split_ifs
    · split
      · split_ifs
        · exact ⟨_, .inr rfl, rfl⟩
        · exact ⟨_, .inl rfl, rfl⟩
      · exact ⟨_, .inl rfl, rfl⟩
    · exact ⟨_, .inl rfl, rfl⟩
  · exact .inl rfl

/-- A full entry's outcome concerns only full entries. -/
theorem retryFull_pushes (key : FullKey) (err : Option GoError) :
    (service.retryFull deref fullBatchID key err).store.pushes = service.store.pushes ∧
      (service.retryFull deref fullBatchID key err).batch.pushes = service.batch.pushes ∧
      (service.retryFull deref fullBatchID key err).sinkNames = service.sinkNames := by
  rcases retryFull_cases deref fullBatchID service key err with same | ⟨fulls, _, result⟩
  · rw [same]
    exact ⟨rfl, rfl, rfl⟩
  · rw [result]
    exact ⟨rfl, rfl, rfl⟩

theorem addFullWithMeta_pushes (pending : PendingFull Ptr) (sinks : List String) :
    (service.addFullWithMeta pending sinks).store.pushes = service.store.pushes ∧
      (service.addFullWithMeta pending sinks).batch = service.batch ∧
      (service.addFullWithMeta pending sinks).sinkNames = service.sinkNames := by
  unfold addFullWithMeta
  split_ifs <;> exact ⟨rfl, rfl, rfl⟩

section Pointers

variable [DecidableEq Ptr]

/-- Delete an incremental entry if it is still the attempted one. -/
def dropPush (key : RetryKey) (attempted : PendingPush Ptr) : UnsyncedService Ptr :=
  match service.store.pushes.lookup key with
  | some current =>
    if current.item = attempted.item then
      { service with store := { service.store with pushes := service.store.pushes.erase key } }
    else service
  | none => service

/-- Delete the batch's entries whose sink is not registered. -/
def dropGhostSinkKeys : UnsyncedService Ptr :=
  { service with
    store :=
      { pushes := service.store.pushes.keep fun key current =>
          decide (key.sink ∈ service.sinkNames) ||
            (service.batch.pushes.lookup key).all fun attempted => decide (current.item ≠ attempted.item)
        fulls := service.store.fulls.keep fun key current =>
          decide (key.sink ∈ service.sinkNames) ||
            (service.batch.fulls.lookup key).all fun attempted =>
              !sameFull deref fullBatchID current attempted } }

/-- The outcome of pushing one incremental entry of the batch to its sink. -/
def retryPush (key : RetryKey) (err : Option GoError) : UnsyncedService Ptr :=
  match service.batch.pushes.lookup key with
  | some attempted =>
    let next := { service with batch := { service.batch with pushes := service.batch.pushes.erase key } }
    if key.sink ∈ service.sinkNames ∧ settled err then next.dropPush key attempted else next
  | none => service

/-- Deleting an incremental entry concerns only the queued ones. -/
theorem dropPush_fulls (key : RetryKey) (attempted : PendingPush Ptr) :
    (service.dropPush key attempted).store.fulls = service.store.fulls ∧ (service.dropPush key attempted).batch = service.batch ∧
      (service.dropPush key attempted).sinkNames = service.sinkNames := by
  unfold dropPush
  split
  · split_ifs <;> exact ⟨rfl, rfl, rfl⟩
  · exact ⟨rfl, rfl, rfl⟩

theorem dropPush_lookup (key query : RetryKey) (attempted : PendingPush Ptr) :
    (service.dropPush key attempted).store.pushes.lookup query =
      if query = key ∧ (service.store.pushes.lookup key).any (fun current => decide (current.item = attempted.item))
      then none else service.store.pushes.lookup query := by
  unfold dropPush
  cases found : service.store.pushes.lookup key with
  | none => simp
  | some current =>
    by_cases same : current.item = attempted.item
    · simp [same, FiniteMap.lookup_erase_ite]
    · simp [same]

/-- A pushed incremental entry leaves the full entries alone. -/
theorem retryPush_fulls (key : RetryKey) (err : Option GoError) : (service.retryPush key err).store.fulls = service.store.fulls ∧
      (service.retryPush key err).batch.fulls = service.batch.fulls ∧
      (service.retryPush key err).sinkNames = service.sinkNames := by
  unfold retryPush
  split
  · next attempted copied =>
    simp only
    split_ifs
    · obtain ⟨fulls, batch, names⟩ := dropPush_fulls
        { service with batch := { service.batch with pushes := service.batch.pushes.erase key } } key attempted
      exact ⟨fulls, (congrArg RetryStore.fulls batch).trans rfl, names⟩
    · exact ⟨rfl, rfl, rfl⟩
  · exact ⟨rfl, rfl, rfl⟩

/-- The entries of a registered sink survive the ghost sweep. -/
theorem dropGhostSinkKeys_lookup {service : UnsyncedService Ptr} {key : RetryKey}
    (registered : key.sink ∈ service.sinkNames) :
    (service.dropGhostSinkKeys deref fullBatchID).store.pushes.lookup key = service.store.pushes.lookup key := by
  simp only [dropGhostSinkKeys, FiniteMap.lookup_keep, registered, decide_true, Bool.true_or]
  cases service.store.pushes.lookup key <;> rfl

end Pointers

end UnsyncedService

/-- Everything that can happen to the queue, in any interleaving. -/
inductive QueueAction (Ptr : Type) where
  | add (trigger : ℤ) (instances : List (Option Ptr)) (sinks : List String)
  | addFullWithMeta (pending : PendingFull Ptr) (sinks : List String)
  | beginCycle
  | dropGhostSinkKeys
  | retryPush (key : RetryKey) (err : Option GoError)
  | retryFull (key : FullKey) (err : Option GoError)

def UnsyncedService.step [DecidableEq Ptr] (fullBatchID : FullBatchID) (service : UnsyncedService Ptr) :
    QueueAction Ptr → UnsyncedService Ptr
  | .add trigger instances sinks => service.add deref trigger instances sinks
  | .addFullWithMeta pending sinks => service.addFullWithMeta pending sinks
  | .beginCycle => service.beginCycle
  | .dropGhostSinkKeys => service.dropGhostSinkKeys deref fullBatchID
  | .retryPush key err => service.retryPush key err
  | .retryFull key err => service.retryFull deref fullBatchID key err

/-! ## Where full entries come from -/

section Fulls

variable {Ptr : Type} {deref : Ptr → Instance} {fullBatchID : FullBatchID}
  {service : UnsyncedService Ptr} {key : FullKey} {entry pending : PendingFull Ptr}

theorem addFullOne_lookup {fulls : FiniteMap FullKey (PendingFull Ptr)} {sink : String}
    (found : (addFullOne pending fulls sink).lookup key = some entry) :
    fulls.lookup key = some entry ∨ (key.scope = pending.scope ∧ entry = pending) := by
  have inserted : (fulls.insert ⟨sink, pending.scope⟩ pending).lookup key = some entry →
      fulls.lookup key = some entry ∨ (key.scope = pending.scope ∧ entry = pending) := by
    rw [FiniteMap.lookup_insert_ite]
    split_ifs with same
    · rintro ⟨⟩
      exact .inr ⟨congrArg FullKey.scope same, rfl⟩
    · exact .inl
  unfold addFullOne at found
  split at found
  · split_ifs at found
    · exact .inl found
    · exact inserted found
  · exact inserted found

theorem foldl_addFullOne_lookup (sinks : List String) {fulls : FiniteMap FullKey (PendingFull Ptr)}
    (found : (sinks.foldl (addFullOne pending) fulls).lookup key = some entry) :
    fulls.lookup key = some entry ∨ (key.scope = pending.scope ∧ entry = pending) := by
  induction sinks generalizing fulls with
  | nil => exact .inl found
  | cons sink rest ih =>
    rcases ih found with earlier | added
    · exact addFullOne_lookup earlier
    · exact .inr added

namespace UnsyncedService

/-- A full entry found after an addition was there before or carries the added metadata. -/
theorem addFullWithMeta_lookup {sinks : List String}
    (found : (service.addFullWithMeta pending sinks).store.fulls.lookup key = some entry) :
    service.store.fulls.lookup key = some entry ∨ (key.scope = pending.scope ∧
      entry = { pending with fullRevision := effectiveSequence pending.fullRevision pending.trigger }) := by
  unfold addFullWithMeta at found
  split_ifs at found
  · exact .inl found
  · exact foldl_addFullOne_lookup _ found

theorem retryFull_lookup {retried : FullKey} {err : Option GoError}
    (found : (service.retryFull deref fullBatchID retried err).store.fulls.lookup key = some entry) :
    service.store.fulls.lookup key = some entry := by
  rcases retryFull_cases deref fullBatchID service retried err with same | ⟨_, rfl | rfl, result⟩
  · rwa [same] at found
  · rwa [result] at found
  · rw [result] at found
    exact (FiniteMap.lookup_erase_eq_some_iff.mp found).2

theorem retryFull_batch_lookup {retried : FullKey} {err : Option GoError}
    (found : (service.retryFull deref fullBatchID retried err).batch.fulls.lookup key = some entry) :
    service.batch.fulls.lookup key = some entry := by
  rcases retryFull_cases deref fullBatchID service retried err with same | ⟨fulls, _, result⟩
  · rwa [same] at found
  · rw [result] at found
    exact (FiniteMap.lookup_erase_eq_some_iff.mp found).2

variable [DecidableEq Ptr]

/-- A queued full entry was queued before the step, or the step queued it. -/
theorem step_fulls_lookup {action : QueueAction Ptr}
    (found : (service.step deref fullBatchID action).store.fulls.lookup key = some entry) :
    service.store.fulls.lookup key = some entry ∨
      ∃ pending sinks, action = .addFullWithMeta pending sinks ∧ key.scope = pending.scope := by
  cases action with
  | add trigger instances sinks => exact .inl found
  | addFullWithMeta pending sinks =>
    rcases addFullWithMeta_lookup found with before | ⟨scope, _⟩
    · exact .inl before
    · exact .inr ⟨pending, sinks, rfl, scope⟩
  | beginCycle => exact .inl found
  | dropGhostSinkKeys =>
    simp only [step, dropGhostSinkKeys, FiniteMap.lookup_keep, Option.filter_eq_some_iff] at found
    exact .inl found.1
  | retryPush retried err =>
    simp only [step, (retryPush_fulls service retried err).1] at found
    exact .inl found
  | retryFull retried err => exact .inl (retryFull_lookup found)

/-- A full entry of the running cycle was its before the step, or is one that was queued. -/
theorem step_batch_fulls_lookup {action : QueueAction Ptr}
    (found : (service.step deref fullBatchID action).batch.fulls.lookup key = some entry) :
    service.batch.fulls.lookup key = some entry ∨ service.store.fulls.lookup key = some entry := by
  cases action with
  | add trigger instances sinks => exact .inl found
  | addFullWithMeta pending sinks =>
    simp only [step, (addFullWithMeta_pushes service pending sinks).2.1] at found
    exact .inl found
  | beginCycle => exact .inr found
  | dropGhostSinkKeys => exact .inl found
  | retryPush retried err =>
    simp only [step, (retryPush_fulls service retried err).2.1] at found
    exact .inl found
  | retryFull retried err => exact .inl (retryFull_batch_lookup found)

end UnsyncedService

end Fulls

end Spotter.Worker
