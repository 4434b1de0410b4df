import Mathlib.Data.List.ReduceOption
import Spotter.Library.History
import Spotter.Library.Newest
import Spotter.Worker.RetryQueue

/-! # The retry queue keeps the newest event

For each identity and registered sink the queue should hold the most recently added event among
those with the highest revision that the sink still has to receive. An observer counts what is owed:
an addition owes its events, and a settled push discharges the events it supersedes. An addition
replaces a queued event only when its revision is strictly higher, so the queue and the observer part
ways exactly when a different event of the same revision arrives.
-/

namespace Spotter.Worker

open Library Domain Ports

variable {Ptr : Type} (deref : Ptr → Instance)

/-! ## One addition, seen from one key -/

variable (trigger : ℤ)

/-- What adding a matching instance makes of a key's entry. -/
def mergeEntry : Option (PendingPush Ptr) → Ptr → Option (PendingPush Ptr)
  | none, item => some ⟨trigger, item⟩
  | some old, item =>
    if (deref old.item).reversion < (deref item).reversion then some { old with item := item } else some old

/-- The instances of an addition that concern a key. -/
def matching (key : RetryKey) (targets : List String) (instances : List (Option Ptr)) : List Ptr :=
  if key.sink ∈ targets then instances.reduceOption.filter (fun item => identityKey (deref item) == key.identity)
  else []

theorem mergeEntry_idem (entry : Option (PendingPush Ptr)) (item : Ptr) :
    mergeEntry deref trigger (mergeEntry deref trigger entry item) item = mergeEntry deref trigger entry item := by
  cases entry with
  | none => simp [mergeEntry]
  | some old =>
    by_cases higher : (deref old.item).reversion < (deref item).reversion
    · simp [mergeEntry, higher]
    · simp [mergeEntry, higher]

theorem addOne_lookup (item : Ptr) (pushes : FiniteMap RetryKey (PendingPush Ptr)) (sink : String) (key : RetryKey) :
    (addOne deref trigger item pushes sink).lookup key =
      if retryKey deref item sink = key then mergeEntry deref trigger (pushes.lookup key) item
      else pushes.lookup key := by
  unfold addOne
  rcases eq_or_ne (retryKey deref item sink) key with rfl | same
  · cases found : pushes.lookup (retryKey deref item sink) with
    | none => simp [mergeEntry]
    | some old =>
      by_cases higher : (deref old.item).reversion < (deref item).reversion
      · simp [mergeEntry, higher]
      · simp [mergeEntry, higher, found]
  · rw [if_neg same]
    split
    · split_ifs
      · rw [FiniteMap.lookup_insert_ite, if_neg (Ne.symm same)]
      · rfl
    · rw [FiniteMap.lookup_insert_ite, if_neg (Ne.symm same)]

/-- A sink named twice adds nothing the second time. -/
theorem foldl_addOne_lookup (item : Ptr) (targets : List String)
    (pushes : FiniteMap RetryKey (PendingPush Ptr)) (key : RetryKey) :
    (targets.foldl (addOne deref trigger item) pushes).lookup key =
      if identityKey (deref item) = key.identity ∧ key.sink ∈ targets then
        mergeEntry deref trigger (pushes.lookup key) item
      else pushes.lookup key := by
  induction targets generalizing pushes with
  | nil => simp
  | cons sink rest ih =>
    rw [List.foldl_cons, ih, addOne_lookup]
    by_cases named : identityKey (deref item) = key.identity
    · rcases eq_or_ne sink (key.sink) with rfl | here
      · have same : retryKey deref item key.sink = key := by rw [retryKey, named]
        by_cases again : key.sink ∈ rest
        · simp [same, named, again, mergeEntry_idem]
        · simp [same, named, again]
      · have other : retryKey deref item sink ≠ key := fun same => here (congrArg RetryKey.sink same)
        simp [other, named, Ne.symm here]
    · have other : retryKey deref item sink ≠ key := fun same => named (congrArg RetryKey.identity same)
      simp [other, named]

/-- An addition merges its matching instances into a key's entry, in order. -/
theorem addAll_lookup (targets : List String) (instances : List (Option Ptr))
    (pushes : FiniteMap RetryKey (PendingPush Ptr)) (key : RetryKey) :
    (addAll deref trigger targets instances pushes).lookup key =
      (matching deref key targets instances).foldl (mergeEntry deref trigger) (pushes.lookup key) := by
  induction instances generalizing pushes with
  | nil =>
    unfold matching
    split_ifs <;> rfl
  | cons head rest ih =>
    cases head with
    | none =>
      rw [addAll, ih]
      simp only [matching, List.reduceOption_cons_of_none]
    | some item =>
      rw [addAll, ih, foldl_addOne_lookup]
      by_cases target : key.sink ∈ targets
      · by_cases named : identityKey (deref item) = key.identity
        · simp [matching, target, named]
        · simp [matching, target, named]
      · simp [matching, target]

/-- A merged entry is the old one, or newer by revision. -/
theorem mergeEntries_newer (items : List Ptr) (old : PendingPush Ptr) :
    ∃ merged, items.foldl (mergeEntry deref trigger) (some old) = some merged ∧
      (merged.item = old.item ∨ (deref old.item).reversion < (deref merged.item).reversion) := by
  induction items generalizing old with
  | nil => exact ⟨old, rfl, .inl rfl⟩
  | cons item rest ih =>
    rw [List.foldl_cons, mergeEntry]
    split_ifs with higher
    · obtain ⟨merged, equal, same | above⟩ := ih { old with item := item }
      · exact ⟨merged, equal, .inr (by rw [same]; exact higher)⟩
      · exact ⟨merged, equal, .inr (higher.trans above)⟩
    · exact ih old

/-- Where equal revisions mean equal events, merging tracks the newest event. -/
theorem mergeEntries_newest {trigger : ℤ} {items : List Ptr} {entry : Option (PendingPush Ptr)}
    {owed : List Instance} (tracks : entry.map (fun pending => deref pending.item) = Newest.newest Instance.reversion owed)
    (queued : ∀ old, entry = some old → ∀ item ∈ items,
      (deref old.item).reversion = (deref item).reversion → deref old.item = deref item)
    (among : ∀ first ∈ items, ∀ second ∈ items, (deref first).reversion = (deref second).reversion → deref first = deref second) :
    (items.foldl (mergeEntry deref trigger) entry).map (fun pending => deref pending.item) =
      Newest.newest Instance.reversion (owed ++ items.map deref) := by
  induction items generalizing entry owed with
  | nil => simpa using tracks
  | cons item rest ih =>
    have step : (mergeEntry deref trigger entry item).map (fun pending => deref pending.item) =
        Newest.newest Instance.reversion (owed ++ [deref item]) := by
      rw [Newest.newest_append, ← tracks]
      cases entry with
      | none => rfl
      | some old =>
        have tie := queued old rfl item (by simp)
        simp only [mergeEntry, Option.map_some, Newest.newer]
        split_ifs with higher bound bound
        · rfl
        · omega
        · exact congrArg some (tie (by omega))
        · rfl
    rw [List.foldl_cons, List.map_cons, ← List.singleton_append, ← List.append_assoc]
    refine ih step ?_ (fun first one second two => among first (by simp [one]) second (by simp [two]))
    intro current merged other member same
    cases entry with
    | none =>
      cases merged
      exact among item (by simp) other (by simp [member]) same
    | some old =>
      rw [mergeEntry] at merged
      split_ifs at merged
      · cases merged
        exact among item (by simp) other (by simp [member]) same
      · cases merged
        exact queued current rfl other (by simp [member]) same

theorem mem_matching {key : RetryKey} {targets : List String} {instances : List (Option Ptr)} {item : Ptr} :
    item ∈ matching deref key targets instances ↔
      key.sink ∈ targets ∧ some item ∈ instances ∧ identityKey (deref item) = key.identity := by
  unfold matching
  split_ifs with target
  · simp [target, List.reduceOption_mem_iff]
  · simp [target]

variable (fullBatchID : FullBatchID)

/-- The registered sinks never change. -/
theorem UnsyncedService.step_sinkNames [DecidableEq Ptr] (service : UnsyncedService Ptr) (action : QueueAction Ptr) :
    (service.step deref fullBatchID action).sinkNames = service.sinkNames := by
  cases action with
  | add => rfl
  | addFullWithMeta pending sinks => exact (service.addFullWithMeta_pushes pending sinks).2.2
  | beginCycle => rfl
  | dropGhostSinkKeys => rfl
  | retryPush key err => exact (service.retryPush_fulls key err).2.2
  | retryFull key err => exact (service.retryFull_pushes deref fullBatchID key err).2.2

/-! ## What a cycle still has to push -/

section Ahead

/-- What the cycle still has to push of a key is queued, or was replaced by a higher revision. -/
def UnsyncedService.Ahead (service : UnsyncedService Ptr) (key : RetryKey) : Prop :=
  ∀ attempted, service.batch.pushes.lookup key = some attempted → ∃ current, service.store.pushes.lookup key = some current ∧
      (current.item = attempted.item ∨ (deref attempted.item).reversion < (deref current.item).reversion)

variable {deref} {service after : UnsyncedService Ptr} {key : RetryKey}

namespace UnsyncedService.Ahead

theorem congr (ahead : service.Ahead deref key) (store : after.store.pushes.lookup key = service.store.pushes.lookup key)
    (batch : after.batch.pushes.lookup key = service.batch.pushes.lookup key) : after.Ahead deref key := by
  intro attempted copied
  rw [store]
  exact ahead attempted (batch ▸ copied)

theorem beginCycle (service : UnsyncedService Ptr) (key : RetryKey) : service.beginCycle.Ahead deref key :=
  fun attempted copied => ⟨attempted, copied, .inl rfl⟩

/-- An addition keeps an entry or raises its revision. -/
theorem add (ahead : service.Ahead deref key) (trigger : ℤ) (instances : List (Option Ptr)) (sinks : List String) :
    (service.add deref trigger instances sinks).Ahead deref key := by
  intro attempted copied
  simp only [UnsyncedService.add, addAll_lookup] at copied ⊢
  obtain ⟨current, found, relation⟩ := ahead attempted copied
  rw [found]
  obtain ⟨merged, equal, newer⟩ := mergeEntries_newer deref trigger
    (matching deref key (service.targets sinks) instances) current
  refine ⟨merged, equal, ?_⟩
  rcases newer with same | above
  · rw [same]
    exact relation
  · rcases relation with kept | below
    · exact .inr (by rw [← kept]; exact above)
    · exact .inr (below.trans above)

variable [DecidableEq Ptr]

/-- The outcome of a retry concerns its own key, and the cycle is done with that one. -/
theorem retryPush (ahead : service.Ahead deref key) (pushed : RetryKey) (err : Option GoError) :
    (service.retryPush pushed err).Ahead deref key := by
  cases copied : service.batch.pushes.lookup pushed with
  | none =>
    have same : service.retryPush pushed err = service := by simp only [UnsyncedService.retryPush, copied]
    rw [same]
    exact ahead
  | some attempted =>
    intro other left
    simp only [UnsyncedService.retryPush, copied] at left ⊢
    rcases eq_or_ne pushed key with rfl | here
    · split_ifs at left <;> simp [UnsyncedService.dropPush_fulls] at left
    · split_ifs at left ⊢
      · rw [(UnsyncedService.dropPush_fulls _ _ _).2.1, FiniteMap.lookup_erase_ite, if_neg (Ne.symm here)] at left
        rw [UnsyncedService.dropPush_lookup, if_neg (fun both => here both.1.symm)]
        exact ahead other left
      · rw [FiniteMap.lookup_erase_ite, if_neg (Ne.symm here)] at left
        exact ahead other left

/-- Whatever happens to the queue, a registered sink's entries stay ahead of the cycle. -/
theorem step (ahead : service.Ahead deref key) (fullBatchID : FullBatchID)
    (registered : key.sink ∈ service.sinkNames) (action : QueueAction Ptr) :
    (service.step deref fullBatchID action).Ahead deref key := by
  cases action with
  | add trigger instances sinks => exact ahead.add trigger instances sinks
  | addFullWithMeta pending sinks =>
    obtain ⟨pushes, batch, _⟩ := service.addFullWithMeta_pushes pending sinks
    exact ahead.congr (congrArg (·.lookup key) pushes) (congrArg (·.pushes.lookup key) batch)
  | beginCycle => exact .beginCycle service key
  | dropGhostSinkKeys => exact ahead.congr (UnsyncedService.dropGhostSinkKeys_lookup deref fullBatchID registered) rfl
  | retryPush pushed err => exact ahead.retryPush pushed err
  | retryFull pushed err =>
    obtain ⟨pushes, batch, _⟩ := service.retryFull_pushes deref fullBatchID pushed err
    exact ahead.congr (congrArg (·.lookup key) pushes) (congrArg (·.lookup key) batch)

/-- After a settled retry the entry is gone, or a higher revision took its place. -/
theorem settled {attempted : PendingPush Ptr} {err : Option GoError} (ahead : service.Ahead deref key)
    (copied : service.batch.pushes.lookup key = some attempted) (registered : key.sink ∈ service.sinkNames)
    (done : Worker.settled err = true) :
    ∀ current, (service.retryPush key err).store.pushes.lookup key = some current →
      (deref attempted.item).reversion < (deref current.item).reversion := by
  intro current left
  obtain ⟨queued, found, relation⟩ := ahead attempted copied
  simp only [UnsyncedService.retryPush, copied, registered, done, and_self, ↓reduceIte,
    UnsyncedService.dropPush_lookup, found, Option.any_some, decide_eq_true_eq, true_and] at left
  split_ifs at left with same
  cases left
  rcases relation with kept | above
  · exact absurd kept same
  · exact above

end UnsyncedService.Ahead

end Ahead

/-! ## Entries do not disturb each other -/

section Cells

/-- The queue as one identity at one sink sees it: what is queued, and what the running cycle has left to push. -/
structure RetryCell (Ptr : Type) where
  queued : Option (PendingPush Ptr)
  copied : Option (PendingPush Ptr)

variable [DecidableEq Ptr]

/-- The queued entry is still the copied one. -/
def RetryCell.unchanged (cell : RetryCell Ptr) : Bool :=
  cell.copied.any fun attempted => cell.queued.any fun current => decide (current.item = attempted.item)

/-- What becomes of the entry: additions for the sink merge into it, a cycle copies it, and the outcome of its own push or the
sweep of an unregistered sink deletes it unless it was replaced meanwhile. -/
def RetryCell.step (names : List String) (key : RetryKey) (cell : RetryCell Ptr) : QueueAction Ptr → RetryCell Ptr
  | .add trigger instances sinks =>
    let targets := if sinks.isEmpty then names else sinks
    { cell with queued := (matching deref key targets instances).foldl (mergeEntry deref trigger) cell.queued }
  | .beginCycle => { cell with copied := cell.queued }
  | .dropGhostSinkKeys =>
    { cell with
      queued := cell.queued.filter fun current =>
        decide (key.sink ∈ names) || cell.copied.all fun attempted => decide (current.item ≠ attempted.item) }
  | .retryPush pushed err =>
    if pushed = key then
      { queued := if key.sink ∈ names ∧ settled err ∧ cell.unchanged then none else cell.queued, copied := none }
    else cell
  | .addFullWithMeta _ _ | .retryFull _ _ => cell

namespace UnsyncedService

def cell (service : UnsyncedService Ptr) (key : RetryKey) : RetryCell Ptr :=
  ⟨service.store.pushes.lookup key, service.batch.pushes.lookup key⟩

theorem step_cell (service : UnsyncedService Ptr) (key : RetryKey) (action : QueueAction Ptr) :
    (service.step deref fullBatchID action).cell key = (service.cell key).step deref service.sinkNames key action := by
  cases action with
  | add trigger instances sinks => simp only [UnsyncedService.step, add, cell, addAll_lookup, RetryCell.step, targets]
  | addFullWithMeta pending sinks =>
    obtain ⟨pushes, batch, _⟩ := service.addFullWithMeta_pushes pending sinks
    simp only [UnsyncedService.step, cell, pushes, batch, RetryCell.step]
  | beginCycle => rfl
  | dropGhostSinkKeys => simp only [UnsyncedService.step, dropGhostSinkKeys, cell, FiniteMap.lookup_keep, RetryCell.step]
  | retryPush pushed err =>
    simp only [UnsyncedService.step, retryPush, RetryCell.step]
    rcases eq_or_ne key pushed with rfl | other
    · rw [if_pos rfl]
      split
      · next attempted copied =>
        by_cases done : key.sink ∈ service.sinkNames ∧ settled err
        · simp [cell, copied, done, dropPush_fulls, dropPush_lookup, RetryCell.unchanged]
        · simp [cell, copied, done, ← and_assoc]
      · next copied => simp [cell, copied, RetryCell.unchanged]
    · rw [if_neg other.symm]
      split
      · split_ifs
        · simp [cell, other, dropPush_fulls, dropPush_lookup]
        · simp [cell, other]
      · rfl
  | retryFull pushed err =>
    obtain ⟨pushes, batch, _⟩ := service.retryFull_pushes deref fullBatchID pushed err
    simp only [UnsyncedService.step, cell, pushes, batch, RetryCell.step]

/-- In every interleaving, what the queue holds for an identity at a sink is what an automaton of its own makes of the history:
neither other identities nor the failures and recoveries of other sinks matter. -/
theorem cell_after (service : UnsyncedService Ptr) (history : List (QueueAction Ptr)) (key : RetryKey) :
    (history.foldl (UnsyncedService.step deref fullBatchID) service).cell key =
      history.foldl (RetryCell.step deref service.sinkNames key) (service.cell key) := by
  induction history generalizing service with
  | nil => rfl
  | cons action rest ih =>
    rw [List.foldl_cons, List.foldl_cons, ih, step_cell, step_sinkNames]

end UnsyncedService

end Cells

/-! ## The observer -/

section Observer

variable [DecidableEq Ptr] (fullBatchID : FullBatchID)

/-- The queue together with the events each key's sink still has to receive, in order of addition. -/
structure Observed (Ptr : Type) where
  service : UnsyncedService Ptr
  owed : RetryKey → List Instance

/-- The events a key is owed after an action. -/
def owedAfter (before : Observed Ptr) (key : RetryKey) : QueueAction Ptr → List Instance
  | .add _ instances sinks =>
    before.owed key ++ (matching deref key (before.service.targets sinks) instances).map deref
  | .retryPush pushed err =>
    match before.service.batch.pushes.lookup pushed with
    | some attempted =>
      if pushed = key ∧ pushed.sink ∈ before.service.sinkNames ∧ settled err then
        Newest.discharge Instance.reversion (deref attempted.item) (before.owed key)
      else before.owed key
    | none => before.owed key
  | _ => before.owed key

def observe (before : Observed Ptr) (action : QueueAction Ptr) : Observed Ptr where
  service := before.service.step deref fullBatchID action
  owed := fun key => owedAfter deref before key action

variable (sinkNames : List String) (history : List (QueueAction Ptr))

/-- The queue and what is owed after a history, starting from an empty queue. -/
def observed : Observed Ptr :=
  history.foldl (observe deref fullBatchID) ⟨{ sinkNames := sinkNames }, fun _ => []⟩

theorem observed_append (action : QueueAction Ptr) : observed deref fullBatchID sinkNames (history ++ [action]) =
      observe deref fullBatchID (observed deref fullBatchID sinkNames history) action := by
  simp only [observed, List.foldl_concat]

/-- An addition brings no event of a queued or an accompanying event's identity and revision that
differs from it. -/
def NoTie (action : QueueAction Ptr) : Prop :=
  ∀ trigger instances sinks, action = .add trigger instances sinks →
    let service := (observed deref fullBatchID sinkNames history).service
    (∀ item, some item ∈ instances → ∀ sink ∈ service.targets sinks, ∀ old,
      service.store.pushes.lookup (retryKey deref item sink) = some old →
      (deref old.item).reversion = (deref item).reversion → deref old.item = deref item) ∧
    ∀ first second, some first ∈ instances → some second ∈ instances → identityKey (deref first) = identityKey (deref second) →
      (deref first).reversion = (deref second).reversion → deref first = deref second

/-- The queue tracks what is owed, and what a cycle still has to push is queued or was replaced by a
higher revision. -/
structure Tracks (state : Observed Ptr) (key : RetryKey) : Prop where
  newest : (state.service.store.pushes.lookup key).map (fun pending => deref pending.item) =
    Newest.newest Instance.reversion (state.owed key)
  attempted : state.service.Ahead deref key

variable {deref fullBatchID}

/-- The outcome of a retry keeps the queue on the newest owed event. -/
theorem Tracks.newest_retryPush {before : Observed Ptr} {key : RetryKey} (tracks : Tracks deref before key)
    (pushed : RetryKey) (err : Option GoError) :
    ((observe deref fullBatchID before (.retryPush pushed err)).service.store.pushes.lookup key).map
        (fun pending => deref pending.item) =
      Newest.newest Instance.reversion (owedAfter deref before key (.retryPush pushed err)) := by
  cases copied : before.service.batch.pushes.lookup pushed with
  | none =>
    have store : (before.service.retryPush pushed err) = before.service := by
      simp only [UnsyncedService.retryPush, copied]
    simp only [observe, UnsyncedService.step, owedAfter, store, copied]
    exact tracks.newest
  | some attempted =>
    rcases eq_or_ne pushed key with rfl | here
    · simp only [observe, UnsyncedService.step, UnsyncedService.retryPush, owedAfter, copied, true_and]
      split_ifs with done
      · obtain ⟨current, found, relation⟩ := tracks.attempted attempted copied
        have best := tracks.newest.symm
        rw [found, Option.map_some] at best
        rw [UnsyncedService.dropPush_lookup, found]
        rcases relation with same | newer
        · -- The cycle pushed the queued event itself: nothing is owed any more.
          rw [same] at best
          rw [Newest.discharge_newest best]
          simp [same, Newest.newest]
        · -- A higher revision replaced it meanwhile: the queued event stays owed.
          have apart : current.item ≠ attempted.item := by
            intro same
            rw [same] at newer
            omega
          rw [Newest.newest_discharge best newer]
          simp [apart]
      · exact tracks.newest
    · simp only [observe, UnsyncedService.step, UnsyncedService.retryPush, owedAfter, copied, here, false_and, ↓reduceIte]
      split_ifs
      · rw [UnsyncedService.dropPush_lookup, if_neg (fun both => here both.1.symm)]
        exact tracks.newest
      · exact tracks.newest

/-- Every action without a tie keeps a registered sink's entry on the newest owed event. -/
theorem Tracks.step {sinkNames : List String} {history : List (QueueAction Ptr)} {action : QueueAction Ptr}
    {key : RetryKey} (registered : key.sink ∈ (observed deref fullBatchID sinkNames history).service.sinkNames)
    (noTie : NoTie deref fullBatchID sinkNames history action)
    (tracks : Tracks deref (observed deref fullBatchID sinkNames history) key) :
    Tracks deref (observed deref fullBatchID sinkNames (history ++ [action])) key := by
  rw [observed_append]
  refine ⟨?_, tracks.attempted.step fullBatchID registered action⟩
  cases action with
  | add trigger instances sinks =>
    obtain ⟨queued, among⟩ := noTie trigger instances sinks rfl
    simp only [observe, UnsyncedService.step, UnsyncedService.add, addAll_lookup, owedAfter]
    refine mergeEntries_newest deref tracks.newest ?_ ?_
    · intro old found item member same
      obtain ⟨target, offered, named⟩ := (mem_matching deref).mp member
      have sameKey : retryKey deref item key.sink = key := by rw [retryKey, named]
      exact queued item offered key.sink target old (by rw [sameKey]; exact found) same
    · intro first one second two same
      obtain ⟨_, offeredFirst, namedFirst⟩ := (mem_matching deref).mp one
      obtain ⟨_, offeredSecond, namedSecond⟩ := (mem_matching deref).mp two
      exact among first second offeredFirst offeredSecond (namedFirst.trans namedSecond.symm) same
  | addFullWithMeta pending sinks =>
    obtain ⟨pushes, _, _⟩ := (observed deref fullBatchID sinkNames history).service.addFullWithMeta_pushes
      pending sinks
    simp only [observe, UnsyncedService.step, owedAfter, pushes]
    exact tracks.newest
  | beginCycle => exact tracks.newest
  | dropGhostSinkKeys =>
    have kept := UnsyncedService.dropGhostSinkKeys_lookup deref fullBatchID registered
    simp only [observe, UnsyncedService.step, owedAfter, kept]
    exact tracks.newest
  | retryPush pushed err => exact tracks.newest_retryPush pushed err
  | retryFull pushed err =>
    obtain ⟨pushes, _, _⟩ := (observed deref fullBatchID sinkNames history).service.retryFull_pushes
      deref fullBatchID pushed err
    simp only [observe, UnsyncedService.step, owedAfter, pushes]
    exact tracks.newest

theorem observed_sinkNames :
    (observed deref fullBatchID sinkNames history).service.sinkNames = sinkNames := by
  induction history using List.reverseRecOn with
  | nil => rfl
  | append_singleton earlier action ih =>
    rw [observed_append]
    exact (UnsyncedService.step_sinkNames deref fullBatchID _ action).trans ih

end Observer

/-- In every interleaving of additions, retry cycles and outcomes in which no addition ties with a
different event, the queue holds the newest event each registered sink still has to receive. -/
theorem retryQueue_holds_newest [DecidableEq Ptr] (fullBatchID : FullBatchID)
    (sinkNames : List String) (history : List (QueueAction Ptr))
    (ties : History.AllSteps (NoTie deref fullBatchID sinkNames) history) (key : RetryKey)
    (registered : key.sink ∈ sinkNames) :
    ((observed deref fullBatchID sinkNames history).service.store.pushes.lookup key).map
        (fun pending => deref pending.item) =
      Newest.newest Instance.reversion ((observed deref fullBatchID sinkNames history).owed key) := by
  suffices tracked : Tracks deref (observed deref fullBatchID sinkNames history) key from tracked.newest
  refine History.invariant (fun history => Tracks deref (observed deref fullBatchID sinkNames history) key) ?_ ?_ ties
  · exact ⟨rfl, fun attempted copied => by simp [observed] at copied⟩
  · intro earlier action noTie before
    exact before.step (by rw [observed_sinkNames]; exact registered) noTie

/-- The events of one pod by pointer: its registration, its deletion at the same revision, an update. -/
def podEvent : ℕ → Instance
  | 0 => { sourceKey := "k8s/prod/uid-a", instanceId := "pod-a", reversion := 7, status := 1 }
  | 1 => { sourceKey := "k8s/prod/uid-a", instanceId := "pod-a", reversion := 7, status := 3 }
  | _ => { sourceKey := "k8s/prod/uid-a", instanceId := "pod-a", reversion := 8, status := 1 }

/-- An update that arrives while the cycle pushes the registration outlives the acknowledgement. -/
theorem retryQueue_holds_update : ((observed podEvent (fun _ _ => "") ["atlas", "nacos"]
        [.add 1 [some 0] ["nacos"], .beginCycle, .add 2 [some 2] ["nacos"],
          .retryPush ⟨"k8s/prod/uid-a", "nacos"⟩ none]).service.store.pushes.lookup
            ⟨"k8s/prod/uid-a", "nacos"⟩).map (fun pending => podEvent pending.item) = some (podEvent 2) := by
  have ties : History.AllSteps (NoTie podEvent (fun _ _ => "") ["atlas", "nacos"])
      (((([] ++ [.add 1 [some 0] ["nacos"]]) ++ [.beginCycle]) ++ [.add 2 [some 2] ["nacos"]]) ++
        [.retryPush ⟨"k8s/prod/uid-a", "nacos"⟩ none]) := by
    refine History.allSteps_append.mpr ⟨History.allSteps_append.mpr ⟨History.allSteps_append.mpr
      ⟨History.allSteps_append.mpr ⟨History.allSteps_nil _, ?_⟩, ?_⟩, ?_⟩, ?_⟩
    · rintro trigger instances sinks ⟨⟩
      exact ⟨by simp [observed], by simp⟩
    · rintro trigger instances sinks ⟨⟩
    · rintro trigger instances sinks ⟨⟩
      refine ⟨?_, by simp⟩
      intro item offered sink target old found same
      cases List.mem_singleton.mp offered
      cases List.mem_singleton.mp (show sink ∈ ["nacos"] from target)
      cases found
      exact absurd same (by decide)
    · rintro trigger instances sinks ⟨⟩
  exact (retryQueue_holds_newest podEvent _ _ _ ties ⟨"k8s/prod/uid-a", "nacos"⟩ (by simp)).trans (by decide)

/-- A deletion queued after a registration of the same revision is lost: the queue still retries the registration. -/
theorem retryQueue_loses_deletion :
    let state := observed podEvent (fun _ _ => "") ["atlas", "nacos"]
      [.add 1 [some 0] ["nacos"], .add 2 [some 1] ["nacos"]]
    (state.service.store.pushes.lookup ⟨"k8s/prod/uid-a", "nacos"⟩).map (fun pending => podEvent pending.item) =
        some (podEvent 0) ∧
      Newest.newest Instance.reversion (state.owed ⟨"k8s/prod/uid-a", "nacos"⟩) = some (podEvent 1) ∧
      podEvent 0 ≠ podEvent 1 := by
  decide

end Spotter.Worker
