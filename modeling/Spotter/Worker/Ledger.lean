import Mathlib.Data.List.ReduceOption
import Spotter.Worker.OrderedSink

/-! # What one call does to the ledger

The filtering loop is replaced by its closed form, the gate by a predicate on its inputs that says
when the call reaches the wrapped sink, and the ledger after an acknowledged call by a point lookup.
Later modules use these three results and do not unfold the loop again.
-/

namespace Spotter.Worker

open Library Domain Ports

theorem IdentityRevision.staleRevision_iff (previous : IdentityRevision) (revision : ℤ) : previous.staleRevision revision = true ↔
      revision < previous.revision ∨ (previous.tombstone = true ∧ revision = previous.revision) := by
  cases flag : previous.tombstone <;>
    simp only [staleRevision, flag, Bool.false_and, Bool.true_and, Bool.not_true, Bool.not_false, Bool.or_false,
      Bool.false_or, decide_eq_true_eq, false_and, or_false, true_and, Bool.false_eq_true]
  omega

/-- The gate's verdict: the item is older than its entry, or it meets a tombstone of its own revision
that its push may not heal. -/
theorem staleItem_iff {latest : FiniteMap String IdentityRevision} {mode : PushMode} {trigger : ℤ}
    {item : Instance} :
    staleItem latest mode trigger item = true ↔ ∃ entry, latest.lookup (identityKey item) = some entry ∧
        (effectiveRevision trigger item < entry.revision ∨
          (entry.tombstone = true ∧ effectiveRevision trigger item = entry.revision ∧
            ¬(mode.full = true ∧ mode.trustedComplete = true ∧ mode.revalidated = true ∧ item.offline = false))) := by
  unfold staleItem
  cases found : latest.lookup (identityKey item) with
  | none => simp
  | some entry =>
    simp only [Bool.and_eq_true, Bool.not_eq_true', Option.some.injEq, exists_eq_left',
      IdentityRevision.staleRevision_iff, IdentityRevision.trustedEqualRevisionHeal, Bool.and_eq_false_iff,
      decide_eq_false_iff_not, Bool.not_eq_false']
    constructor
    · rintro ⟨below | ⟨gone, equal⟩, unhealed⟩
      · exact .inl below
      · refine .inr ⟨gone, equal, ?_⟩
        rintro ⟨full, trusted, revalidated, online⟩
        simp [full, trusted, revalidated, online, gone, equal] at unhealed
    · rintro (below | ⟨gone, equal, unhealed⟩)
      · exact ⟨.inl below, .inl (.inr (by omega))⟩
      · refine ⟨.inr ⟨gone, equal⟩, ?_⟩
        cases full : mode.full <;> cases trusted : mode.trustedComplete <;>
          cases revalidated : mode.revalidated <;> cases online : item.offline <;> simp_all

/-! ## Closed form of the filtering loop -/

/-- The identities a push names, nil items left out. -/
def keysOf (items : Instances) : List String := items.reduceOption.map identityKey

variable (latest : FiniteMap String IdentityRevision)

/-- The items the ledger lets through, in push order. -/
def survivors (mode : PushMode) (trigger : ℤ) (items : Instances) : List Instance :=
  items.reduceOption.filter (fun item => !staleItem latest mode trigger item)

/-- Write accepted items into a ledger; a later item of an identity overwrites an earlier one. -/
def record (trigger : ℤ) (ledger : FiniteMap String IdentityRevision) (items : List Instance) :
    FiniteMap String IdentityRevision :=
  items.foldl (fun ledger item => ledger.insert (identityKey item) (entryOf trigger item)) ledger

/-- The accumulators of the loop after a whole push. -/
def admissionOf (mode : PushMode) (trigger : ℤ) (items : Instances) : Admission where
  filtered := survivors latest mode trigger items
  accepted := record trigger ∅ (survivors latest mode trigger items)
  seen := if mode.full then (keysOf items).toFinset else ∅
  stale := items.reduceOption.any (staleItem latest mode trigger)

@[simp] theorem admissionOf_nil (mode : PushMode) (trigger : ℤ) :
    admissionOf latest mode trigger [] = {} := by
  simp [admissionOf, survivors, record, keysOf]

section Loop

variable (latest : FiniteMap String IdentityRevision) (mode : PushMode) (trigger : ℤ)

theorem filterItem_admissionOf (done : Instances) (item : Instance) :
    filterItem latest mode trigger (admissionOf latest mode trigger done) item =
      if mode.full ∧ identityKey item ∈ keysOf done then .error (duplicateIdentity (identityKey item))
      else .ok (admissionOf latest mode trigger (done ++ [some item])) := by
  have present : (done ++ [some item]).reduceOption = done.reduceOption ++ [item] := by
    simp [List.reduceOption_append]
  by_cases full : mode.full = true
  · by_cases known : identityKey item ∈ keysOf done
    · simp [filterItem, admissionOf, full, known]
    · by_cases stale : staleItem latest mode trigger item = true <;>
        simp [filterItem, admissionOf, survivors, record, keysOf, present, full, stale,
          show identityKey item ∉ done.reduceOption.map identityKey from known]
  · by_cases stale : staleItem latest mode trigger item = true <;>
      simp [filterItem, admissionOf, survivors, record, present, full, stale]

theorem admissionOf_append_none (done : Instances) :
    admissionOf latest mode trigger done = admissionOf latest mode trigger (done ++ [none]) := by
  simp [admissionOf, survivors, keysOf, List.reduceOption_append]

theorem filterItems_append (done rest : Instances)
    (distinct : mode.full = true → (keysOf (done ++ rest)).Nodup) :
    filterItems latest mode trigger (admissionOf latest mode trigger done) rest =
      .ok (admissionOf latest mode trigger (done ++ rest)) := by
  induction rest generalizing done with
  | nil => rw [List.append_nil, filterItems]
  | cons head rest ih =>
    cases head with
    | none =>
      rw [filterItems, admissionOf_append_none, ih (done ++ [none]) (by simpa using distinct), List.append_assoc]
      rfl
    | some item =>
      have fresh : ¬(mode.full = true ∧ identityKey item ∈ keysOf done) := by
        rintro ⟨full, known⟩
        have := distinct full
        simp only [keysOf, List.reduceOption_append, List.map_append, List.nodup_append] at this
        exact this.2.2 _ known _ (by simp) rfl
      rw [filterItems, filterItem_admissionOf, if_neg fresh]
      simp only
      rw [ih (done ++ [some item]) (by simpa using distinct), List.append_assoc]
      rfl

/-- A push without repeated identities, or any incremental push, runs through the whole loop. -/
theorem filterItems_eq_ok (items : Instances) (distinct : mode.full = true → (keysOf items).Nodup) :
    filterItems latest mode trigger {} items = .ok (admissionOf latest mode trigger items) := by
  rw [← admissionOf_nil latest mode trigger]
  exact filterItems_append latest mode trigger [] items distinct

/-- A full push that repeats an identity is refused by name. -/
theorem filterItems_eq_error (done rest : Instances) (full : mode.full = true)
    (first : (keysOf done).Nodup) (repeated : ¬(keysOf (done ++ rest)).Nodup) :
    ∃ key, filterItems latest mode trigger (admissionOf latest mode trigger done) rest =
      .error (duplicateIdentity key) := by
  induction rest generalizing done with
  | nil => exact absurd first (by simpa using repeated)
  | cons head rest ih =>
    cases head with
    | none =>
      rw [filterItems, admissionOf_append_none]
      exact ih (done ++ [none]) (by simpa [keysOf, List.reduceOption_append] using first) (by simpa using repeated)
    | some item =>
      rw [filterItems, filterItem_admissionOf]
      by_cases known : identityKey item ∈ keysOf done
      · exact ⟨_, by rw [if_pos ⟨full, known⟩]⟩
      · rw [if_neg (fun both => known both.2)]
        refine ih (done ++ [some item]) ?_ (by simpa using repeated)
        simp only [keysOf, List.reduceOption_append, List.map_append, List.nodup_append]
        refine ⟨first, by simp, ?_⟩
        intro key old other new same
        simp only [List.reduceOption_singleton, Option.toList_some, List.map_cons, List.map_nil, List.mem_singleton] at new
        exact known (by rw [← new, ← same]; exact old)

end Loop

/-! ## The accepted entries -/

theorem lookup_record (trigger : ℤ) (ledger : FiniteMap String IdentityRevision) (items : List Instance)
    (key : String) :
    (record trigger ledger items).lookup key =
      (((items.filter (fun item => identityKey item == key)).getLast?).map (entryOf trigger)).or
        (ledger.lookup key) := by
  induction items using List.reverseRecOn with
  | nil => rfl
  | append_singleton items item ih =>
    rw [record, List.foldl_append] at *
    simp only [List.foldl_cons, List.foldl_nil, FiniteMap.lookup_insert_ite, List.filter_append]
    by_cases same : key = identityKey item
    · simp [same]
    · have other : (identityKey item == key) = false := by simpa using Ne.symm same
      simp only [if_neg same, ih, List.filter_cons, other, Bool.false_eq_true, ↓reduceIte, List.filter_nil, List.append_nil]

variable {key : String}

/-- An accepted entry comes from an item of the push. -/
theorem record_empty_lookup {trigger : ℤ} {items : List Instance} {entry : IdentityRevision}
    (found : (record trigger ∅ items).lookup key = some entry) :
    ∃ item ∈ items, identityKey item = key ∧ entryOf trigger item = entry := by
  rw [lookup_record, Finmap.lookup_empty, Option.or_none, Option.map_eq_some_iff] at found
  obtain ⟨item, last, rfl⟩ := found
  have member := List.mem_of_getLast? last
  rw [List.mem_filter, beq_iff_eq] at member
  exact ⟨item, member.1, member.2, rfl⟩

theorem record_empty_eq_none {trigger : ℤ} {items : List Instance} :
    (record trigger ∅ items).lookup key = none ↔ ∀ item ∈ items, identityKey item ≠ key := by
  rw [lookup_record, Finmap.lookup_empty, Option.or_none, Option.map_eq_none_iff, List.getLast?_eq_none_iff,
    List.filter_eq_nil_iff]
  simp only [beq_iff_eq, ne_eq]

/-! ## The gate -/

theorem mem_survivors {latest : FiniteMap String IdentityRevision} {mode : PushMode} {trigger : ℤ}
    {items : Instances} {item : Instance} :
    item ∈ survivors latest mode trigger items ↔
      some item ∈ items ∧ staleItem latest mode trigger item = false := by
  rw [survivors, List.mem_filter, List.reduceOption_mem_iff, Bool.not_eq_true']

theorem mem_keysOf {items : Instances} :
    key ∈ keysOf items ↔ ∃ item, some item ∈ items ∧ identityKey item = key := by
  simp only [keysOf, List.mem_map, List.reduceOption_mem_iff]

namespace OrderedSink

/-- The call reaches the wrapped sink: the gate is open, a full push repeats no identity, holds no
superseded item and, unless trusted, omits no live identity, and something is left to forward. -/
def Passes (s : OrderedSink) (trigger : ℤ) (items : Instances) (mode : PushMode) : Prop :=
  s.closed = false ∧
  (mode.full = true → (keysOf items).Nodup ∧ (mode.trustedComplete = false → s.omitsLive (keysOf items).toFinset = false) ∧
    ∀ item, some item ∈ items → staleItem s.latest mode trigger item = false) ∧
  (survivors s.latest mode trigger items = [] → items = [])

variable {s : OrderedSink} {trigger : ℤ} {items : Instances} {mode : PushMode}

private theorem stale_eq_false_iff {latest : FiniteMap String IdentityRevision} :
    (admissionOf latest mode trigger items).stale = false ↔
      ∀ item, some item ∈ items → staleItem latest mode trigger item = false := by
  simp only [admissionOf, List.any_eq_false, List.reduceOption_mem_iff, Bool.not_eq_true]

/-- A call that passes the gate is decided by the wrapped sink alone. -/
theorem runLocked_of_passes (operation : Option RetryOperation) (env : SinkEnv)
    (passes : s.Passes trigger items mode) :
    s.runLocked trigger items mode operation env =
      match env.inner (s.innerCall trigger (survivors s.latest mode trigger items) mode operation) with
      | some err =>
        { sink := s
          call := some (s.innerCall trigger (survivors s.latest mode trigger items) mode operation)
          err := some err }
      | none =>
        { sink := s.commit mode operation (admissionOf s.latest mode trigger items)
          call := some (s.innerCall trigger (survivors s.latest mode trigger items) mode operation) } := by
  obtain ⟨opened, full, some_left⟩ := passes
  have looped := filterItems_eq_ok s.latest mode trigger items (fun isFull => (full isFull).1)
  have complete : (mode.full && !mode.trustedComplete &&
      s.omitsLive (admissionOf s.latest mode trigger items).seen) = false := by
    cases isFull : mode.full
    · rfl
    · cases trusted : mode.trustedComplete
      · simpa [admissionOf, isFull] using (full isFull).2.1 trusted
      · rfl
  have current : (mode.full && (admissionOf s.latest mode trigger items).stale) = false := by
    cases isFull : mode.full
    · rfl
    · simpa using stale_eq_false_iff.mpr (full isFull).2.2
  have forwarded : ((admissionOf s.latest mode trigger items).filtered.isEmpty && !items.isEmpty) = false := by
    cases left : survivors s.latest mode trigger items with
    | nil => simp [some_left left]
    | cons item rest => simp [admissionOf, left]
  simp only [runLocked, opened, looped, complete, current, forwarded, Bool.false_eq_true, ↓reduceIte]
  rfl

/-- A call that does not pass the gate changes nothing and reaches nobody. -/
theorem runLocked_of_not_passes (operation : Option RetryOperation) (env : SinkEnv)
    (refused : ¬s.Passes trigger items mode) :
    ∃ err, s.runLocked trigger items mode operation env = { sink := s, err := err } := by
  by_cases closed : s.closed = true
  · exact ⟨some sinkClosed, by simp [runLocked, closed]⟩
  have opened : s.closed = false := by simpa using closed
  by_cases distinct : mode.full = true → (keysOf items).Nodup
  · have looped := filterItems_eq_ok s.latest mode trigger items distinct
    simp only [runLocked, opened, looped, Bool.false_eq_true, ↓reduceIte]
    split_ifs with omits stale nothing
    · exact ⟨_, rfl⟩
    · exact ⟨_, rfl⟩
    · exact ⟨_, rfl⟩
    · refine absurd ⟨opened, fun isFull => ⟨distinct isFull, ?_, ?_⟩, ?_⟩ refused
      · intro untrusted
        simpa [admissionOf, isFull, untrusted] using omits
      · exact stale_eq_false_iff.mp (by simpa [isFull] using stale)
      · intro none_left
        simpa [admissionOf, none_left] using nothing
  · obtain ⟨isFull, repeated⟩ := Classical.not_imp.mp distinct
    obtain ⟨key, looped⟩ := filterItems_eq_error s.latest mode trigger [] items isFull (by simp [keysOf]) repeated
    rw [admissionOf_nil] at looped
    exact ⟨some (duplicateIdentity key), by simp only [runLocked, opened, looped, Bool.false_eq_true, ↓reduceIte]⟩

end OrderedSink

/-! ## One form for every call -/

/-- The run of the gate that a call amounts to once its snapshot is rebuilt. -/
structure Request where
  trigger : ℤ
  items : Instances
  mode : PushMode
  operation : Option RetryOperation

/-- The operation after its `Revalidate` function ran, unless that refused it. -/
def resolve (operation : RetryOperation) (env : SinkEnv) : Option RetryOperation :=
  if operation.revalidate then
    if env.answer.ok then some { operation with instances := env.answer.instances } else none
  else some operation

/-- The run of the gate a call makes, none when the call stops before the gate. -/
def SinkStep.request : SinkStep → Option Request
  | (.push trigger items, _) => some ⟨trigger, items, ⟨false, false, false⟩, none⟩
  | (.pushAll trigger items, _) => some ⟨trigger, items, ⟨true, false, false⟩, none⟩
  | (.pushAllWithRevalidate trigger items revalidate, env) =>
    if revalidate then
      if env.answer.ok then some ⟨trigger, env.answer.instances, ⟨true, true, true⟩, none⟩ else none
    else some ⟨trigger, items, ⟨true, true, false⟩, none⟩
  | (.pushAllOperation operation, env) =>
    (resolve operation env).bind fun resolved =>
      if unconfirmedEmpty resolved then none
      else some ⟨resolved.trigger, resolved.instances,
        ⟨true, destructiveAuthorized resolved, operation.revalidate⟩, some resolved⟩
  | (.close, _) => none

/-- Two gates agree on everything later calls depend on. -/
structure SameLedger (first second : OrderedSink) : Prop where
  typed : first.typed = second.typed
  latest : first.latest = second.latest
  identityScope : first.identityScope = second.identityScope
  closed : first.closed = second.closed

/-- The call reached the wrapped sink, which acknowledged it. -/
def Outcome.acknowledged (outcome : Outcome) : Prop := outcome.call.isSome ∧ outcome.err = none

namespace OrderedSink

variable {s : OrderedSink} {step : SinkStep} {request : Request}

/-- The gate's decision on a request. -/
def PassesRequest (s : OrderedSink) (request : Request) : Prop :=
  s.Passes request.trigger request.items request.mode

/-- What a request forwards. -/
def requestCall (s : OrderedSink) (request : Request) : InnerCall :=
  s.innerCall request.trigger (survivors s.latest request.mode request.trigger request.items) request.mode
    request.operation

/-- The ledger after the wrapped sink acknowledged a request. -/
def commitRequest (s : OrderedSink) (request : Request) : OrderedSink :=
  s.commit request.mode request.operation (admissionOf s.latest request.mode request.trigger request.items)

/-- Everything a call can do. A call either closes the gate, or leaves the ledger as it was without
an acknowledgement, or passes the gate and is recorded after the acknowledgement. -/
inductive Effect (s : OrderedSink) (step : SinkStep) (outcome : Outcome) : Prop
  | closed (isClose : step.1 = .close) (silent : outcome.call = none) (sink : outcome.sink = s.close)
  | kept (same : SameLedger outcome.sink s) (unacknowledged : ¬outcome.acknowledged)
      (reached : ∀ call, outcome.call = some call →
        ∃ request, step.request = some request ∧ s.PassesRequest request ∧ call = s.requestCall request)
  | committed (request : Request) (requested : step.request = some request) (passes : s.PassesRequest request)
      (success : outcome.err = none) (reached : outcome.call = some (s.requestCall request))
      (same : SameLedger outcome.sink (s.commitRequest request))

theorem SameLedger_refl (s : OrderedSink) : SameLedger s s := ⟨rfl, rfl, rfl, rfl⟩

/-- Run the gate on a request. -/
def runRequest (s : OrderedSink) (request : Request) (env : SinkEnv) : Outcome :=
  s.runLocked request.trigger request.items request.mode request.operation env

/-- The gate with its bookkeeping of the last full push moved. -/
def marked (s : OrderedSink) (scope batchID : String) : OrderedSink :=
  { s with lastFullScope := scope, lastFullBatchID := batchID }

/-- The course of a call: it closes the gate, finds it closed, stops before it, or is one run of it. -/
inductive Course (s : OrderedSink) (step : SinkStep) (outcome : Outcome) : Prop
  | close (isClose : step.1 = .close) (closes : outcome = { sink := s.close })
  | refused (closed : s.closed = true) (fails : outcome = { sink := s, err := some sinkClosed })
  | stopped (opened : s.closed = false) (none_requested : step.request = none) (nothing : outcome = { sink := s })
  | ran (opened : s.closed = false) (request : Request) (requested : step.request = some request)
      (scope batchID : String) (runs : outcome = (s.marked scope batchID).runRequest request step.2)

theorem runLocked_closed (closed : s.closed = true) (request : Request) (env : SinkEnv) :
    s.runRequest request env = { sink := s, err := some sinkClosed } := by
  rw [runRequest, runLocked, if_pos closed]

/-- On an open gate an operation runs as its rebuilt self, or stops when it may not be rebuilt. -/
theorem pushAllOperation_open (opened : s.closed = false) (operation : RetryOperation) (env : SinkEnv) :
    s.pushAllOperation operation env =
      match resolve operation env with
      | none => { sink := s }
      | some resolved => s.runOperation resolved operation.revalidate env := by
  unfold pushAllOperation resolve
  cases rebuild : operation.revalidate <;> cases valid : env.answer.ok <;> simp [opened]

theorem apply_course (s : OrderedSink) (step : SinkStep) : s.Course step (s.apply step) := by
  obtain ⟨op, env⟩ := step
  cases isClosed : s.closed with
  | true =>
    cases op with
    | close => exact .close rfl rfl
    | push trigger items | pushAll trigger items =>
      exact .refused isClosed (runLocked_closed isClosed ⟨trigger, items, _, none⟩ env)
    | pushAllWithRevalidate trigger items revalidate | pushAllOperation operation => exact .refused isClosed (if_pos isClosed)
  | false =>
    cases op with
    | close => exact .close rfl rfl
    | push trigger items | pushAll trigger items => exact .ran isClosed _ rfl s.lastFullScope s.lastFullBatchID rfl
    | pushAllWithRevalidate trigger items revalidate =>
      simp only [apply, pushAllWithRevalidate, isClosed, Bool.false_eq_true, ↓reduceIte]
      split_ifs with rebuild valid
      · exact .ran isClosed ⟨trigger, env.answer.instances, ⟨true, true, true⟩, none⟩
          (by simp [SinkStep.request, rebuild, valid]) s.lastFullScope s.lastFullBatchID rfl
      · exact .stopped isClosed (by simp [SinkStep.request, rebuild, valid]) rfl
      · exact .ran isClosed ⟨trigger, items, ⟨true, true, false⟩, none⟩
          (by simp [SinkStep.request, rebuild]) s.lastFullScope s.lastFullBatchID rfl
    | pushAllOperation operation =>
      simp only [apply, pushAllOperation_open isClosed]
      cases rebuilt : resolve operation env with
      | none => exact .stopped isClosed (by simp [SinkStep.request, rebuilt]) rfl
      | some resolved =>
        simp only [runOperation]
        split_ifs with empty
        · exact .stopped isClosed (by simp [SinkStep.request, rebuilt, empty]) rfl
        · exact .ran isClosed ⟨resolved.trigger, resolved.instances,
              ⟨true, destructiveAuthorized resolved, operation.revalidate⟩, some resolved⟩
            (by simp [SinkStep.request, rebuilt, empty]) resolved.scope resolved.batchID rfl

/-- A request that passes the gate is decided by the wrapped sink alone. -/
theorem runRequest_of_passes (scope batchID : String) (env : SinkEnv) (passes : s.PassesRequest request) :
    (s.marked scope batchID).runRequest request env =
      match env.inner (s.requestCall request) with
      | some err => { sink := s.marked scope batchID, call := some (s.requestCall request), err := some err }
      | none => { sink := (s.commitRequest request).marked scope batchID, call := some (s.requestCall request) } :=
  runLocked_of_passes (s := s.marked scope batchID) request.operation env passes

theorem apply_effect (s : OrderedSink) (step : SinkStep) : s.Effect step (s.apply step) := by
  have stopped : ∀ gate err, SameLedger gate s → s.Effect step { sink := gate, err := err } := fun _ _ same =>
    .kept same (fun both => nomatch both.1) (fun _ reached => nomatch reached)
  cases s.apply_course step with
  | close isClose closes =>
    rw [closes]
    exact .closed isClose rfl rfl
  | refused closed fails =>
    rw [fails]
    exact stopped s _ (SameLedger_refl s)
  | stopped opened none_requested nothing =>
    rw [nothing]
    exact stopped s _ (SameLedger_refl s)
  | ran opened request requested scope batchID runs =>
    rw [runs]
    by_cases passes : s.PassesRequest request
    · rw [runRequest_of_passes scope batchID step.2 passes]
      cases step.2.inner (s.requestCall request) with
      | some err =>
        refine .kept ⟨rfl, rfl, rfl, rfl⟩ (fun both => nomatch both.2) ?_
        intro call reached
        exact ⟨request, requested, passes, (Option.some.inj reached).symm⟩
      | none => exact .committed request requested passes rfl rfl ⟨rfl, rfl, rfl, rfl⟩
    · obtain ⟨err, ran⟩ : ∃ err, (s.marked scope batchID).runRequest request step.2 = { sink := s.marked scope batchID, err := err } :=
        runLocked_of_not_passes request.operation step.2 passes
      rw [ran]
      exact stopped _ err ⟨rfl, rfl, rfl, rfl⟩

/-- A request that passes the gate is recorded when the wrapped sink acknowledges everything. -/
theorem apply_of_acknowledging (requested : step.request = some request) (passes : s.PassesRequest request)
    (acknowledges : ∀ call, step.2.inner call = none) :
    (s.apply step).err = none ∧ (s.apply step).call = some (s.requestCall request) ∧
      SameLedger (s.apply step).sink (s.commitRequest request) := by
  cases s.apply_course step with
  | close isClose =>
    obtain ⟨op, env⟩ := step
    cases isClose
    cases requested
  | refused closed =>
    have opened : s.closed = false := passes.1
    rw [closed] at opened
    cases opened
  | stopped _ none_requested =>
    rw [requested] at none_requested
    cases none_requested
  | ran _ other otherRequested scope batchID runs =>
    rw [requested] at otherRequested
    cases otherRequested
    rw [runs, runRequest_of_passes scope batchID step.2 passes, acknowledges]
    exact ⟨rfl, rfl, rfl, rfl, rfl, rfl⟩

/-- The wrapped sink receives exactly the surviving items. -/
theorem requestCall_items (s : OrderedSink) (request : Request) :
    (s.requestCall request).items = survivors s.latest request.mode request.trigger request.items := by
  unfold requestCall innerCall
  cases request.operation with
  | none => split_ifs <;> rfl
  | some operation =>
    split_ifs
    · simp [InnerCall.items, List.reduceOption, List.filterMap_map]
    · rfl
    · rfl

/-! ## The ledger after an acknowledged call -/

/-- The entry a trusted complete snapshot leaves for an identity it may have omitted. -/
def keptEntry (s : OrderedSink) (request : Request) (key : String) (state : IdentityRevision) : IdentityRevision :=
  if (request.mode.full && request.mode.trustedComplete) = true then
    if state.tombstone ∨ (operationScope request.operation ≠ "" ∧ s.scopeOf key ≠ operationScope request.operation) ∨
        key ∈ keysOf request.items then state
    else ⟨state.revision, true⟩
  else state

theorem commitRequest_lookup (s : OrderedSink) (request : Request) (key : String) : (s.commitRequest request).latest.lookup key =
      ((record request.trigger ∅ (survivors s.latest request.mode request.trigger request.items)).lookup key).or
        ((s.latest.lookup key).map (s.keptEntry request key)) := by
  simp only [commitRequest, commit, FiniteMap.lookup_union]
  congr 1
  by_cases trusted : (request.mode.full && request.mode.trustedComplete) = true
  · have full : request.mode.full = true := (Bool.and_eq_true_iff.mp trusted).1
    rw [if_pos trusted, tombstoneOmitted, FiniteMap.lookup_mapValues]
    congr 1
    funext state
    rw [keptEntry, if_pos trusted]
    simp only [admissionOf, full, ↓reduceIte, List.mem_toFinset]
  · have unchanged : s.keptEntry request key = id := by
      funext state
      rw [keptEntry, if_neg trusted, id]
    rw [if_neg trusted, unchanged, Option.map_id, id]

/-- An identity no surviving item names keeps its revision, and its tombstone once it has one. -/
theorem commitRequest_lookup_of_absent
    (absent : ∀ item ∈ survivors s.latest request.mode request.trigger request.items, identityKey item ≠ key) :
    (s.commitRequest request).latest.lookup key = (s.latest.lookup key).map (s.keptEntry request key) := by
  rw [commitRequest_lookup, record_empty_eq_none.mpr absent, Option.none_or]

/-- After an acknowledged call an entry is either an item's of this call, or an older one, at the
same revision and still a tombstone if it was one. -/
theorem commitRequest_entry {entry : IdentityRevision} (found : (s.commitRequest request).latest.lookup key = some entry) :
    (∃ item ∈ survivors s.latest request.mode request.trigger request.items,
      identityKey item = key ∧ entryOf request.trigger item = entry) ∨
    ∃ old, s.latest.lookup key = some old ∧ entry.revision = old.revision ∧
      (old.tombstone = true → entry.tombstone = true) := by
  rw [commitRequest_lookup, Option.or_eq_some_iff] at found
  rcases found with new | ⟨_, older⟩
  · exact .inl (record_empty_lookup new)
  · obtain ⟨old, present, rfl⟩ := Option.map_eq_some_iff.mp older
    refine .inr ⟨old, present, ?_, ?_⟩
    · unfold keptEntry
      split_ifs <;> rfl
    · intro gone
      unfold keptEntry
      split_ifs <;> simp [gone]

end OrderedSink

end Spotter.Worker
