import Spotter.Nacos.BatchPush

/-! # The counters of a full push

The counters are added up from independent passes: over the batches before anything is written, and over the errors of the
snapshot's indexes afterwards. They agree since the batches partition the snapshot, and since a register that is skipped for
want of an address ends without an error on either branch.
-/

namespace Spotter.Nacos

open Library Domain Ports

/-- The counts of the passes. -/
structure BatchTally where
  admittedItems : ℕ
  skippedItems : ℕ
  succeeded : ℕ
  transientFailed : ℕ
  permanentFailed : ℕ

/-- What a full push adds to the sink's counters. -/
structure BatchMetrics where
  logicalBatches : UInt64 := 0
  items : UInt64 := 0
  attemptedItems : UInt64 := 0
  succeededItems : UInt64 := 0
  skippedItems : UInt64 := 0
  transientFailedItems : UInt64 := 0
  permanentFailedItems : UInt64 := 0
deriving DecidableEq

/-- The registers of a batch that are skipped for want of an address. -/
def PersistentBatch.skipped (batch : PersistentBatch) : ℕ :=
  if batch.key.operation = .register then batch.items.countP fun item => decide (item.ip = "") else 0

variable (batches : List PersistentBatch)

/-- The index is in some batch. -/
def batchIndexPresent (index : ℕ) : Bool := batches.any fun batch => decide (index ∈ batch.indexes)

variable (errs : ℕ → Option GoError)

/-- The present indexes of a snapshot whose item ended with the given outcome. -/
def countOutcome (size : ℕ) (outcome : ItemOutcome) : ℕ :=
  (List.range size).countP fun index => batchIndexPresent batches index && decide (outcomeOf (errs index) = outcome)

def batchTally (size : ℕ) : BatchTally where
  admittedItems := (batches.map fun batch => batch.items.length).sum
  skippedItems := (batches.map PersistentBatch.skipped).sum
  succeeded := countOutcome batches errs size .succeeded
  transientFailed := countOutcome batches errs size .transient
  permanentFailed := countOutcome batches errs size .permanent

/-- What `pushPersistentBatches` adds to the counters; without batches it returns before it counts. -/
def batchMetrics (size : ℕ) : BatchMetrics :=
  if batches.isEmpty then {}
  else
    let tally := batchTally batches errs size
    { logicalBatches := UInt64.ofNat batches.length
      items := batches.foldl (fun total batch => total + UInt64.ofNat batch.items.length) 0
      attemptedItems := UInt64.ofInt (tally.admittedItems - tally.skippedItems)
      succeededItems := UInt64.ofNat tally.succeeded - UInt64.ofNat tally.skippedItems
      skippedItems := UInt64.ofNat tally.skippedItems
      transientFailedItems := UInt64.ofNat tally.transientFailed
      permanentFailedItems := UInt64.ofNat tally.permanentFailed }

/-! ## What is counted -/

/-- The index holds a register that is skipped for want of an address. -/
def skipsAt (snapshot : Instances) (index : ℕ) : Bool :=
  snapshot[index]?.join.any fun ins => decide (persistentBatchOperation ins.status = some .register ∧ ins.ip = "")

/-- The admitted items whose `pushOne` ends with the given outcome. -/
def countItems (config : WriteConfig) (o : Outcomes) (snapshot : Instances) (outcome : ItemOutcome) : ℕ :=
  (admitted snapshot).countP fun index =>
    snapshot[index]?.join.any fun ins => decide (outcomeOf (pushOne config o index ins).err = outcome)

/-- The counts of what `pushOne` does with each admitted item. -/
def itemTally (config : WriteConfig) (o : Outcomes) (snapshot : Instances) : BatchTally where
  admittedItems := (admitted snapshot).length
  skippedItems := (admitted snapshot).countP (skipsAt snapshot)
  succeeded := countItems config o snapshot .succeeded
  transientFailed := countItems config o snapshot .transient
  permanentFailed := countItems config o snapshot .permanent

/-- The counters of a tally, whose differences are those of natural numbers. -/
def exactMetrics (batches : ℕ) (tally : BatchTally) : BatchMetrics where
  logicalBatches := UInt64.ofNat batches
  items := UInt64.ofNat tally.admittedItems
  attemptedItems := UInt64.ofNat (tally.admittedItems - tally.skippedItems)
  succeededItems := UInt64.ofNat (tally.succeeded - tally.skippedItems)
  skippedItems := UInt64.ofNat tally.skippedItems
  transientFailedItems := UInt64.ofNat tally.transientFailed
  permanentFailedItems := UInt64.ofNat tally.permanentFailed

section Counts

variable {snapshot : Instances} {batches : List PersistentBatch} {errs : ℕ → Option GoError}

theorem batchIndexPresent_iff {index : ℕ} : batchIndexPresent batches index = true ↔ index ∈ batches.flatMap PersistentBatch.indexes := by
  simp [batchIndexPresent, List.mem_flatMap]

/-- Each present index has one of the three outcomes. -/
theorem countOutcome_add (size : ℕ) : countOutcome batches errs size .succeeded + countOutcome batches errs size .transient +
        countOutcome batches errs size .permanent = (List.range size).countP (batchIndexPresent batches) := by
  simp only [countOutcome]
  induction List.range size with
  | nil => rfl
  | cons index rest ih =>
    simp only [List.countP_cons]
    cases present : batchIndexPresent batches index with
    | false => simpa [present] using ih
    | true =>
      cases outcomeOf (errs index) <;> simp <;> omega

theorem admittedItems_eq (level : ∀ batch ∈ batches, batch.items.length = batch.indexes.length) :
    (batches.map fun batch => batch.items.length).sum = (batches.flatMap PersistentBatch.indexes).length := by
  rw [List.length_flatMap]
  exact congrArg List.sum (List.map_congr_left level)

/-- The indexes that are present are the admitted ones. -/
theorem countP_present (partition : (batches.flatMap PersistentBatch.indexes).Perm (admitted snapshot)) :
    (List.range snapshot.length).countP (batchIndexPresent batches) = (admitted snapshot).length := by
  rw [List.countP_eq_length_filter, admitted]
  congr 1
  refine List.filter_congr fun index place => ?_
  rw [Bool.eq_iff_iff, batchIndexPresent_iff, partition.mem_iff, admitted, List.mem_filter, and_iff_right place]

end Counts

section Push

variable (config : WriteConfig) (o : Outcomes) {snapshot : Instances} {order : List PersistentBatch}

/-- The batches of a full push. -/
def pushBatches (snapshot : Instances) : List PersistentBatch :=
  splitPersistentBatchesForScope snapshot maxPersistentBatchSize

theorem pushBatches_aligned {batch : PersistentBatch} (member : batch ∈ pushBatches snapshot) :
    List.Forall₂ (fun ins index => snapshot[index]? = some (some ins) ∧ batchKeyOf (some ins) = some batch.key)
      batch.items batch.indexes := by
  have listed : batch ∈ splitPersistentBatchesForScope snapshot (maxPersistentBatchSize : ℤ).toNat := member
  exact split_aligned listed

variable (snapshot) in
theorem pushBatches_partition : ((pushBatches snapshot).flatMap PersistentBatch.indexes).Perm (admitted snapshot) :=
  split_indexes_perm snapshot maxPersistentBatchSize

/-- The admitted items are those that succeeded and those that failed in one way or the other. -/
theorem admitted_eq_outcomes (snapshot : Instances) (errs : ℕ → Option GoError) :
    let tally := batchTally (pushBatches snapshot) errs snapshot.length
    tally.admittedItems = tally.succeeded + tally.transientFailed + tally.permanentFailed := by
  have partition := pushBatches_partition snapshot
  simp only [batchTally]
  rw [countOutcome_add, countP_present partition, admittedItems_eq fun _ member => (pushBatches_aligned member).length_eq,
    partition.length_eq]

theorem countP_aligned {R : Instance → ℕ → Prop} {items : List Instance} {indexes : List ℕ} {p : Instance → Bool} {q : ℕ → Bool}
    (aligned : List.Forall₂ R items indexes) (same : ∀ ins index, R ins index → q index = p ins) :
    indexes.countP q = items.countP p := by
  induction aligned with
  | nil => rfl
  | cons own _ ih => rw [List.countP_cons, List.countP_cons, ih, same _ _ own]

/-- The skipped items of a batch are at the indexes that hold such a register. -/
theorem countP_skipsAt {batch : PersistentBatch} (member : batch ∈ pushBatches snapshot) :
    batch.indexes.countP (skipsAt snapshot) = batch.skipped := by
  have each : batch.indexes.countP (skipsAt snapshot) =
      batch.items.countP fun ins => decide (batch.key.operation = .register ∧ ins.ip = "") := by
    refine countP_aligned (pushBatches_aligned member) ?_
    rintro ins index ⟨item, key⟩
    rw [batchKeyOf, Option.bind_some, Option.map_eq_some_iff] at key
    obtain ⟨operation, known, same⟩ := key
    simp [skipsAt, item, known, ← same]
  rw [each, PersistentBatch.skipped]
  split_ifs with register
  · simp [register]
  · simp [register]

theorem skippedItems_eq (snapshot : Instances) :
    ((pushBatches snapshot).map PersistentBatch.skipped).sum = (admitted snapshot).countP (skipsAt snapshot) := by
  rw [← (pushBatches_partition snapshot).countP_eq, List.countP_flatMap]
  exact congrArg List.sum (List.map_congr_left fun batch member => (countP_skipsAt member).symm)

/-- Every skipped register ends without an error. -/
theorem skipped_le_succeeded :
    (itemTally config o snapshot).skippedItems ≤ (itemTally config o snapshot).succeeded := by
  refine List.countP_mono_left fun index among skips => ?_
  obtain ⟨ins, item, _⟩ := mem_admitted.mp among
  simp only [skipsAt, item, Option.join_some, Option.any_some, decide_eq_true_eq] at skips ⊢
  rw [pushOne, if_pos skips.2, if_pos skips.2, ite_self, ite_self]
  rfl

/-- Whatever the order of the batches, the passes count what `pushOne` does with each item. -/
theorem batchTally_eq (arranged : order.Perm (pushBatches snapshot)) :
    batchTally (pushBatches snapshot) (applyBatches config o order).errs snapshot.length = itemTally config o snapshot := by
  have partition := pushBatches_partition snapshot
  have counted : ∀ outcome, countOutcome (pushBatches snapshot) (applyBatches config o order).errs snapshot.length outcome =
      countItems config o snapshot outcome := by
    intro outcome
    rw [countItems, admitted, List.countP_filter]
    refine List.countP_congr fun index place => ?_
    have present : batchIndexPresent (pushBatches snapshot) index = true ↔ index ∈ admitted snapshot :=
      batchIndexPresent_iff.trans partition.mem_iff
    rw [Bool.and_eq_true, Bool.and_eq_true, and_comm, present, admitted, List.mem_filter, and_iff_right place]
    refine and_congr_left fun known => ?_
    obtain ⟨ins, item, known⟩ := mem_admitted.mp (List.mem_filter.mpr ⟨place, known⟩)
    rw [item, (applyBatches_writes config o arranged item known).outcome]
    rfl
  simp only [batchTally, itemTally, counted, skippedItems_eq]
  rw [admittedItems_eq fun _ member => (pushBatches_aligned member).length_eq, partition.length_eq]

end Push

theorem foldl_items (batches : List PersistentBatch) (total : UInt64) :
    batches.foldl (fun total batch => total + UInt64.ofNat batch.items.length) total =
      total + UInt64.ofNat (batches.map fun batch => batch.items.length).sum := by
  induction batches generalizing total with
  | nil => exact (UInt64.add_zero total).symm
  | cons batch rest ih => rw [List.foldl_cons, ih, List.map_cons, List.sum_cons, UInt64.ofNat_add, UInt64.add_assoc]

theorem ofInt_natCast (n : ℕ) : UInt64.ofInt (n : ℤ) = UInt64.ofNat n := by
  have low : ((n : ℤ) % 2 ^ 64).toNat = n % 2 ^ 64 := by omega
  rw [UInt64.ofInt, low]
  exact UInt64.ofNat_mod_size

/-- If no more items are skipped than are admitted and succeed, no difference underflows. -/
theorem batchMetrics_eq {batches : List PersistentBatch} {errs : ℕ → Option GoError} {size : ℕ}
    (admitted : (batchTally batches errs size).skippedItems ≤ (batchTally batches errs size).admittedItems)
    (succeeded : (batchTally batches errs size).skippedItems ≤ (batchTally batches errs size).succeeded) :
    batchMetrics batches errs size = exactMetrics batches.length (batchTally batches errs size) := by
  rw [batchMetrics]
  split_ifs with empty
  · obtain rfl := List.isEmpty_iff.mp empty
    simp [exactMetrics, batchTally, countOutcome, batchIndexPresent]
  · have items : (batches.map fun batch => batch.items.length).sum = (batchTally batches errs size).admittedItems := rfl
    simp only [exactMetrics, foldl_items, items, UInt64.zero_add]
    rw [← Int.ofNat_sub admitted, ofInt_natCast, UInt64.ofNat_sub succeeded]

theorem persistentBatchOperation_isSome_iff {status : ℤ} : (persistentBatchOperation status).isSome = true ↔
      status = instanceStatusOnline ∨ status = instanceStatusUnhealthy ∨ status = instanceStatusOffline := by
  rw [persistentBatchOperation]
  split_ifs with live gone
  · exact iff_of_true rfl (live.imp_right .inl)
  · exact iff_of_true rfl (.inr (.inr gone))
  · refine iff_of_false Bool.false_ne_true ?_
    rintro (online | unhealthy | offline)
    · exact live (.inl online)
    · exact live (.inr unhealthy)
    · exact gone offline

/-- For every snapshot and batch limit: an index is in one batch, once, if it holds an online, unhealthy or offline instance, and
in none otherwise; a batch is within the effective limit, and its items are those at its indexes and have its key; the batches of a
key have the indexes of that key in their order. For every order of the batches of a full push and every outcome of its calls: no
more registers are skipped than items are admitted or succeed, so nothing underflows, the counters balance, and they count what
`pushOne` does with each item. -/
theorem batches_partition_and_balance (snapshot : Instances) (maxItems : ℤ) :
    (∀ index, ((splitPersistentBatchesForScope snapshot maxItems.toNat).flatMap PersistentBatch.indexes).count index ≤ 1 ∧
      (((splitPersistentBatchesForScope snapshot maxItems.toNat).flatMap PersistentBatch.indexes).count index = 1 ↔
        ∃ ins, snapshot[index]? = some (some ins) ∧
          (ins.status = instanceStatusOnline ∨ ins.status = instanceStatusUnhealthy ∨ ins.status = instanceStatusOffline))) ∧
      (∀ batch ∈ splitPersistentBatchesForScope snapshot maxItems.toNat, batch.items.length ≤ effectiveBatchLimit maxItems ∧
        List.Forall₂ (fun ins index => snapshot[index]? = some (some ins) ∧ batchKeyOf (some ins) = some batch.key)
          batch.items batch.indexes) ∧
      (∀ key, ((splitPersistentBatchesForScope snapshot maxItems.toNat).filter fun batch => decide (batch.key = key)).flatMap
        PersistentBatch.indexes = indexesOf snapshot key) ∧
      ∀ config o order, order.Perm (pushBatches snapshot) →
        let tally := batchTally (pushBatches snapshot) (applyBatches config o order).errs snapshot.length
        let added := batchMetrics (pushBatches snapshot) (applyBatches config o order).errs snapshot.length
        tally.skippedItems ≤ tally.admittedItems ∧ tally.skippedItems ≤ tally.succeeded ∧
          added.items = added.attemptedItems + added.skippedItems ∧
          added.attemptedItems = added.succeededItems + added.transientFailedItems + added.permanentFailedItems ∧
          tally = itemTally config o snapshot ∧ added = exactMetrics (pushBatches snapshot).length tally := by
  have partition := split_indexes_perm snapshot maxItems
  have distinct := partition.nodup_iff.mpr (admitted_nodup snapshot)
  refine ⟨fun index => ⟨List.nodup_iff_count_le_one.mp distinct index, ?_⟩, fun batch member => ?_, split_indexesOf snapshot maxItems, ?_⟩
  · have member : index ∈ admitted snapshot ↔ _ := mem_admitted
    simp only [persistentBatchOperation_isSome_iff] at member
    rw [partition.count_eq, (admitted_nodup snapshot).count, ← member]
    split_ifs with present <;> simp [present]
  · exact ⟨split_bounded member, split_aligned member⟩
  · intro config o order arranged
    have counted := batchTally_eq config o arranged
    have outcomes := admitted_eq_outcomes snapshot (applyBatches config o order).errs
    have skipped : (itemTally config o snapshot).skippedItems ≤ _ := skipped_le_succeeded config o
    rw [← counted] at skipped
    have admits := skipped.trans (le_trans (Nat.le_add_right _ _) (Nat.le_add_right _ _)) |>.trans_eq outcomes.symm
    have exactly := batchMetrics_eq admits skipped
    refine ⟨admits, skipped, ?_, ?_, counted, exactly⟩
    all_goals
      simp only [exactly, exactMetrics, ← UInt64.ofNat_add]
      congr 1
      omega

/-- Of two registers one has no address: both are counted, one is skipped and one succeeds. -/
theorem skipped_and_registered_balance :
    let snapshot := [some { webInstance with ip := "" }, some webInstance]
    let errs := (applyBatches idPayloads allDone (pushBatches snapshot)).errs
    let tally := batchTally (pushBatches snapshot) errs 2
    (tally.admittedItems = 2 ∧ tally.skippedItems = 1 ∧ tally.succeeded = 2) ∧ tally.skippedItems ≤ tally.succeeded ∧
      tally = itemTally idPayloads allDone snapshot ∧
      batchMetrics (pushBatches snapshot) errs 2 =
        { logicalBatches := 1, items := 2, attemptedItems := 1, succeededItems := 1, skippedItems := 1 } := by
  obtain ⟨_, skipped, _, _, counted, _⟩ := (batches_partition_and_balance [some { webInstance with ip := "" }, some webInstance] 100).2.2.2
    idPayloads allDone _ (List.Perm.refl _)
  exact ⟨by decide +kernel, skipped, counted, by decide +kernel⟩

end Spotter.Nacos
