import Spotter.Nacos.Batches

/-! # The batches partition the snapshot

The index of every item with an operation is in exactly one batch and no other index is in any. The batches of one key, one
after the other, have the items of that key in the order of the snapshot.
-/

namespace Spotter.Nacos

open Library Domain

/-- The key of the batch that an item belongs to; a nil item and an item of unknown status have none. -/
def batchKeyOf (item : Option Instance) : Option BatchKey :=
  item.bind fun ins => (persistentBatchOperation ins.status).map fun operation => ⟨clusterKeyOf ins, operation⟩

/-- The limit that the split uses for a given one. -/
def effectiveBatchLimit (maxItems : ℤ) : ℕ :=
  if maxItems < 1 then 1 else if (maxPersistentBatchSize : ℤ) < maxItems then maxPersistentBatchSize else maxItems.toNat

theorem effectiveBatchLimit_eq (maxItems : ℤ) :
    max 1 (min maxItems.toNat maxPersistentBatchSize) = effectiveBatchLimit maxItems := by
  rw [effectiveBatchLimit]
  have size : maxPersistentBatchSize = 100 := rfl
  split_ifs <;> omega

namespace BatchSplit

/-- An item joins the batch at a position. -/
def join (split : BatchSplit) (position : ℕ) (ins : Instance) (index : ℕ) : BatchSplit :=
  { split with
    batches := split.batches.modify position fun batch =>
      { batch with items := batch.items ++ [ins], indexes := batch.indexes ++ [index] } }

/-- An item opens a new batch of its key. -/
def opened (split : BatchSplit) (key : BatchKey) (ins : Instance) (index : ℕ) : BatchSplit :=
  { batches := split.batches ++ [⟨key, [ins], [index]⟩]
    lastByKey := split.lastByKey.insert key split.batches.length }

/-- What becomes of an item: it has no key and is left out, joins the last batch of its key, or opens a batch. -/
inductive Adds (maxItems : ℕ) (split : BatchSplit) : Option Instance × ℕ → BatchSplit → Prop where
  | skips {item : Option Instance} (index : ℕ) (none : batchKeyOf item = none) : Adds maxItems split (item, index) split
  | joins {ins : Instance} {key : BatchKey} {position : ℕ} (index : ℕ) (own : batchKeyOf (some ins) = some key)
      (room : split.room maxItems key = some position) :
      Adds maxItems split (some ins, index) (split.join position ins index)
  | opens {ins : Instance} {key : BatchKey} (index : ℕ) (own : batchKeyOf (some ins) = some key) :
      Adds maxItems split (some ins, index) (split.opened key ins index)

theorem add_adds (maxItems : ℕ) (split : BatchSplit) (item : Option Instance × ℕ) :
    Adds maxItems split item (split.add maxItems item) := by
  obtain ⟨item, index⟩ := item
  cases item with
  | none => exact .skips index rfl
  | some ins =>
    simp only [BatchSplit.add]
    cases operation : persistentBatchOperation ins.status with
    | none =>
      refine .skips index ?_
      rw [batchKeyOf, Option.bind_some, operation, Option.map_none]
    | some operation' =>
      have own : batchKeyOf (some ins) = some ⟨clusterKeyOf ins, operation'⟩ := by
        rw [batchKeyOf, Option.bind_some, operation, Option.map_some]
      simp only
      cases room : split.room maxItems ⟨clusterKeyOf ins, operation'⟩ with
      | none => exact .opens index own
      | some position => exact .joins index own room

/-- The items of a batch are those at its indexes, all of its key. -/
def Aligned (items : List (Option Instance × ℕ)) (batch : PersistentBatch) : Prop :=
  List.Forall₂ (fun ins index => (some ins, index) ∈ items ∧ batchKeyOf (some ins) = some batch.key) batch.items batch.indexes

theorem Aligned.append {batch : PersistentBatch} {items : List (Option Instance × ℕ)} (aligned : Aligned items batch) (more : List (Option Instance × ℕ)) :
    Aligned (items ++ more) batch :=
  List.Forall₂.imp (fun _ _ both => ⟨List.mem_append_left _ both.1, both.2⟩) aligned

/-- What the split keeps of the items so far. -/
structure Partitions (maxItems : ℕ) (items : List (Option Instance × ℕ)) (split : BatchSplit) : Prop where
  /-- The batches have the indexes of the items with a key. -/
  whole : (split.batches.flatMap PersistentBatch.indexes).Perm
    ((items.filter fun item => (batchKeyOf item.1).isSome).map Prod.snd)
  /-- The batches of a key have its items in their order. -/
  ordered : ∀ key, (split.batches.filter fun batch => decide (batch.key = key)).flatMap PersistentBatch.indexes =
    (items.filter fun item => decide (batchKeyOf item.1 = some key)).map Prod.snd
  aligned : ∀ batch ∈ split.batches, Aligned items batch
  bounded : ∀ batch ∈ split.batches, batch.items.length ≤ maxItems
  last : ∀ key position, split.lastByKey.lookup key = some position →
    (split.batches.map PersistentBatch.key)[position]? = some key ∧
      ∀ later, position < later → (split.batches.map PersistentBatch.key)[later]? ≠ some key

namespace Partitions

variable {maxItems : ℕ} {items : List (Option Instance × ℕ)} {split : BatchSplit} {ins : Instance} {key : BatchKey}

theorem nil (maxItems : ℕ) : Partitions maxItems [] {} := by
  refine ⟨.refl _, fun _ => rfl, List.forall_mem_nil _, List.forall_mem_nil _, ?_⟩
  intro key position found
  rw [Finmap.lookup_empty] at found
  cases found

theorem skips (partitions : Partitions maxItems items split) {item : Option Instance} (none : batchKeyOf item = none) (index : ℕ) :
    Partitions maxItems (items ++ [(item, index)]) split := by
  refine ⟨?_, fun key => ?_, fun batch member => (partitions.aligned batch member).append _, partitions.bounded, partitions.last⟩
  · simpa [none] using partitions.whole
  · simpa [none] using partitions.ordered key

/-- The keys and indexes of a filter once an item of a key is added. -/
theorem keyed_append (own : batchKeyOf (some ins) = some key) (index : ℕ) (other : BatchKey) :
    ((items ++ [(some ins, index)]).filter fun item => decide (batchKeyOf item.1 = some other)).map Prod.snd =
      (items.filter fun item => decide (batchKeyOf item.1 = some other)).map Prod.snd ++ if key = other then [index] else [] := by
  by_cases same : key = other <;> simp [List.filter_append, own, same]

theorem opens (partitions : Partitions maxItems items split) (positive : 0 < maxItems) (own : batchKeyOf (some ins) = some key)
    (index : ℕ) : Partitions maxItems (items ++ [(some ins, index)]) (split.opened key ins index) := by
  refine ⟨?_, fun other => ?_, ?_, ?_, ?_⟩
  · simpa [opened, own] using partitions.whole.append_right [index]
  · rw [keyed_append own, ← partitions.ordered other, opened, List.filter_append, List.flatMap_append]
    by_cases same : key = other <;> simp [same]
  · intro batch member
    rcases List.mem_append.mp member with before | new
    · exact (partitions.aligned batch before).append _
    · cases List.mem_singleton.mp new
      exact .cons ⟨List.mem_append_right _ List.mem_cons_self, own⟩ .nil
  · intro batch member
    rcases List.mem_append.mp member with before | new
    · exact partitions.bounded batch before
    · cases List.mem_singleton.mp new
      exact positive
  · have keys : (split.opened key ins index).batches.map PersistentBatch.key = split.batches.map PersistentBatch.key ++ [key] := by
      rw [opened, List.map_append, List.map_singleton]
    have length : split.batches.length = (split.batches.map PersistentBatch.key).length := by
      rw [List.length_map]
    intro other position found
    rw [keys]
    rcases FiniteMap.lookup_insert_eq_some_iff.mp found with ⟨rfl, rfl⟩ | ⟨apart, before⟩
    · rw [length]
      refine ⟨List.getElem?_concat_length, fun later behind => ?_⟩
      rw [List.getElem?_eq_none (by rw [List.length_append, List.length_singleton]; exact behind)]
      exact (Option.some_ne_none _).symm
    · obtain ⟨here, latest⟩ := partitions.last other position before
      refine ⟨?_, fun later behind at_ => ?_⟩
      · rw [List.getElem?_append_left (List.getElem?_eq_some_iff.mp here).1]
        exact here
      · rw [List.getElem?_append] at at_
        split_ifs at at_ with old
        · exact latest later behind at_
        · obtain rfl := List.mem_singleton.mp (List.mem_of_getElem? at_)
          exact apart rfl

variable {position : ℕ}

theorem room_eq_some (room : split.room maxItems key = some position) : split.lastByKey.lookup key = some position :=
  (Option.filter_eq_some_iff.mp room).1

/-- The last batch of a key, with the batches before and behind it. -/
theorem last_parts (partitions : Partitions maxItems items split) (found : split.lastByKey.lookup key = some position) :
    ∃ before batch behind, split.batches = before ++ batch :: behind ∧ before.length = position ∧ batch.key = key ∧
      ∀ later ∈ behind, later.key ≠ key := by
  obtain ⟨here, latest⟩ := partitions.last key position found
  rw [List.getElem?_map, Option.map_eq_some_iff] at here
  obtain ⟨batch, at_, keyed⟩ := here
  obtain ⟨bound, rfl⟩ := List.getElem?_eq_some_iff.mp at_
  refine ⟨split.batches.take position, _, split.batches.drop (position + 1), ?_, List.length_take_of_le bound.le, keyed, ?_⟩
  · rw [← List.drop_eq_getElem_cons bound, List.take_append_drop]
  · intro later member same
    obtain ⟨distance, behind⟩ := List.mem_iff_getElem?.mp member
    rw [List.getElem?_drop] at behind
    refine latest (position + 1 + distance) (by omega) ?_
    rw [List.getElem?_map, behind, Option.map_some, same]

theorem modify_at {α : Type*} (before : List α) (at_ : α) (behind : List α) (f : α → α) :
    (before ++ at_ :: behind).modify before.length f = before ++ f at_ :: behind := by
  induction before with
  | nil => rfl
  | cons first before ih => rw [List.cons_append, List.length_cons, List.modify_succ_cons, ih, List.cons_append]

theorem joins (partitions : Partitions maxItems items split) (own : batchKeyOf (some ins) = some key)
    (room : split.room maxItems key = some position) (index : ℕ) :
    Partitions maxItems (items ++ [(some ins, index)]) (split.join position ins index) := by
  obtain ⟨before, batch, behind, parts, rfl, keyed, latest⟩ := partitions.last_parts (room_eq_some room)
  have short : batch.items.length < maxItems := by
    have fits := (Option.filter_eq_some_iff.mp room).2
    rw [parts, List.getElem?_append_right (Nat.le_refl _), Nat.sub_self] at fits
    simpa using fits
  have joined : (split.join before.length ins index).batches =
      before ++ { batch with items := batch.items ++ [ins], indexes := batch.indexes ++ [index] } :: behind := by
    rw [join, parts]
    exact modify_at _ _ _ _
  have whole := partitions.whole
  have ordered := partitions.ordered
  have aligned := partitions.aligned
  have bounded := partitions.bounded
  rw [parts] at whole aligned bounded
  simp only [parts] at ordered
  have nothing : behind.filter (fun later => decide (later.key = key)) = [] := by
    rw [List.filter_eq_nil_iff]
    exact fun later member => by simpa using latest later member
  refine ⟨?_, fun other => ?_, ?_, ?_, ?_⟩
  · rw [joined]
    simp only [List.filter_append, List.map_append, List.filter_cons, own, Option.isSome_some, ↓reduceIte, List.filter_nil,
      List.map_cons, List.map_nil]
    refine .trans ?_ (whole.append_right [index])
    simp only [List.flatMap_append, List.flatMap_cons, List.append_assoc]
    exact (List.perm_append_comm).append_left _ |>.append_left _
  · rw [keyed_append own, ← ordered other, joined]
    rcases eq_or_ne key other with rfl | same
    · simp [List.filter_append, keyed, nothing]
    · have apart : ¬ batch.key = other := fun equal => same (keyed.symm.trans equal)
      simp [List.filter_append, apart, same]
  · rw [joined]
    intro other member
    rcases List.mem_append.mp member with front | rest
    · exact (aligned other (List.mem_append_left _ front)).append _
    · rcases List.mem_cons.mp rest with rfl | later
      · have earlier := (aligned batch (List.mem_append_right _ List.mem_cons_self)).append [(some ins, index)]
        exact List.rel_append earlier (.cons ⟨List.mem_append_right _ List.mem_cons_self, keyed.symm ▸ own⟩ .nil)
      · exact (aligned other (List.mem_append_right _ (List.mem_cons_of_mem _ later))).append _
  · rw [joined]
    intro other member
    rcases List.mem_append.mp member with front | rest
    · exact bounded other (List.mem_append_left _ front)
    · rcases List.mem_cons.mp rest with rfl | later
      · rw [List.length_append, List.length_singleton]
        exact short
      · exact bounded other (List.mem_append_right _ (List.mem_cons_of_mem _ later))
  · -- The batches keep their places and keys.
    have keys : (split.join before.length ins index).batches.map PersistentBatch.key = split.batches.map PersistentBatch.key := by
      rw [joined, parts, List.map_append, List.map_append, List.map_cons, List.map_cons]
    rw [keys]
    exact partitions.last

theorem adds (partitions : Partitions maxItems items split) (positive : 0 < maxItems) (item : Option Instance × ℕ) :
    Partitions maxItems (items ++ [item]) (split.add maxItems item) := by
  have added := add_adds maxItems split item
  generalize split.add maxItems item = next at added
  cases added with
  | skips index none => exact partitions.skips none index
  | joins index own room => exact partitions.joins own room index
  | opens index own => exact partitions.opens positive own index

end Partitions

theorem partitions_foldl {maxItems : ℕ} (positive : 0 < maxItems) (items : List (Option Instance × ℕ)) :
    Partitions maxItems items (items.foldl (BatchSplit.add maxItems) {}) := by
  induction items using List.reverseRecOn with
  | nil => exact .nil maxItems
  | append_singleton items item ih =>
    rw [List.foldl_append]
    exact ih.adds positive item

end BatchSplit

/-- The places of a list whose entry passes a test. -/
theorem filter_zipIdx {α : Type*} (entries : List α) (test : α → Bool) :
    (entries.zipIdx.filter fun entry => test entry.1).map Prod.snd =
      (List.range entries.length).filter fun i => entries[i]?.any test := by
  induction entries using List.reverseRecOn with
  | nil => rfl
  | append_singleton entries last ih =>
    rw [List.zipIdx_append, List.filter_append, List.map_append, ih, List.length_append, List.length_singleton, List.range_succ,
      List.filter_append]
    congr 1
    · refine List.filter_congr fun i place => ?_
      rw [List.getElem?_append_left (List.mem_range.mp place)]
    · cases passed : test last <;> simp [passed]

/-- The indexes of the items that some batch of the split has to take. -/
def admitted (snapshot : Instances) : List ℕ :=
  (List.range snapshot.length).filter fun i => snapshot[i]?.any fun item => (batchKeyOf item).isSome

/-- The indexes of the items of a key. -/
def indexesOf (snapshot : Instances) (key : BatchKey) : List ℕ :=
  (List.range snapshot.length).filter fun i => snapshot[i]?.any fun item => decide (batchKeyOf item = some key)

section Split

variable (snapshot : Instances) (maxItems : ℤ)

theorem split_partitions : BatchSplit.Partitions (effectiveBatchLimit maxItems) snapshot.zipIdx
    (snapshot.zipIdx.foldl (BatchSplit.add (effectiveBatchLimit maxItems)) {}) := by
  refine BatchSplit.partitions_foldl ?_ _
  rw [← effectiveBatchLimit_eq]
  exact Nat.le_max_left 1 _

theorem split_eq : splitPersistentBatchesForScope snapshot maxItems.toNat =
    (snapshot.zipIdx.foldl (BatchSplit.add (effectiveBatchLimit maxItems)) {}).batches := by
  rw [splitPersistentBatchesForScope, effectiveBatchLimit_eq]

/-- The batches have the admitted indexes, each once. -/
theorem split_indexes_perm :
    ((splitPersistentBatchesForScope snapshot maxItems.toNat).flatMap PersistentBatch.indexes).Perm (admitted snapshot) := by
  rw [split_eq, admitted, ← filter_zipIdx snapshot fun item => (batchKeyOf item).isSome]
  exact (split_partitions snapshot maxItems).whole

theorem split_indexesOf (key : BatchKey) :
    ((splitPersistentBatchesForScope snapshot maxItems.toNat).filter fun batch => decide (batch.key = key)).flatMap
      PersistentBatch.indexes = indexesOf snapshot key := by
  rw [split_eq, indexesOf, ← filter_zipIdx snapshot fun item => decide (batchKeyOf item = some key)]
  exact (split_partitions snapshot maxItems).ordered key

variable {snapshot maxItems} {batch : PersistentBatch}

section

variable (member : batch ∈ splitPersistentBatchesForScope snapshot maxItems.toNat)

include member

theorem split_bounded :
    batch.items.length ≤ effectiveBatchLimit maxItems := by
  rw [split_eq] at member
  exact (split_partitions snapshot maxItems).bounded batch member

/-- The items of a batch stand at its indexes in the snapshot and have its key. -/
theorem split_aligned :
    List.Forall₂ (fun ins index => snapshot[index]? = some (some ins) ∧ batchKeyOf (some ins) = some batch.key)
      batch.items batch.indexes := by
  rw [split_eq] at member
  refine List.Forall₂.imp ?_ ((split_partitions snapshot maxItems).aligned batch member)
  exact fun ins index both => ⟨List.mem_zipIdx_iff_getElem?.mp both.1, both.2⟩

end

end Split

variable {index : ℕ}

/-- A batch of a key has an index exactly if the item there is of that key. -/
theorem exists_batch_iff {snapshot : Instances} {maxItems : ℕ} {key : BatchKey} :
    (∃ batch ∈ splitPersistentBatchesForScope snapshot maxItems, batch.key = key ∧ index ∈ batch.indexes) ↔
      ∃ item, snapshot[index]? = some item ∧ batchKeyOf item = some key := by
  have listed := split_indexesOf snapshot maxItems key
  rw [Int.toNat_natCast] at listed
  have among := congrArg (index ∈ ·) listed
  simp only [List.mem_flatMap, List.mem_filter, decide_eq_true_eq, and_assoc, indexesOf, List.mem_range, Option.any_eq_true,
    eq_iff_iff] at among
  rw [among, and_iff_right_iff_imp]
  rintro ⟨item, here, _⟩
  exact (List.getElem?_eq_some_iff.mp here).1

/-- The number of the batch that an item of the snapshot is in, and the key of that batch. -/
theorem batch_of_item {snapshot : Instances} {ins : Instance} {operation : BatchOperation}
    (maxItems : ℕ) (member : (some ins, index) ∈ snapshot.zipIdx) (known : persistentBatchOperation ins.status = some operation) :
    ∃ batch, (splitPersistentBatchesForScope snapshot maxItems)[(splitPersistentBatchesForScope snapshot maxItems).findIdx
        fun batch => decide (index ∈ batch.indexes)]? = some batch ∧ batch.key = ⟨clusterKeyOf ins, operation⟩ := by
  have here := List.mem_zipIdx_iff_getElem?.mp member
  have own : batchKeyOf (some ins) = some ⟨clusterKeyOf ins, operation⟩ := by
    rw [batchKeyOf, Option.bind_some, known, Option.map_some]
  obtain ⟨batch, listed, _, among⟩ := exists_batch_iff.mpr ⟨some ins, here, own⟩
  have bound : (splitPersistentBatchesForScope snapshot maxItems).findIdx (fun batch => decide (index ∈ batch.indexes)) <
      (splitPersistentBatchesForScope snapshot maxItems).length :=
    List.findIdx_lt_length.mpr ⟨batch, listed, decide_eq_true among⟩
  refine ⟨_, List.getElem?_eq_getElem bound, ?_⟩
  obtain ⟨item, there, keyed⟩ :=
    exists_batch_iff.mp ⟨_, List.getElem_mem bound, rfl, of_decide_eq_true (List.findIdx_getElem (w := bound))⟩
  cases there.symm.trans here
  exact Option.some.inj (keyed.symm.trans own)

theorem admitted_nodup (snapshot : Instances) : (admitted snapshot).Nodup := List.nodup_range.filter _

theorem mem_admitted {snapshot : Instances} :
    index ∈ admitted snapshot ↔ ∃ ins, snapshot[index]? = some (some ins) ∧ (persistentBatchOperation ins.status).isSome = true := by
  rw [admitted, List.mem_filter, List.mem_range]
  constructor
  · rintro ⟨_, keyed⟩
    rw [Option.any_eq_true] at keyed
    obtain ⟨item, here, some⟩ := keyed
    cases item with
    | none => cases some
    | some ins =>
      rw [batchKeyOf, Option.bind_some, Option.isSome_map] at some
      exact ⟨ins, here, some⟩
  · rintro ⟨ins, here, operation⟩
    refine ⟨(List.getElem?_eq_some_iff.mp here).1, ?_⟩
    rw [here, Option.any_some, batchKeyOf, Option.bind_some, Option.isSome_map]
    exact operation

end Spotter.Nacos
