import Mathlib.Data.List.ReduceOption
import Spotter.Library.History
import Spotter.Nacos.Steps
import Spotter.Nacos.TwoPhases

/-! # What a full push can touch

A snapshot may mix registrations and deregistrations. While its items are written, every host is an
initial one or an item's, a host that no item addresses stays, and an acknowledged write leaves at most
an item's host behind. The removals then take owned hosts of the pushed wire clusters.
-/

namespace Spotter.Nacos

open Library Domain Ports

/-- An instance of the snapshot that is written with the given operation. -/
def Item (snapshot : Instances) (operation : BatchOperation) (ins : Instance) : Prop :=
  some ins ∈ snapshot ∧ persistentBatchOperation ins.status = some operation

/-- What the thread of an item does. -/
def itemJob : BatchOperation → Instance → Job
  | .register, ins => .register ins
  | .deregister, ins => .deregister ins

/-- What an applied write of an item does to the catalog. -/
def writeItem (config : Config) (catalog : Catalog) : BatchOperation → Instance → Catalog
  | .register, ins => catalog.register (registerParams config.lib config.group ins)
  | .deregister, ins => catalog.deregister (instanceTarget config ins)

/-- An item of the snapshot is in the wire cluster. -/
def Pushes (snapshot : Instances) (cluster : String) : Prop :=
  ∃ ins operation, Item snapshot operation ins ∧ clusterOf ins = cluster

/-- The host is one that an item of the snapshot registers. -/
def WrittenItem (config : Config) (snapshot : Instances) (p : InstanceParams) : Prop :=
  ∃ ins, Item snapshot .register ins ∧ ins.ip ≠ "" ∧ p = registerParams config.lib config.group ins

variable {config : Config} {initial catalog : Catalog} {snapshot : Instances} {ins : Instance}
  {p : InstanceParams} {world : World} {threads : List Thread} {index : ℕ} {answer : Answer} {operation : BatchOperation}

/-! ## The threads of the items -/

theorem itemThread_item {batches : List PersistentBatch} (known : persistentBatchOperation ins.status = some operation) :
    itemThread batches (some ins, index) = some
      { job := itemJob operation ins
        scope := clusterKeyOf ins
        batch := batches.findIdx fun batch => decide (index ∈ batch.indexes) } := by
  simp only [itemThread, Option.bind_some, known, Option.map_some]
  cases operation <;> rfl

/-- A thread of a full push carries out the operation of an item, in the item's batch. -/
theorem thread_item {t : Thread} (member : t ∈ batchThreads snapshot) :
    ∃ ins operation index, (some ins, index) ∈ snapshot.zipIdx ∧ persistentBatchOperation ins.status = some operation ∧ t =
        { job := itemJob operation ins
          scope := clusterKeyOf ins
          batch := (splitPersistentBatchesForScope snapshot maxPersistentBatchSize).findIdx fun batch =>
            decide (index ∈ batch.indexes) } := by
  obtain ⟨⟨item, index⟩, among, made⟩ := List.mem_filterMap.mp member
  cases item with
  | none => cases made
  | some ins =>
    cases known : persistentBatchOperation ins.status with
    | none => simp [itemThread, known] at made
    | some operation =>
      rw [itemThread_item known] at made
      exact ⟨ins, operation, index, among, known, (Option.some.inj made).symm⟩

theorem mem_batchThreads {t : Thread} (member : t ∈ batchThreads snapshot) :
    ∃ ins operation, Item snapshot operation ins ∧ t.job = itemJob operation ins ∧ t.scope = clusterKeyOf ins ∧
      t.phase = .waiting := by
  obtain ⟨ins, operation, index, among, known, rfl⟩ := thread_item member
  exact ⟨ins, operation, ⟨List.fst_mem_of_mem_zipIdx among, known⟩, rfl, rfl, rfl⟩

theorem item_thread (item : Item snapshot operation ins) :
    ∃ t ∈ batchThreads snapshot, t.job = itemJob operation ins ∧ t.scope = clusterKeyOf ins := by
  obtain ⟨member, known⟩ := item
  obtain ⟨index, bound, own⟩ := List.mem_iff_getElem.mp member
  have placed : (some ins, index) ∈ snapshot.zipIdx :=
    List.mem_zipIdx_iff_getElem?.mpr (List.getElem?_eq_some_iff.mpr ⟨bound, own⟩)
  exact ⟨_, List.mem_filterMap.mpr ⟨(some ins, index), placed, itemThread_item known⟩, rfl, rfl⟩

theorem itemJob_writes (operation : BatchOperation) (ins : Instance) : (itemJob operation ins).Writes ins := by
  cases operation with
  | register => exact .inl rfl
  | deregister => exact .inr rfl

theorem itemJob_inj {other : BatchOperation} {ins' : Instance} (same : itemJob operation ins = itemJob other ins') :
    operation = other ∧ ins = ins' := by
  cases operation <;> cases other <;> cases same <;> exact ⟨rfl, rfl⟩

theorem removal_itemJob {key : HostKey} (removal : (itemJob operation ins).removal config = some key) :
    operation = .deregister ∧ key = instanceTarget config ins := by
  cases operation with
  | register => cases removal
  | deregister => exact ⟨rfl, (Option.some.inj removal).symm⟩

/-- A step of an item's thread leaves the catalog alone or applies the write; an acknowledgement comes with the
write unless the instance has no address. -/
theorem act_item (config : Config) (world : World) (phase : Phase) (answer : Answer) (operation : BatchOperation)
    (ins : Instance) :
    let next := (itemJob operation ins).act config world phase answer
    (next.1.catalog = world.catalog ∧ (next.2.Acknowledged → phase.Acknowledged ∨ ins.ip = "")) ∨
      (phase.Begun ∧ next.1.catalog = writeItem config world.catalog operation ins) := by
  have acts := act_acts config world (itemJob operation ins) phase answer
  refine (acts.effect (itemJob_writes operation ins)).imp_right fun ⟨begun, effect⟩ => ⟨begun, ?_⟩
  cases operation with
  | register =>
    rcases effect with ⟨_, written⟩ | ⟨other, _⟩
    · exact written
    · cases other
  | deregister =>
    rcases effect with ⟨other, _⟩ | ⟨_, removed⟩
    · cases other
    · exact removed

/-! ## The writes -/

/-- What holds while the items of an arbitrary snapshot are written. -/
structure Applied (config : Config) (initial : Catalog) (snapshot : Instances) (catalog : Catalog)
    (threads : List Thread) : Prop where
  origin : ∀ t ∈ threads, ∃ ins operation, Item snapshot operation ins ∧ t.job = itemJob operation ins ∧
    t.scope = clusterKeyOf ins ∧ (t.phase.Begun → ins.ip ≠ "")
  covers : ∀ ins operation, Item snapshot operation ins →
    (itemJob operation ins, clusterKeyOf ins) ∈ threads.map fun t => (t.job, t.scope)
  known : ∀ p ∈ catalog.entries, p ∈ initial.entries ∨ WrittenItem config snapshot p
  kept : ∀ p ∈ initial.entries, (∀ ins operation, Item snapshot operation ins → ins.ip ≠ "" →
    p.key ≠ instanceTarget config ins) → p ∈ catalog.entries
  replaced : ∀ t ∈ threads, t.phase.Acknowledged → ∀ ins operation, t.job = itemJob operation ins → ins.ip ≠ "" →
    ∀ p ∈ catalog.entries, p.key = instanceTarget config ins → WrittenItem config snapshot p

theorem applied_start : Applied config initial snapshot initial (batchThreads snapshot) := by
  refine ⟨?_, ?_, fun _ => .inl, fun _ member _ => member, ?_⟩
  · intro t member
    obtain ⟨ins, operation, item, job, scope, phase⟩ := mem_batchThreads member
    exact ⟨ins, operation, item, job, scope, by rw [phase]; exact False.elim⟩
  · intro ins operation item
    obtain ⟨t, member, job, scope⟩ := item_thread item
    exact List.mem_map.mpr ⟨t, member, Prod.ext job scope⟩
  · intro t member done
    obtain ⟨_, _, _, _, _, phase⟩ := mem_batchThreads member
    rw [phase] at done
    exact done.elim

theorem mem_writeItem_known (item : Item snapshot operation ins) (address : ins.ip ≠ "")
    (member : p ∈ (writeItem config catalog operation ins).entries) :
    (p ∈ catalog.entries ∧ p.key ≠ instanceTarget config ins) ∨ WrittenItem config snapshot p := by
  cases operation with
  | register =>
    rcases Catalog.mem_register.mp member with rfl | earlier
    · exact .inr ⟨ins, item, address, rfl⟩
    · exact .inl earlier
  | deregister => exact .inl (Catalog.mem_deregister.mp member)

theorem mem_writeItem_of_ne (member : p ∈ catalog.entries) (apart : p.key ≠ instanceTarget config ins) :
    p ∈ (writeItem config catalog operation ins).entries := by
  cases operation with
  | register => exact Catalog.mem_register.mpr (.inr ⟨member, apart⟩)
  | deregister => exact Catalog.mem_deregister.mpr ⟨member, apart⟩

theorem Applied.move (applied : Applied config initial snapshot world.catalog threads) :
    Applied config initial snapshot (moveThread config world threads index answer).1.catalog
      (moveThread config world threads index answer).2 := by
  have covers := applied.covers
  rw [← moveThread_map (fun t => (t.job, t.scope)) fun _ _ => rfl] at covers
  rcases moveThread_cases with same | ⟨t, member, moved, _⟩
  · rw [same]
    exact applied
  · obtain ⟨ins, operation, item, job, scope, begun⟩ := applied.origin t member
    rw [moved] at covers ⊢
    have spec := act_item config world t.phase answer operation ins
    rw [← job] at spec
    have active : (t.job.act config world t.phase answer).2.Begun → t.phase.Begun ∨ ins.ip ≠ "" :=
      act_begun (job ▸ itemJob_writes operation ins)
    have origin : ∀ u ∈ threads.set index { t with phase := (t.job.act config world t.phase answer).2 },
        ∃ ins operation, Item snapshot operation ins ∧ u.job = itemJob operation ins ∧ u.scope = clusterKeyOf ins ∧
          (u.phase.Begun → ins.ip ≠ "") := by
      intro u among
      rcases List.mem_or_eq_of_mem_set among with earlier | rfl
      · exact applied.origin u earlier
      · exact ⟨ins, operation, item, job, scope, fun next => (active next).elim begun id⟩
    have own : ∀ other operation', t.job = itemJob operation' other → operation' = operation ∧ other = ins :=
      fun other operation' same => itemJob_inj (same.symm.trans job)
    rcases spec with ⟨catalog, quiet⟩ | ⟨running, catalog⟩
    · refine ⟨origin, covers, ?_, ?_, ?_⟩
      · rw [catalog]
        exact applied.known
      · rw [catalog]
        exact applied.kept
      · rw [catalog]
        intro u among done other operation' same address
        rcases List.mem_or_eq_of_mem_set among with earlier | rfl
        · exact applied.replaced u earlier done other operation' same address
        · obtain ⟨rfl, rfl⟩ := own other operation' same
          exact applied.replaced t member ((quiet done).resolve_right address) other operation' same address
    · have known : ∀ p ∈ (writeItem config world.catalog operation ins).entries,
          (p ∈ world.catalog.entries ∧ p.key ≠ instanceTarget config ins) ∨ WrittenItem config snapshot p :=
        fun p => mem_writeItem_known item (begun running)
      refine ⟨origin, covers, ?_, ?_, ?_⟩
      · rw [catalog]
        intro p present
        exact (known p present).elim (fun before => applied.known p before.1) .inr
      · rw [catalog]
        intro p early untouched
        exact mem_writeItem_of_ne (applied.kept p early untouched) (untouched ins operation item (begun running))
      · rw [catalog]
        intro u among done other operation' same address p present key
        rcases known p present with ⟨before, apart⟩ | written
        · rcases List.mem_or_eq_of_mem_set among with earlier | rfl
          · exact applied.replaced u earlier done other operation' same address p before key
          · -- The thread has just written here, so the host is not an old one.
            obtain ⟨rfl, rfl⟩ := own other operation' same
            exact absurd key apart
        · exact written

theorem applied_moves : MoveInvariant config fun world threads => Applied config initial snapshot world.catalog threads :=
  fun _ _ _ _ => Applied.move

/-- A write takes a host away only as an item's deregistration. -/
theorem Applied.removes (applied : Applied config initial snapshot world.catalog threads)
    (registered : p ∈ world.catalog.entries)
    (gone : ∀ q ∈ (moveThread config world threads index answer).1.catalog.entries, q.key ≠ p.key) :
    ∃ ins, Item snapshot .deregister ins ∧ p.key = instanceTarget config ins := by
  rcases moveThread_cases with same | ⟨t, member, moved, _⟩
  · rw [same] at gone
    exact absurd rfl (gone p registered)
  · obtain ⟨ins, operation, item, job, _, _⟩ := applied.origin t member
    rw [moved, job] at gone
    rcases act_item config world t.phase answer operation ins with ⟨catalog, _⟩ | ⟨_, catalog⟩
    · rw [catalog] at gone
      exact absurd rfl (gone p registered)
    · rw [catalog] at gone
      by_cases key : p.key = instanceTarget config ins
      · cases operation with
        | register => exact absurd key.symm (gone _ (Catalog.mem_register.mpr (.inl rfl)))
        | deregister => exact ⟨ins, item, key⟩
      · exact absurd rfl (gone p (mem_writeItem_of_ne registered key))

/-- The hosts of wire clusters that no item is in are as they were. -/
theorem Applied.unchanged (applied : Applied config initial snapshot catalog threads)
    (elsewhere : ¬Pushes snapshot p.clusterName) : p ∈ catalog.entries ↔ p ∈ initial.entries := by
  constructor
  · intro registered
    refine (applied.known p registered).resolve_right ?_
    rintro ⟨ins, item, _, rfl⟩
    exact elsewhere ⟨ins, _, item, rfl⟩
  · intro early
    refine applied.kept p early ?_
    intro ins operation item _ same
    exact elsewhere ⟨ins, operation, item, (congrArg HostKey.cluster same).symm⟩

/-! ## What a step of a run deregisters -/

/-- The step removes the host: nothing is registered under its key afterwards. -/
def Deregisters (config : Config) (run : PushRun) (label : PushStep) (p : InstanceParams) : Prop :=
  p ∈ run.world.catalog.entries ∧ ∀ q ∈ (run.step config label).world.catalog.entries, q.key ≠ p.key

/-- The property of the writes that the results below rest on. -/
def Writes (config : Config) (initial : Catalog) (snapshot : Instances) (world : World)
    (threads : List Thread) : Prop :=
  Applied config initial snapshot world.catalog threads

variable {run : PushRun} {label : PushStep}

/-- Whatever the writes of a full push have done so far. -/
theorem writes_after {before : List PushStep}
    (stage : ((PushRun.start config world snapshot).after config before).stage = .applying threads) :
    Writes config world.catalog snapshot ((PushRun.start config world snapshot).after config before).world threads := by
  have traced : Traced config (Writes config world.catalog snapshot) ((PushRun.start config world snapshot).after config before) :=
    traced_after applied_moves (traced_start applied_start) before
  rwa [Traced, stage] at traced

/-- Where a deregistration comes from: a write, or a task of the plan. -/
theorem Traced.removes {holds : World → List Thread → Prop} (traced : Traced config holds run)
    (deregisters : Deregisters config run label p) :
    (∃ threads index answer, holds run.world threads ∧
      ∀ q ∈ (moveThread config run.world threads index answer).1.catalog.entries, q.key ≠ p.key) ∨
    ∃ mid writers tasks listed, Discovered config holds run.instances run.scopes mid writers tasks listed ∧
      (∃ sweepers, run.stage = .sweeping (batchApplyError (failures writers)) listed sweepers) ∧
      p ∈ mid.catalog.entries ∧ ∃ task ∈ tasks, p.key = task.target config := by
  obtain ⟨registered, gone⟩ := deregisters
  have steps := run.step_steps config label
  generalize run.step config label = next at steps gone
  simp only [Traced] at traced
  cases steps with
  | rests | discovers | leaves => exact absurd rfl (gone p registered)
  | applies threads stage index answer =>
    rw [stage] at traced
    exact .inl ⟨threads, index, answer, traced, gone⟩
  | sweeps applied listed threads stage index answer =>
    rw [stage] at traced
    obtain ⟨mid, writers, tasks, discovered, rfl, swept⟩ := traced
    have removed := swept.removes registered fun member => gone p member rfl
    exact .inr ⟨mid, writers, tasks, listed, discovered, ⟨threads, stage⟩, swept.shrinks p registered, removed⟩

/-- A write that removes a host is an item's deregistration. -/
theorem Traced.deregisters (traced : Traced config (Writes config initial run.instances) run)
    (deregisters : Deregisters config run label p) :
    ((p ∈ initial.entries ∨ WrittenItem config run.instances p) ∧
      ∃ ins, Item run.instances .deregister ins ∧ p.key = instanceTarget config ins) ∨
    ∃ mid writers tasks listed, Discovered config (Writes config initial run.instances) run.instances run.scopes mid
      writers tasks listed ∧ p ∈ mid.catalog.entries ∧ ∃ task ∈ tasks, p.key = task.target config := by
  rcases traced.removes deregisters with
    ⟨threads, index, answer, applied, gone⟩ | ⟨mid, writers, tasks, listed, discovered, _, planned⟩
  · exact .inl ⟨Applied.known applied p deregisters.1, Applied.removes applied deregisters.1 gone⟩
  · exact .inr ⟨mid, writers, tasks, listed, discovered, planned⟩

section Input

variable {scopes : List String} {skipped : List ClusterKey} {key : ClusterKey} {cluster : String}

/-- The prune takes the items of the pairs without failures as desired or as removed. -/
theorem mem_kept : ins ∈ (⟨snapshot, scopes, skipped⟩ : PruneInput).kept ↔
    (∃ operation, Item snapshot operation ins) ∧ clusterKeyOf ins ∉ skipped := by
  simp only [PruneInput.kept, List.mem_filter, List.reduceOption_mem_iff, Bool.and_eq_true, decide_eq_true_eq,
    Option.isSome_iff_exists, Item, exists_and_left, and_assoc]

theorem mem_desiredKeys : key ∈ (⟨snapshot, scopes, skipped⟩ : PruneInput).desiredKeys ↔
    key ∉ skipped ∧ ∃ ins operation, Item snapshot operation ins ∧ clusterKeyOf ins = key := by
  simp only [PruneInput.desiredKeys, List.mem_dedup, List.mem_map, mem_kept]
  constructor
  · rintro ⟨ins, ⟨⟨operation, item⟩, applied⟩, rfl⟩
    exact ⟨applied, ins, operation, item, rfl⟩
  · rintro ⟨applied, ins, operation, item, rfl⟩
    exact ⟨ins, ⟨⟨operation, item⟩, applied⟩, rfl⟩

theorem pushes_of_pushedClusters (pushed : cluster ∈ (⟨snapshot, scopes, skipped⟩ : PruneInput).pushedClusters) :
    cluster ∈ scopes ∨ Pushes snapshot cluster := by
  rcases List.mem_append.mp (List.mem_dedup.mp pushed) with scope | among
  · exact .inl (List.mem_filter.mp scope).1
  · obtain ⟨ins, kept, own⟩ := List.mem_map.mp among
    obtain ⟨⟨operation, item⟩, _⟩ := mem_kept.mp kept
    exact .inr ⟨ins, operation, item, own⟩

end Input

variable {holds : World → List Thread → Prop} {scopes : List String}

section Planned

variable {mid : World} {writers : List Thread} {tasks : List PruneTask} {listed : Option GoError} {sweep : PruneTask}
  (discovered : Discovered config holds snapshot scopes mid writers tasks listed) (member : sweep ∈ tasks)
  (present : p ∈ mid.catalog.entries) (key : p.key = sweep.target config)

include discovered member present key

/-- The host of a planned task is an owned one that is not wanted, in a pair without failures that the prune looks at. -/
theorem Discovered.removal : p.groupName = effectiveGroup config.group ∧ p.Owned ∧
    Looked config mid.catalog mid.ownership ⟨snapshot, scopes, (failures writers).map Prod.fst⟩ p.pair ∧
    p.pair ∉ (failures writers).map Prod.fst ∧
    p.key.compositeID ∉ (⟨snapshot, scopes, (failures writers).map Prod.fst⟩ : PruneInput).wanted config
      p.pair := by
  obtain ⟨reads, planned⟩ := discovered.planned
  obtain ⟨looked, applied, q, registered, target, owned, unwanted⟩ := prunePlan_sound planned member
  obtain rfl : p = q := List.inj_on_of_nodup_map mid.catalog.keys_nodup present registered (key.trans target.symm)
  have pair : p.pair = sweep.key := congrArg HostKey.pair key
  rw [pair]
  exact ⟨congrArg HostKey.group key, owned, looked, applied, unwanted⟩

/-- The host of a planned task is owned and in a pushed wire cluster. -/
theorem Discovered.task : p.Owned ∧ (p.clusterName ∈ scopes ∨ Pushes snapshot p.clusterName) := by
  obtain ⟨_, owned, looked, _⟩ := discovered.removal member present key
  exact ⟨owned, pushes_of_pushedClusters looked.cluster⟩

end Planned

/-! ## A call without failures -/

/-- The writes of a call that began with the given world. -/
structure WritesFrom (config : Config) (start : World) (snapshot : Instances) (world : World)
    (threads : List Thread) : Prop where
  applied : Applied config start.catalog snapshot world.catalog threads
  remembered : world.ownership.remembered = start.ownership.remembered

theorem writesFrom_start : WritesFrom config world snapshot world (batchThreads snapshot) :=
  ⟨applied_start, rfl⟩

theorem writesFrom_moves : MoveInvariant config (WritesFrom config world snapshot) := by
  intro world' threads index answer held
  refine ⟨held.applied.move, ?_⟩
  rcases moveThread_acts config world' threads index answer with ⟨same, _⟩ | ⟨t, next, phase, _, _, acts, moved⟩
  · rw [same]
    exact held.remembered
  · rw [moved]
    exact acts.remembered.trans held.remembered

/-- The prune of a call without failures sees the pair: an item has it, or it is in a pushed wire cluster and remembered,
or read back from an owned host that no item addresses. -/
def Sees (config : Config) (world : World) (snapshot : Instances) (key : ClusterKey) : Prop :=
  (∃ ins operation, Item snapshot operation ins ∧ clusterKeyOf ins = key) ∨
    Pushes snapshot key.cluster ∧ (key ∈ world.ownership.remembered ∨
      ∃ p ∈ world.catalog.entries, p.groupName = effectiveGroup config.group ∧ p.Owned ∧ ReadsBackAs config p key ∧
        ∀ ins operation, Item snapshot operation ins → ins.ip ≠ "" → p.key ≠ instanceTarget config ins)

section Clean

variable {start mid : World} {writers : List Thread} {tasks : List PruneTask} {listed : Option GoError} {key : ClusterKey}
  (discovered : Discovered config (WritesFrom config start snapshot) snapshot [] mid writers tasks listed)
  (clean : failures writers = [])

include discovered clean

/-- What is there and not an item's was there before, and no item addresses it. -/
theorem Discovered.untouched (present : p ∈ mid.catalog.entries) (foreign : ¬WrittenItem config snapshot p) :
    p ∈ start.catalog.entries ∧
      ∀ ins operation, Item snapshot operation ins → ins.ip ≠ "" → p.key ≠ instanceTarget config ins := by
  have applied := discovered.held.applied
  refine ⟨(applied.known p present).resolve_right foreign, ?_⟩
  intro ins operation item address same
  obtain ⟨t, member, made⟩ := List.mem_map.mp (applied.covers ins operation item)
  have done := acknowledged_of_allFinished discovered.finished member (error_of_failures clean member)
  exact foreign (applied.replaced t member done ins operation (congrArg Prod.fst made) address p present same)

/-- If the items are read back in their own pairs, the prune looks at the pairs that it sees. -/
theorem Discovered.looked_iff_sees (reads : ∀ p, WrittenItem config snapshot p → ReadsBack config p) :
    Looked config mid.catalog mid.ownership ⟨snapshot, [], []⟩ key ↔ Sees config start snapshot key := by
  have desired : key ∈ (⟨snapshot, [], []⟩ : PruneInput).desiredKeys ↔
      ∃ ins operation, Item snapshot operation ins ∧ clusterKeyOf ins = key :=
    mem_desiredKeys.trans (and_iff_right List.not_mem_nil)
  rw [Looked, desired, discovered.held.remembered]
  constructor
  · rintro (item | ⟨pushed, known⟩)
    · exact .inl item
    · have pushes := (pushes_of_pushedClusters pushed).resolve_left List.not_mem_nil
      rcases known with remembered | ⟨p, present, group, owned, back⟩
      · exact .inr ⟨pushes, .inl remembered⟩
      · by_cases written : WrittenItem config snapshot p
        · have pair := (reads p written).1.symm.trans back.1
          obtain ⟨ins, item, _, rfl⟩ := written
          exact .inl ⟨ins, _, item, pair⟩
        · obtain ⟨early, untouched⟩ := discovered.untouched clean present written
          exact .inr ⟨pushes, .inr ⟨p, early, group, owned, back, untouched⟩⟩
  · rintro (item | ⟨⟨ins, operation, item, cluster⟩, known⟩)
    · exact .inl item
    · refine .inr ⟨cluster ▸ desiredKeys_cluster (mem_desiredKeys.mpr ⟨List.not_mem_nil, ins, operation, item, rfl⟩), ?_⟩
      refine known.imp_right ?_
      rintro ⟨p, early, group, owned, back, untouched⟩
      exact ⟨p, discovered.held.applied.kept p early untouched, group, owned, back⟩

end Clean

/-- A call that returns nil had no failed write. -/
theorem applied_of_returned {applied listed : Option GoError} {sweepers : List Thread} {rest : List PushStep}
    (stage : run.stage = .sweeping applied listed sweepers) (returned : (run.after config rest).stage = .returned none) :
    applied = none := by
  have kept : (∃ listed sweepers, (run.after config rest).stage = .sweeping applied listed sweepers) ∨
      ∃ err, (run.after config rest).stage = .returned err ∧ (err = none → applied = none) := by
    clear returned
    induction rest using List.reverseRecOn with
    | nil => exact .inl ⟨listed, sweepers, stage⟩
    | append_singleton earlier label ih =>
      rw [PushRun.after_append]
      have steps := (run.after config earlier).step_steps config label
      generalize (run.after config earlier).step config label = next at steps ⊢
      rcases ih with ⟨listed, sweepers, sweeping⟩ | ⟨err, left, clean⟩
      · cases steps with
        | rests => exact .inl ⟨listed, sweepers, sweeping⟩
        | applies _ other | discovers _ other => cases sweeping.symm.trans other
        | sweeps _ _ _ other =>
          cases sweeping.symm.trans other
          exact .inl ⟨_, _, rfl⟩
        | leaves _ _ _ other =>
          cases sweeping.symm.trans other
          exact .inr ⟨_, rfl, fun none => (joinErrors_eq_none none).1⟩
      · cases steps with
        | rests => exact .inr ⟨err, left, clean⟩
        | applies _ other | discovers _ other | sweeps _ _ _ other | leaves _ _ _ other => cases left.symm.trans other
  rcases kept with ⟨_, _, sweeping⟩ | ⟨err, left, clean⟩
  · cases sweeping.symm.trans returned
  · cases left.symm.trans returned
    exact clean rfl

/-! ## Which step deregisters a host that is gone -/

/-- No write puts anything at the host's key. -/
def LeavesAlone (config : Config) (holds : World → List Thread → Prop) (p : InstanceParams) : Prop :=
  ∀ world threads index answer, holds world threads →
    ∀ q ∈ (moveThread config world threads index answer).1.catalog.entries, q.key = p.key → q ∈ world.catalog.entries

theorem Traced.lost (traced : Traced config holds run) (alone : LeavesAlone config holds p)
    (registered : p ∈ run.world.catalog.entries) (lost : p ∉ (run.step config label).world.catalog.entries) :
    Deregisters config run label p := by
  have earlier : ∀ q ∈ (run.step config label).world.catalog.entries, q.key = p.key → q ∈ run.world.catalog.entries := by
    have steps := run.step_steps config label
    generalize run.step config label = next at steps
    simp only [Traced] at traced
    cases steps with
    | rests | discovers | leaves => exact fun q member _ => member
    | applies threads stage index answer =>
      rw [stage] at traced
      exact alone _ _ _ _ traced
    | sweeps applied listed threads stage index answer =>
      rw [stage] at traced
      obtain ⟨mid, writers, tasks, _, _, swept⟩ := traced
      exact fun q member _ => swept.move_shrinks member
  refine ⟨registered, fun q member key => lost ?_⟩
  rwa [← List.inj_on_of_nodup_map run.world.catalog.keys_nodup (earlier q member key) registered key]

/-- A host that is gone in the end, and that nothing was written over, was deregistered by some step. -/
theorem exists_deregisters {history : List PushStep} (moves : MoveInvariant config holds) (begins : Traced config holds run)
    (alone : LeavesAlone config holds p) (registered : p ∈ run.world.catalog.entries)
    (gone : p ∉ (run.after config history).world.catalog.entries) :
    ∃ before label rest, history = before ++ label :: rest ∧ Deregisters config (run.after config before) label p := by
  obtain ⟨before, label, rest, split, present, lost⟩ :=
    History.exists_step_of_lost (fun earlier => p ∈ (run.after config earlier).world.catalog.entries) registered gone
  rw [PushRun.after_append] at lost
  exact ⟨before, label, rest, split, (traced_after moves begins before).lost alone present lost⟩

end Spotter.Nacos
