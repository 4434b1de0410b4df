import Spotter.Library.History
import Spotter.Providers.Consul.Provider

/-! # Three empty reads before an empty catalog counts

Five operations read the catalog under the provider's lock. A healthy empty catalog is acted on only
when the counter of empty reads has reached three. The counter is compared here with the reads that
really happened: the empty ones since the last read that was not a healthy empty one.

The public `GetAll` forgets the empty reads before it only if its own read fails, so a non-empty
catalog that it reads leaves them counted.
-/

namespace Spotter.Providers.Consul

open Library Domain

/-- The operations that read the catalog. -/
inductive Reader where
  | syncInstance
  | compareAndFlush
  | fullPush
  | revalidate
  | getAll
deriving DecidableEq

/-- One read: who reads, and the catalog unless the read fails or is partial. -/
structure CatalogRead where
  reader : Reader
  catalog : Option Catalog

/-- The read shows a complete catalog without instances. -/
def CatalogRead.healthyEmpty (read : CatalogRead) : Bool := read.catalog.any fun catalog => catalog.instances.isEmpty

/-- The empty reads since the last read that was not a healthy empty one. -/
def emptyRun (reads : List CatalogRead) : ℕ := (reads.reverse.takeWhile CatalogRead.healthyEmpty).length

variable (config : Config)

namespace Provider

/-- `GetAll`: the read of `getAllLocked`, which touches the counters only when it fails. -/
def getAll (k : Provider) : Option Catalog → Provider × Option (List Instance)
  | none => (k.forgetEmpty, none)
  | some catalog => (k, some catalog.instances)

/-- The provider after a read. -/
def afterRead (k : Provider) (read : CatalogRead) : Provider :=
  match read.reader with
  | .syncInstance => (k.syncInstanceAt config read.catalog).1
  | .compareAndFlush => (k.compareSnapshot read.catalog).1
  | .fullPush => (k.snapshotForFullPushMode true read.catalog).1
  | .revalidate => (k.snapshotForFullPushMode false read.catalog).1
  | .getAll => (k.getAll read.catalog).1

/-- The read makes the provider act on an empty catalog: it empties the cache, sends the deletions that
follow from an empty catalog, or confirms an empty full push. -/
def actsOnEmpty (k : Provider) (read : CatalogRead) : Bool :=
  match read.reader with
  | .syncInstance =>
    let (next, dispatch) := k.syncInstanceAt config read.catalog
    dispatch.isSome && (read.healthyEmpty || next.cache.list.isEmpty)
  | .compareAndFlush =>
    let (next, all) := k.compareSnapshot read.catalog
    all.isSome && (read.healthyEmpty || next.cache.list.isEmpty)
  | .fullPush => (k.snapshotForFullPushMode true read.catalog).2.any fun snapshot => snapshot.2.2
  | .revalidate => (k.snapshotForFullPushMode false read.catalog).2.any fun snapshot => snapshot.2.2
  | .getAll => false

/-- A new provider after a sequence of reads. -/
def afterReads (reads : List CatalogRead) : Provider :=
  reads.foldl (afterRead config) {}

theorem afterReads_append (reads : List CatalogRead) (read : CatalogRead) :
    afterReads config (reads ++ [read]) = (afterReads config reads).afterRead config read := by
  rw [afterReads, List.foldl_append]
  rfl

end Provider

/-- A public `GetAll` that reads a non-empty catalog finds no empty read counted. -/
def GetAllSeesNoCount (before : List CatalogRead) (read : CatalogRead) : Prop :=
  read.reader = .getAll → read.catalog.any (fun catalog => !catalog.instances.isEmpty) = true →
    (Provider.afterReads config before).emptyConfirmations = 0

/-! ## The run of empty reads -/

section Run

variable {reads : List CatalogRead} {read : CatalogRead}

theorem emptyRun_append_empty (empty : read.healthyEmpty = true) : emptyRun (reads ++ [read]) = emptyRun reads + 1 := by
  simp [emptyRun, empty]

end Run

/-! ## The counter against the run -/

section Counter

variable (config : Config) (k : Provider) (reader : Reader) {catalog : Catalog}

theorem cacheOf_ne_nil {instances : List Instance} (some_instance : instances ≠ []) :
    (cacheOf instances).list ≠ [] := by
  obtain ⟨initial, last, rfl⟩ := (List.eq_nil_or_concat instances).resolve_left some_instance
  have stored : last ∈ (cacheOf (initial.concat last)).entries := by
    rw [List.concat_eq_append, cacheOf, List.foldl_append]
    exact SortedStore.mem_replaceOrInsert.mpr (.inl rfl)
  exact List.ne_nil_of_mem stored

/-- One more confirmation; past its largest value the machine word falls back to zero. -/
theorem toNat_succ_le (count : UInt32) : (count + 1).toNat ≤ count.toNat + 1 := by
  rw [UInt32.toNat_add]
  exact Nat.mod_le _ _

/-- A failed read forgets every confirmation. -/
theorem afterRead_failed : (k.afterRead config ⟨reader, none⟩).emptyConfirmations = 0 := by
  cases reader <;> rfl

/-- A healthy empty read is counted at most once. -/
theorem afterRead_empty (empty : catalog.instances.isEmpty = true) :
    (k.afterRead config ⟨reader, some catalog⟩).emptyConfirmations.toNat ≤ k.emptyConfirmations.toNat + 1 := by
  have merged : (mergeMonotonicInstances k.cache catalog.instances).isEmpty = true := by
    rw [List.isEmpty_iff] at empty
    simp [mergeMonotonicInstances, empty]
  have counted := toNat_succ_le k.emptyConfirmations
  have kept : k.emptyConfirmations.toNat ≤ k.emptyConfirmations.toNat + 1 := Nat.le_succ _
  cases reader with
  | syncInstance =>
    simp only [Provider.afterRead, Provider.syncInstanceAt, empty, ↓reduceIte]
    split_ifs
    · exact counted
    · exact counted
  | compareAndFlush =>
    simp only [Provider.afterRead, Provider.compareSnapshot, empty, ↓reduceIte]
    cases pending : k.emptyConfirmationPending with
    | true =>
      simp only [↓reduceIte]
      split_ifs
      · exact kept
      · exact kept
    | false =>
      simp only [Bool.false_eq_true, ↓reduceIte]
      split_ifs
      · exact counted
      · exact counted
  | fullPush =>
    simp only [Provider.afterRead, Provider.snapshotForFullPushMode, merged, ↓reduceIte]
    split_ifs
    · exact kept
    · exact counted
  | revalidate =>
    simp only [Provider.afterRead, Provider.snapshotForFullPushMode, merged, ↓reduceIte, Bool.false_eq_true]
    exact kept
  | getAll => exact kept

/-- A non-empty read forgets every confirmation, unless it is the public `GetAll`'s. -/
theorem afterRead_nonEmpty (nonEmpty : catalog.instances.isEmpty = false) :
    (k.afterRead config ⟨reader, some catalog⟩).emptyConfirmations = 0 ∨
      (reader = .getAll ∧ (k.afterRead config ⟨reader, some catalog⟩) = k) := by
  have merged : (mergeMonotonicInstances k.cache catalog.instances).isEmpty = false := by
    simpa [mergeMonotonicInstances] using nonEmpty
  cases reader with
  | syncInstance =>
    simp only [Provider.afterRead, Provider.syncInstanceAt, nonEmpty, Bool.false_eq_true, ↓reduceIte]
    exact .inl rfl
  | compareAndFlush =>
    simp only [Provider.afterRead, Provider.compareSnapshot, nonEmpty, Bool.false_eq_true, ↓reduceIte]
    exact .inl rfl
  | fullPush | revalidate =>
    simp only [Provider.afterRead, Provider.snapshotForFullPushMode, merged, Bool.false_eq_true, ↓reduceIte]
    exact .inl rfl
  | getAll => exact .inr ⟨rfl, rfl⟩

/-- A read is counted at most once, and only a healthy empty one is. -/
theorem afterRead_counted (read : CatalogRead) :
    (k.afterRead config read).emptyConfirmations.toNat ≤ k.emptyConfirmations.toNat + if read.healthyEmpty then 1 else 0 := by
  obtain ⟨reader, read⟩ := read
  cases read with
  | none =>
    rw [afterRead_failed]
    exact Nat.zero_le _
  | some catalog =>
    cases empty : catalog.instances.isEmpty with
    | true => simpa [CatalogRead.healthyEmpty, empty] using afterRead_empty config k reader empty
    | false =>
      rcases afterRead_nonEmpty config k reader empty with forgotten | ⟨_, same⟩
      · rw [forgotten]
        exact Nat.zero_le _
      · rw [same]
        exact Nat.le_add_right _ _

/-- The counter never exceeds the run of empty reads. -/
theorem emptyConfirmations_le_emptyRun {reads : List CatalogRead}
    (calls : History.AllSteps (GetAllSeesNoCount config) reads) :
    (Provider.afterReads config reads).emptyConfirmations.toNat ≤ emptyRun reads := by
  refine History.invariant (fun reads => (Provider.afterReads config reads).emptyConfirmations.toNat ≤ emptyRun reads)
    (Nat.zero_le _) ?_ calls
  intro reads read sees behind
  rw [Provider.afterReads_append]
  have counted := afterRead_counted config (Provider.afterReads config reads) read
  cases empty : read.healthyEmpty with
  | true =>
    rw [emptyRun_append_empty empty]
    simp only [empty, ↓reduceIte] at counted
    omega
  | false =>
    -- What is no healthy empty read forgets the count, or is a `GetAll` that finds none.
    obtain ⟨reader, read⟩ := read
    cases read with
    | none =>
      rw [afterRead_failed]
      exact Nat.zero_le _
    | some catalog =>
      have nonEmpty : catalog.instances.isEmpty = false := empty
      rcases afterRead_nonEmpty config (Provider.afterReads config reads) reader nonEmpty with forgotten | ⟨rfl, same⟩
      · rw [forgotten]
        exact Nat.zero_le _
      · rw [same, sees rfl (by simp [nonEmpty])]
        exact Nat.zero_le _

/-- Each read replaces the cache at most once, so 64 bits hold the generation for as many reads. -/
theorem afterReads_generation_le (reads : List CatalogRead) : (Provider.afterReads config reads).generation ≤ reads.length := by
  induction reads using List.reverseRecOn with
  | nil => exact Nat.le_refl _
  | append_singleton earlier read ih =>
    rw [Provider.afterReads_append, List.length_append]
    refine Nat.le_trans ?_ (Nat.succ_le_succ ih)
    generalize Provider.afterReads config earlier = k
    obtain ⟨reader, read⟩ := read
    cases read with
    | none => cases reader <;> exact Nat.le_succ _
    | some catalog =>
      cases reader with
      | syncInstance =>
        simp only [Provider.afterRead, Provider.syncInstanceAt]
        split_ifs <;> simp [Provider.replaceCache, Provider.forgetEmpty]
      | compareAndFlush =>
        simp only [Provider.afterRead, Provider.compareSnapshot]
        split_ifs <;> simp [Provider.replaceCache, Provider.forgetEmpty]
      | fullPush | revalidate =>
        simp only [Provider.afterRead, Provider.snapshotForFullPushMode]
        split_ifs <;> simp [Provider.forgetEmpty]
      | getAll => exact Nat.le_succ _

variable {config k} in
/-- Acting on an empty catalog takes a healthy empty read that finds the count at three. -/
theorem actsOnEmpty_counted {read : CatalogRead} (acts : k.actsOnEmpty config read = true) :
    read.healthyEmpty = true ∧ 3 ≤ (k.afterRead config read).emptyConfirmations := by
  obtain ⟨reader, read⟩ := read
  cases read with
  | none => cases reader <;> simp [Provider.actsOnEmpty, Provider.syncInstanceAt, Provider.compareSnapshot,
      Provider.snapshotForFullPushMode] at acts
  | some catalog =>
    cases empty : catalog.instances.isEmpty with
    | false =>
      -- A non-empty read leaves the cache non-empty and the count at zero.
      have merged : mergeMonotonicInstances k.cache catalog.instances ≠ [] := by
        simpa [mergeMonotonicInstances] using empty
      have stored := cacheOf_ne_nil merged
      exfalso
      cases reader with
      | syncInstance =>
        simp only [Provider.actsOnEmpty, Provider.syncInstanceAt, empty, CatalogRead.healthyEmpty] at acts
        simp [Provider.replaceCache, stored, empty] at acts
      | compareAndFlush =>
        simp only [Provider.actsOnEmpty, Provider.compareSnapshot, empty, CatalogRead.healthyEmpty] at acts
        simp [Provider.replaceCache, stored, empty] at acts
      | fullPush | revalidate =>
        simp [Provider.actsOnEmpty, Provider.snapshotForFullPushMode, merged, Provider.forgetEmpty] at acts
      | getAll => cases acts
    | true =>
      refine ⟨by simpa [CatalogRead.healthyEmpty] using empty, ?_⟩
      cases reader with
      | syncInstance =>
        simp only [Provider.actsOnEmpty, Provider.afterRead, Provider.syncInstanceAt, empty, ↓reduceIte] at acts ⊢
        split_ifs at acts ⊢ with few
        · cases acts
        · exact UInt32.not_lt.mp few
      | compareAndFlush =>
        simp only [Provider.actsOnEmpty, Provider.afterRead, Provider.compareSnapshot, empty, ↓reduceIte] at acts ⊢
        generalize (if k.emptyConfirmationPending then k else _ : Provider) = counted at acts ⊢
        split_ifs at acts ⊢ with few
        · cases acts
        · exact UInt32.not_lt.mp few
      | fullPush | revalidate =>
        simpa [Provider.actsOnEmpty, Provider.afterRead, Provider.snapshotForFullPushMode] using acts
      | getAll => cases acts

end Counter

/-- If no public `GetAll` reads a non-empty catalog while empty reads are counted, the counter never exceeds the
run of empty reads, and the provider acts on an empty catalog only at the end of a run of three. No read is
counted twice. -/
theorem actsOnEmpty_after_three (config : Config) {reads : List CatalogRead} {read : CatalogRead}
    (calls : History.AllSteps (GetAllSeesNoCount config) (reads ++ [read])) :
    (Provider.afterReads config (reads ++ [read])).emptyConfirmations.toNat ≤ emptyRun (reads ++ [read]) ∧
      ((Provider.afterReads config reads).actsOnEmpty config read = true → 3 ≤ emptyRun (reads ++ [read])) ∧
      (Provider.afterReads config (reads ++ [read])).emptyConfirmations.toNat ≤
        (Provider.afterReads config reads).emptyConfirmations.toNat + if read.healthyEmpty then 1 else 0 := by
  have behind := emptyConfirmations_le_emptyRun config calls
  rw [Provider.afterReads_append] at behind ⊢
  refine ⟨behind, fun acts => ?_, afterRead_counted config _ read⟩
  obtain ⟨_, counted⟩ := actsOnEmpty_counted acts
  exact (UInt32.le_iff_toNat_le.mp counted).trans behind

def plainConfig : Config := ⟨⟨fun _ => "", fun _ => none⟩, true, "", true, initInstanceFilters⟩

def noInstances : Catalog := ⟨[], by simp⟩

def gateInstance : Instance :=
  { instanceId := "a-1", provider := "ecs", appCode := "order", envType := "product", ip := "10.0.0.1", reversion := 1
    status := instanceStatusOnline }

def oneInstance : Catalog := ⟨[gateInstance], by simp [gateInstance]⟩

/-- One instance, then two empty reads of the watch, then a debug read that sees the instance again. -/
def interruptedReads : List CatalogRead :=
  [⟨.syncInstance, some oneInstance⟩, ⟨.syncInstance, some noInstances⟩, ⟨.syncInstance, some noInstances⟩,
    ⟨.getAll, some oneInstance⟩]

/-- The next empty read of the watch empties the cache, although it is the first since a non-empty read. -/
theorem interrupted_reads_empty_cache :
    (Provider.afterReads plainConfig interruptedReads).actsOnEmpty plainConfig ⟨.syncInstance, some noInstances⟩ = true ∧
      (Provider.afterReads plainConfig interruptedReads).cache.list = [gateInstance] ∧
      (Provider.afterReads plainConfig (interruptedReads ++ [⟨.syncInstance, some noInstances⟩])).cache.list = [] ∧
      emptyRun (interruptedReads ++ [⟨.syncInstance, some noInstances⟩]) = 1 := by
  decide +kernel

/-- Three empty reads after a debug read with nothing counted. -/
theorem actsOnEmpty_after_three_syncs :
    let reads : List CatalogRead :=
      [⟨.getAll, some oneInstance⟩, ⟨.syncInstance, some noInstances⟩, ⟨.compareAndFlush, some noInstances⟩,
        ⟨.syncInstance, some noInstances⟩]
    (Provider.afterReads plainConfig reads).actsOnEmpty plainConfig ⟨.syncInstance, some noInstances⟩ = true ∧
      3 ≤ emptyRun (reads ++ [⟨.syncInstance, some noInstances⟩]) := by
  intro reads
  have calls : History.AllSteps (GetAllSeesNoCount plainConfig) (reads ++ [⟨.syncInstance, some noInstances⟩]) := by
    simp only [reads, List.cons_append, List.nil_append, History.allSteps_cons]
    exact ⟨fun _ _ => rfl, nofun, nofun, nofun, nofun, History.allSteps_nil _⟩
  have acts : (Provider.afterReads plainConfig reads).actsOnEmpty plainConfig ⟨.syncInstance, some noInstances⟩ = true := by
    decide +kernel
  exact ⟨acts, (actsOnEmpty_after_three plainConfig calls).2.1 acts⟩

end Spotter.Providers.Consul
