import Spotter.Nacos.Exactness

/-! # A full push of which some writes failed

The pairs of the failed items are left out of the prune. Nothing else changes: in a pair whose items were
all written, the hosts to remove are the initial ones that no item of the snapshot registers or
deregisters, whatever became of the other pairs.
-/

namespace Spotter.Nacos

open Library Domain Ports

variable {config : Config} {catalog initial : Catalog} {reads : PruneReads} {p : InstanceParams}

/-! ## A pair whose items were all written -/

variable {snapshot : Instances} {ins : Instance} {key : ClusterKey} {skipped : List ClusterKey}
  {operation : BatchOperation} {threads : List Thread}

/-- The host is an initial one of the pair that the snapshot neither registers nor deregisters. -/
structure Prunable (config : Config) (initial : Catalog) (snapshot : Instances) (key : ClusterKey)
    (p : InstanceParams) : Prop where
  initial : p ∈ initial.entries
  owned : p.Owned
  group : p.groupName = effectiveGroup config.group
  service : p.serviceName = key.service
  cluster : p.clusterName = key.cluster
  unregistered : ∀ ins, Item snapshot .register ins → clusterKeyOf ins = key →
    compositeIDWithGroup ins config.group ≠ p.key.compositeID
  untouched : ∀ ins, Item snapshot .deregister ins → ins.ip ≠ "" → p.key ≠ instanceTarget config ins

theorem WrittenItem.wanted (written : WrittenItem config snapshot p) (applied : key ∉ skipped)
    (service : p.serviceName = key.service) (cluster : p.clusterName = key.cluster) :
    p.key.compositeID ∈ (⟨snapshot, [], skipped⟩ : PruneInput).wanted config key := by
  obtain ⟨ins, item, _, rfl⟩ := written
  refine (mem_wanted_item applied).mpr ⟨ins, item, ?_, rfl⟩
  obtain ⟨name, wire⟩ := key
  cases service
  cases cluster
  rfl

/-- A finished thread of a pair without failures was acknowledged. -/
theorem acknowledged_of_clean {t : Thread} (all : allFinished threads = true) (member : t ∈ threads)
    (clean : t.scope ∉ (failures threads).map Prod.fst) : t.phase.Acknowledged := by
  refine acknowledged_of_allFinished all member ?_
  by_contra failed
  obtain ⟨err, fault⟩ := Option.ne_none_iff_exists'.mp failed
  refine clean (List.mem_map.mpr ⟨(t.scope, err), ?_, rfl⟩)
  exact List.mem_filterMap.mpr ⟨t, member, by rw [fault]; rfl⟩

/-- After the writes, the unwanted hosts of a pair without failures are its prunable ones. -/
theorem Applied.unwanted_iff (applied : Applied config initial snapshot catalog threads) (all : allFinished threads = true)
    (clean : key ∉ (failures threads).map Prod.fst) :
    (p ∈ catalog.entries ∧ p.groupName = effectiveGroup config.group ∧ p.serviceName = key.service ∧ p.clusterName = key.cluster ∧
      p.key.compositeID ∉ (⟨snapshot, [], (failures threads).map Prod.fst⟩ : PruneInput).wanted config key ∧ p.Owned) ↔
    Prunable config initial snapshot key p := by
  have pair : ∀ ins, p.serviceName = key.service → p.clusterName = key.cluster → p.key = instanceTarget config ins →
      clusterKeyOf ins = key := by
    intro ins service cluster same
    have own : p.pair = clusterKeyOf ins := congrArg HostKey.pair same
    rw [← own, InstanceParams.pair, service, cluster]
  constructor
  · rintro ⟨registered, group, service, cluster, unwanted, owned⟩
    have unwritten : ¬WrittenItem config snapshot p := fun written => unwanted (written.wanted clean service cluster)
    refine ⟨(applied.known p registered).resolve_right unwritten, owned, group, service, cluster, ?_, ?_⟩
    · intro ins item own same
      exact unwanted ((mem_wanted_item clean).mpr ⟨ins, item, own, same⟩)
    · intro ins item address same
      obtain ⟨t, member, made⟩ := List.mem_map.mp (applied.covers ins .deregister item)
      obtain ⟨job, scope⟩ := Prod.mk.inj made
      have done : t.phase.Acknowledged := by
        refine acknowledged_of_clean all member ?_
        rw [scope, pair ins service cluster same]
        exact clean
      exact unwritten (applied.replaced t member done ins .deregister job address p registered same)
  · rintro ⟨early, owned, group, service, cluster, unregistered, untouched⟩
    refine ⟨applied.kept p early ?_, group, service, cluster, ?_, owned⟩
    · intro ins operation item address same
      cases operation with
      | register =>
        refine unregistered ins item (pair ins service cluster same) ?_
        rw [same, instanceTarget_compositeID]
      | deregister => exact untouched ins item address same
    · intro wanted
      obtain ⟨ins, item, own, same⟩ := (mem_wanted_item clean).mp wanted
      exact unregistered ins item own same

/-! ## What the prune deregisters -/

/-- The hosts of a pair that the steps of a history deregister. -/
def deregistered (config : Config) (run : PushRun) (history : List PushStep) (key : ClusterKey) : Set HostKey :=
  { target | ∃ before label rest p, history = before ++ label :: rest ∧ Deregisters config (run.after config before) label p ∧
    p.pair = key ∧ p.key = target }

/-- The prune has read everything, and every removal was acknowledged. -/
def PushRun.Pruned (run : PushRun) : Prop :=
  ∃ applied sweepers, run.stage = .sweeping applied none sweepers ∧ allFinished sweepers = true ∧
    sweepers.findSome? Thread.error = none

instance (run : PushRun) : Decidable run.Pruned :=
  match run with
  | ⟨_, _, _, .sweeping applied none sweepers⟩ =>
    decidable_of_iff (allFinished sweepers = true ∧ sweepers.findSome? Thread.error = none)
      ⟨fun done => ⟨applied, sweepers, rfl, done⟩, fun ⟨_, _, same, done⟩ => by cases same; exact done⟩
  | ⟨_, _, _, .sweeping _ (some _) _⟩ | ⟨_, _, _, .applying _⟩ | ⟨_, _, _, .returned _⟩ => isFalse (by rintro ⟨_, _, ⟨⟩, _⟩)

/-- Nobody moves after the last write. -/
theorem moveThread_finished {world : World} {index : ℕ} {answer : Answer} (all : allFinished threads = true) :
    moveThread config world threads index answer = (world, threads) := by
  rcases moveThread_cases with same | ⟨t, member, moved, found⟩
  · exact same
  · obtain ⟨err, finished⟩ := result_isSome (List.all_eq_true.mp all t member)
    obtain ⟨job, scope, batch, phase⟩ := t
    cases finished
    obtain ⟨bound, own⟩ := List.getElem?_eq_some_iff.mp found
    have rests : job.act config world (.finished err) answer = (world, .finished err) := by
      cases job <;> rfl
    rw [moved, rests, ← own, List.set_getElem_self]

section Prune

variable {run : PushRun} {rest : List PushStep} {label : PushStep} (stage : run.stage = .applying threads)
  (all : allFinished threads = true)

/-- The state in which the last write has been answered. -/
def Rests (run : PushRun) (threads : List Thread) (world : World) (writers : List Thread) : Prop :=
  world = run.world ∧ writers = threads

include all

theorem rests_moves : MoveInvariant config (Rests run threads) := by
  rintro _ _ index answer ⟨rfl, rfl⟩
  rw [moveThread_finished all]
  exact ⟨rfl, rfl⟩

theorem rests_alone : LeavesAlone config (Rests run threads) p := by
  rintro _ _ index answer ⟨rfl, rfl⟩ q member _
  rwa [moveThread_finished all] at member

include stage

theorem traced_prune (rest : List PushStep) :
    Traced config (Rests run threads) ((run.step config (.discover reads)).after config rest) := by
  refine traced_after (rests_moves all) ?_ rest
  have after : run.step config (.discover reads) = run.discover config threads reads := by
    simp only [PushRun.step, stage, all, ↓reduceIte]
  rw [after]
  exact Traced.discover ⟨rfl, rfl⟩ all

/-- What the prune deregisters was planned from the catalog that the writes left. -/
theorem prune_deregisters
    (deregisters : Deregisters config ((run.step config (.discover reads)).after config rest) label p) :
    p ∈ run.world.catalog.entries ∧ p.groupName = effectiveGroup config.group ∧ p.Owned ∧
      Looked config run.world.catalog run.world.ownership (run.pruneInput threads) p.pair ∧
      p.pair ∉ (failures threads).map Prod.fst ∧
      p.key.compositeID ∉ (run.pruneInput threads).wanted config p.pair := by
  obtain ⟨instances, scopes⟩ := after_fixed config (run.step config (.discover reads)) rest
  obtain ⟨instances', scopes'⟩ := step_fixed config run (.discover reads)
  rcases (traced_prune stage all rest).removes deregisters with
    ⟨_, index, answer, ⟨same, rfl⟩, gone⟩ | ⟨_, _, tasks, listed, discovered, _, present, task, member, key⟩
  · rw [moveThread_finished all] at gone
    exact absurd rfl (gone p deregisters.1)
  · obtain ⟨rfl, rfl⟩ := discovered.held
    rw [instances, scopes, instances', scopes'] at discovered
    exact ⟨present, discovered.removal member present key⟩

/-- A prune whose removals were all acknowledged has deregistered every unwanted host of the pairs it looked at. -/
theorem pruned_deregisters (done : ((run.step config (.discover reads)).after config rest).Pruned)
    (registered : p ∈ run.world.catalog.entries) (group : p.groupName = effectiveGroup config.group) (owned : p.Owned)
    (looked : Looked config run.world.catalog run.world.ownership (run.pruneInput threads) p.pair)
    (applied : p.pair ∉ (failures threads).map Prod.fst)
    (unwanted : p.key.compositeID ∉ (run.pruneInput threads).wanted config p.pair) :
    ∃ before label later, rest = before ++ label :: later ∧
      Deregisters config ((run.step config (.discover reads)).after config before) label p := by
  obtain ⟨instances, scopes⟩ := after_fixed config (run.step config (.discover reads)) rest
  obtain ⟨instances', scopes'⟩ := step_fixed config run (.discover reads)
  have begins : Traced config (Rests run threads) (run.step config (.discover reads)) := traced_prune stage all []
  have present : p ∈ (run.step config (.discover reads)).world.catalog.entries := by
    simpa only [PushRun.step, stage, all, ↓reduceIte, PushRun.discover] using registered
  refine exists_deregisters (rests_moves all) begins (rests_alone all) present fun member => ?_
  have traced : Traced config (Rests run threads) ((run.step config (.discover reads)).after config rest) :=
    traced_prune stage all rest
  obtain ⟨_, sweepers, sweeping, finished, clean⟩ := done
  rw [Traced, sweeping] at traced
  obtain ⟨_, _, tasks, ⟨⟨rfl, rfl⟩, _, reads', planned⟩, _, swept⟩ := traced
  rw [instances, scopes, instances', scopes'] at planned
  obtain ⟨task, among, target⟩ := (mem_prunePlan_iff planned registered group).mpr ⟨owned, looked, applied, unwanted⟩
  exact ((swept.cleared finished clean p).mp member).2 task among target

/-- Of a pair without failures, a prune deregisters the prunable hosts. -/
theorem deregistered_of_clean (instances : run.instances = snapshot) (scopes : run.scopes = [])
    (applied : Applied config initial snapshot run.world.catalog threads)
    (done : ((run.step config (.discover reads)).after config rest).Pruned) (item : Item snapshot operation ins)
    (clean : clusterKeyOf ins ∉ (failures threads).map Prod.fst) :
    deregistered config (run.step config (.discover reads)) rest (clusterKeyOf ins) =
      { target | ∃ p, Prunable config initial snapshot (clusterKeyOf ins) p ∧ p.key = target } := by
  have input : run.pruneInput threads = ⟨snapshot, [], (failures threads).map Prod.fst⟩ := by
    rw [PushRun.pruneInput, instances, scopes]
  ext target
  constructor
  · rintro ⟨before, label, later, p, _, deregisters, pair, rfl⟩
    obtain ⟨registered, group, owned, _, _, unwanted⟩ := prune_deregisters stage all deregisters
    rw [input, pair] at unwanted
    obtain ⟨service, cluster⟩ := ClusterKey.mk.inj pair
    exact ⟨p, (applied.unwanted_iff all clean).mp ⟨registered, group, service, cluster, unwanted, owned⟩, rfl⟩
  · rintro ⟨p, prunable, rfl⟩
    obtain ⟨registered, group, service, cluster, unwanted, owned⟩ := (applied.unwanted_iff all clean).mpr prunable
    have pair : p.pair = clusterKeyOf ins := by rw [InstanceParams.pair, service, cluster]
    rw [← input, ← pair] at unwanted
    rw [← pair] at clean
    have desired : p.pair ∈ (run.pruneInput threads).desiredKeys := by
      rw [input]
      exact mem_desiredKeys.mpr ⟨clean, ins, operation, item, pair.symm⟩
    obtain ⟨before, label, later, split, deregisters⟩ :=
      pruned_deregisters stage all done registered group owned (.inl desired) clean unwanted
    exact ⟨before, label, later, p, split, deregisters, pair, rfl⟩

end Prune

variable {world : World}

def Stage.writers : Stage → Option (List Thread)
  | .applying threads => some threads
  | _ => none

theorem applying_of_writers {stage : Stage} {β : Type} {f : List Thread → β} {value : β}
    (known : stage.writers.map f = some value) : ∃ threads, stage = .applying threads ∧ f threads = value := by
  cases stage with
  | applying threads => exact ⟨threads, rfl, Option.some.inj known⟩
  | sweeping applied listed threads => cases known
  | returned err => cases known

def billingInstance : Instance :=
  { instanceId := "i-3", appCode := "billing", provider := "k8s", ip := "10.0.0.4", status := instanceStatusOnline }

def oldOrder : Instance :=
  { instanceId := "i-4", appCode := "orders", provider := "k8s", ip := "10.0.0.5", status := instanceStatusOnline }

def twoServices : PushRun :=
  PushRun.start idConfig
    { catalog := (Catalog.register {} (registerParams idConfig.lib idConfig.group oldOrder)).register
        (registerParams idConfig.lib idConfig.group vanishedInstance) }
    [some orderInstance, some billingInstance]

/-- Both items are written; the second write gets the given answer. -/
def twoWrites (answer : Answer) : List PushStep :=
  List.replicate 4 (PushStep.move 0 .done) ++
    [PushStep.move 1 .done, PushStep.move 1 .done, PushStep.move 1 answer, PushStep.move 1 .done]

/-- The prune's removals of the given number, one after the other. -/
def sweeps (count : ℕ) : List PushStep := (List.range count).flatMap fun index => List.replicate 3 (.move index .done)

end Spotter.Nacos
