import Spotter.Nacos.Footprint

/-! # What a full push leaves in the catalog

A full push that returns without an error leaves exactly the snapshot's hosts in the wire clusters it
pushed to, for every schedule of its threads and every behaviour of the network. Whether or not it
returns, it deregisters only hosts with the owner mark and touches no other wire cluster.

While the writes run, every acknowledged item is present. The removals are planned from the catalog that
the writes leave: of the owned hosts there, those with a snapshot item's id stay and all others go.
-/

namespace Spotter.Nacos

open Library Domain Ports

/-- An online or unhealthy instance with a provider, as full snapshots contain them. -/
def Registrable (ins : Instance) : Prop :=
  (ins.status = instanceStatusOnline ∨ ins.status = instanceStatusUnhealthy) ∧ ins.provider ≠ ""

/-- The host was written by this sink's register for a registrable instance. -/
def Written (config : Config) (p : InstanceParams) : Prop :=
  ∃ ins, Registrable ins ∧ ins.ip ≠ "" ∧ config.lib.toPayloadCodec.RoundTrips ins ∧ p = registerParams config.lib config.group ins

/-- The composite ids of the owned hosts of a pair. -/
def ownedIDs (config : Config) (catalog : Catalog) (key : ClusterKey) : Set String :=
  { id | ∃ p ∈ catalog.entries, p.Owned ∧ p.groupName = effectiveGroup config.group ∧ p.serviceName = key.service ∧
    p.clusterName = key.cluster ∧ p.key.compositeID = id }

/-- The composite ids of the snapshot's instances of a pair that have an address. -/
def snapshotIDs (config : Config) (snapshot : Instances) (key : ClusterKey) : Set String :=
  { id | ∃ ins, some ins ∈ snapshot ∧ clusterKeyOf ins = key ∧ ins.ip ≠ "" ∧ compositeIDWithGroup ins config.group = id }

variable {config : Config} {initial catalog : Catalog} {snapshot : Instances} {ins : Instance}
  {p : InstanceParams} {operation : BatchOperation} {key : ClusterKey} {skipped : List ClusterKey}

/-- The registration of an instance reads back as the instance, except for the first port and a missing provider. -/
theorem readBack_registration (roundTrips : config.lib.toPayloadCodec.RoundTrips ins) :
    readBack config (registerParams config.lib config.group ins) =
      { canonical ins with
        ports := some (withFirstPort (ins.ports.getD []) (int32 (firstPort ins)))
        provider := if ins.provider = "" then clusterOf ins else ins.provider } := by
  set host := (registerParams config.lib config.group ins).host with hostDef
  have bits : host.enabled = (persistentWireFlags ins true).1 := rfl
  have id : host.metadata.value "instanceId" = ins.instanceId := by
    simp [hostDef, registerParams, InstanceParams.host, metadataOf, StringMap.value]
  have instanceId : (if ins.instanceId = "" then host.metadata.value "instanceId" else ins.instanceId) = ins.instanceId := by
    rw [id, ite_self]
  have enabled : (if ins.status ≠ instanceStatusUnhealthy then host.enabled else ins.enabled) = ins.enabled := by
    split_ifs with healthy
    · rw [bits, persistentWireFlags, if_neg healthy]
    · rfl
  -- The SDK transport writes unhealthy hosts as enabled ones, so the revision is kept.
  have transported : reconstructForTransport config.lib ins.appCode host true = restore ins.appCode host (canonical ins) := by
    rw [reconstructForTransport, reconstruct_of_metadataOf rfl roundTrips]
    apply if_neg
    rintro ⟨_, unhealthy, disabled⟩
    rw [bits, persistentWireFlags, if_pos (show ins.status = instanceStatusUnhealthy from unhealthy)] at disabled
    cases disabled
  calc readBack config (registerParams config.lib config.group ins)
      = { canonical ins with
          ip := host.ip
          ports := some (withFirstPort (ins.ports.getD []) (int32 host.port))
          provider := if ins.provider = "" then host.clusterName else ins.provider
          enabled := if ins.status ≠ instanceStatusUnhealthy then host.enabled else ins.enabled
          instanceId := if ins.instanceId = "" then host.metadata.value "instanceId" else ins.instanceId } := transported
    _ = _ := by
        rw [enabled, instanceId]
        rfl

/-- A host that this sink wrote reads back as an instance of its own pair. -/
theorem Written.readsBack (written : Written config p) : ReadsBack config p := by
  obtain ⟨ins, ⟨status, provider⟩, _, roundTrips, rfl⟩ := written
  rw [ReadsBack, ReadsBackAs, readBack_registration roundTrips, if_neg provider]
  refine ⟨rfl, ?_⟩
  change ins.status ∈ allStatuses
  rcases status with online | unhealthy
  · simp [online, allStatuses]
  · simp [unhealthy, allStatuses]

/-! ## What the prune wants -/

theorem offline_of_operation (known : persistentBatchOperation ins.status = some operation) :
    ins.offline = decide (operation = .deregister) := by
  simp only [persistentBatchOperation] at known
  split_ifs at known with register offline
  · cases known
    rcases register with online | unhealthy
    · rw [Instance.offline, online]
      rfl
    · rw [Instance.offline, unhealthy]
      rfl
  · cases known
    rw [Instance.offline, offline]
    rfl

theorem Item.desired (item : Item snapshot operation ins) (applied : clusterKeyOf ins ∉ skipped) :
    clusterKeyOf ins ∈ (⟨snapshot, [], skipped⟩ : PruneInput).desiredKeys :=
  mem_desiredKeys.mpr ⟨applied, ins, operation, item, rfl⟩

/-- The ids that a pair without failures should have are those of its registered items. -/
theorem mem_wanted_item (applied : key ∉ skipped) {id : String} : id ∈ (⟨snapshot, [], skipped⟩ : PruneInput).wanted config key ↔
      ∃ ins, Item snapshot .register ins ∧ clusterKeyOf ins = key ∧ compositeIDWithGroup ins config.group = id := by
  simp only [PruneInput.wanted, List.mem_map, List.mem_filter, Bool.and_eq_true, decide_eq_true_eq, mem_kept]
  constructor
  · rintro ⟨ins, ⟨⟨⟨operation, item⟩, _⟩, own, online⟩, rfl⟩
    cases operation with
    | register => exact ⟨ins, item, own, rfl⟩
    | deregister =>
      rw [offline_of_operation item.2] at online
      cases online
  · rintro ⟨ins, item, rfl, rfl⟩
    refine ⟨ins, ⟨⟨⟨_, item⟩, applied⟩, rfl, ?_⟩, rfl⟩
    rw [offline_of_operation item.2]
    rfl

theorem Registrable.item (registrable : Registrable ins) (member : some ins ∈ snapshot) : Item snapshot .register ins :=
  ⟨member, if_pos registrable.1⟩

theorem Registrable.registers (registrable : Registrable ins) (item : Item snapshot operation ins) : operation = .register :=
  Option.some.inj (item.2.symm.trans (if_pos registrable.1))

/-- Within a pair, the composite id determines the host. -/
theorem key_of_compositeID (group : p.groupName = effectiveGroup config.group)
    (pair : clusterKeyOf ins = p.pair)
    (same : compositeIDWithGroup ins config.group = p.key.compositeID) : p.key = instanceTarget config ins := by
  have service : ins.appCode = p.serviceName := congrArg ClusterKey.service pair
  have cluster : clusterOf ins = p.clusterName := congrArg ClusterKey.cluster pair
  simp only [compositeIDWithGroup, HostKey.compositeID, InstanceParams.key, service, cluster, group] at same
  obtain ⟨ip, port⟩ := endpoint_of_compositeText same
  rw [InstanceParams.key, instanceTarget, service, cluster, group, ip, port]

/-! ## The writes -/

/-- The catalog has an owned host under the instance's key. -/
def Present (config : Config) (catalog : Catalog) (ins : Instance) : Prop :=
  ∃ p ∈ catalog.entries, p.key = instanceTarget config ins ∧ p.Owned

theorem present_register {other : Instance} (present : Present config catalog other ∨ other = ins) :
    Present config (catalog.register (registerParams config.lib config.group ins)) other := by
  by_cases same : instanceTarget config other = instanceTarget config ins
  · exact ⟨_, Catalog.mem_register.mpr (.inl rfl), registerParams_key.trans same.symm, registerParams_owned⟩
  · rcases present with ⟨p, registered, key, owned⟩ | rfl
    · refine ⟨p, Catalog.mem_register.mpr (.inr ⟨registered, ?_⟩), key, owned⟩
      rw [key]
      exact same
    · exact absurd rfl same

/-- While a registrable snapshot is written: every acknowledged item with an address is present. -/
structure Registering (config : Config) (initial : Catalog) (snapshot : Instances) (catalog : Catalog)
    (threads : List Thread) : Prop extends Applied config initial snapshot catalog threads where
  present : ∀ t ∈ threads, t.phase.Acknowledged → ∀ ins, t.job = .register ins → ins.ip ≠ "" → Present config catalog ins

theorem registering_start : Registering config initial snapshot initial (batchThreads snapshot) := by
  refine ⟨applied_start, ?_⟩
  intro t member done
  obtain ⟨_, _, _, _, _, phase⟩ := mem_batchThreads member
  rw [phase] at done
  exact done.elim

variable {world : World} {threads : List Thread} {index : ℕ} {answer : Answer}

theorem Registering.move (registrable : ∀ ins, some ins ∈ snapshot → Registrable ins)
    (registering : Registering config initial snapshot world.catalog threads) :
    Registering config initial snapshot (moveThread config world threads index answer).1.catalog
      (moveThread config world threads index answer).2 := by
  refine ⟨registering.toApplied.move, ?_⟩
  rcases moveThread_cases with same | ⟨t, member, moved, _⟩
  · rw [same]
    exact registering.present
  · obtain ⟨ins, operation, item, job, _, _⟩ := registering.origin t member
    cases (registrable ins item.1).registers item
    have spec := act_item config world t.phase answer .register ins
    rw [moved]
    rw [← job] at spec
    intro u among done other own address
    rcases spec with ⟨catalog, quiet⟩ | ⟨_, catalog⟩
    · rw [catalog]
      rcases List.mem_or_eq_of_mem_set among with earlier | rfl
      · exact registering.present u earlier done other own address
      · rcases quiet done with already | empty
        · exact registering.present t member already other own address
        · cases job.symm.trans own
          exact absurd empty address
    · rw [catalog]
      rcases List.mem_or_eq_of_mem_set among with earlier | rfl
      · exact present_register (.inl (registering.present u earlier done other own address))
      · cases job.symm.trans own
        exact present_register (.inr rfl)

/-! ## The removals -/

section Removals

variable {mid : World} {writers : List Thread} {tasks : List PruneTask}
  (discovered : Discovered config (fun world threads => Registering config initial snapshot world.catalog threads) snapshot []
    mid writers tasks none)
  (clean : failures writers = [])

include discovered clean

/-- An owned host of a pushed wire cluster that the plan spares has a snapshot item's id. -/
theorem spared_is_wanted (written : ∀ p ∈ initial.entries, p.Owned → Written config p)
    (registered : p ∈ mid.catalog.entries) (owned : p.Owned) (pushes : Pushes snapshot p.clusterName) (spared : ∀ task ∈ tasks, p.key ≠ task.target config) :
    ∃ ins, some ins ∈ snapshot ∧ clusterKeyOf ins = p.pair ∧ ins.ip ≠ "" ∧
      compositeIDWithGroup ins config.group = p.key.compositeID := by
  obtain ⟨reads, planned⟩ := discovered.planned
  rw [clean, List.map_nil] at planned
  obtain ⟨ins, operation, item, cluster⟩ := pushes
  have pushed : p.clusterName ∈ (⟨snapshot, [], []⟩ : PruneInput).pushedClusters :=
    cluster ▸ desiredKeys_cluster (item.desired List.not_mem_nil)
  have facts : p.groupName = effectiveGroup config.group ∧ p.ip ≠ "" ∧
      Looked config mid.catalog mid.ownership ⟨snapshot, [], []⟩ p.pair := by
    rcases discovered.held.known p registered with early | ⟨ins, item, address, rfl⟩
    · have readsBack := (written p early owned).readsBack
      obtain ⟨ins, _, address, _, rfl⟩ := written p early owned
      exact ⟨rfl, address, .inr ⟨pushed, .inr ⟨_, registered, rfl, owned, readsBack⟩⟩⟩
    · exact ⟨rfl, address, .inl (item.desired List.not_mem_nil)⟩
  obtain ⟨group, address, looked⟩ := facts
  have wanted : p.key.compositeID ∈ (⟨snapshot, [], []⟩ : PruneInput).wanted config p.pair := by
    by_contra unwanted
    obtain ⟨task, among, target⟩ := (mem_prunePlan_iff planned registered group).mpr ⟨owned, looked, List.not_mem_nil, unwanted⟩
    exact spared task among target
  obtain ⟨ins, item, own, same⟩ := (mem_wanted_item List.not_mem_nil).mp wanted
  refine ⟨ins, item.1, own, ?_, same⟩
  -- Within the pair the id determines the address, and an owned host has one.
  have key := key_of_compositeID group own same
  exact fun empty => address ((congrArg HostKey.ip key).trans empty)

/-- No planned removal is of a snapshot item. -/
theorem item_is_spared (item : Item snapshot .register ins) (target : p.key = instanceTarget config ins) :
    ∀ task ∈ tasks, p.key ≠ task.target config := by
  intro task among same
  obtain ⟨reads, planned⟩ := discovered.planned
  rw [clean, List.map_nil] at planned
  obtain ⟨_, _, q, _, key, _, unwanted⟩ := prunePlan_sound planned among
  have pair : clusterKeyOf ins = task.key := congrArg HostKey.pair (target.symm.trans same)
  refine unwanted ((mem_wanted_item List.not_mem_nil).mpr ⟨ins, item, pair, ?_⟩)
  rw [key, ← same, target, instanceTarget_compositeID]

/-- When every removal has been acknowledged, the pushed wire clusters hold the snapshot. -/
theorem exact_of_cleared (written : ∀ p ∈ initial.entries, p.Owned → Written config p)
    (registrable : ∀ ins, some ins ∈ snapshot → Registrable ins) (cleared : Cleared config mid.catalog tasks catalog)
    (key : ClusterKey) (pushes : Pushes snapshot key.cluster) :
    ownedIDs config catalog key = snapshotIDs config snapshot key := by
  ext id
  constructor
  · rintro ⟨p, registered, owned, _, service, cluster, rfl⟩
    obtain ⟨early, spared⟩ := (cleared p).mp registered
    obtain ⟨ins, member, own, address, same⟩ := spared_is_wanted discovered clean written early owned (cluster ▸ pushes) spared
    refine ⟨ins, member, ?_, address, same⟩
    rw [own, InstanceParams.pair, service, cluster]
  · rintro ⟨ins, member, rfl, address, rfl⟩
    have item := (registrable ins member).item member
    obtain ⟨t, writer, made⟩ := List.mem_map.mp (discovered.held.covers ins .register item)
    have done := acknowledged_of_allFinished discovered.finished writer (error_of_failures clean writer)
    obtain ⟨p, registered, target, owned⟩ := discovered.held.present t writer done ins (congrArg Prod.fst made) address
    have present := (cleared p).mpr ⟨registered, item_is_spared discovered clean item target⟩
    have service : p.serviceName = ins.appCode := congrArg HostKey.service target
    have group : p.groupName = effectiveGroup config.group := congrArg HostKey.group target
    have cluster : p.clusterName = clusterOf ins := congrArg HostKey.cluster target
    exact ⟨p, present, owned, group, service, cluster, by rw [target, instanceTarget_compositeID]⟩

end Removals

/-! ## The whole run -/

/-- A full push leaves the wire clusters that it does not push to as they were. -/
theorem unchanged_after (history : List PushStep) (elsewhere : ¬Pushes snapshot p.clusterName) :
    p ∈ ((PushRun.start config world snapshot).after config history).world.catalog.entries ↔ p ∈ world.catalog.entries := by
  induction history using List.reverseRecOn with
  | nil => exact Iff.rfl
  | append_singleton earlier label ih =>
    have traced : Traced config (Writes config world.catalog snapshot)
        ((PushRun.start config world snapshot).after config earlier) :=
      traced_after applied_moves (traced_start applied_start) earlier
    obtain ⟨instances, scopes⟩ := after_fixed config (PushRun.start config world snapshot) earlier
    rw [PushRun.after_append]
    generalize (PushRun.start config world snapshot).after config earlier = run at *
    have held := traced.step applied_moves label
    have steps := run.step_steps config label
    generalize run.step config label = next at steps held ⊢
    rw [Traced] at held
    cases steps with
    | rests | discovers | leaves => exact ih
    | applies => exact held.unchanged elsewhere
    | sweeps =>
      obtain ⟨mid, writers, tasks, discovered, _, swept⟩ := held
      rw [← discovered.held.unchanged elsewhere]
      refine ⟨swept.shrinks p, fun present => swept.keeps p present ?_⟩
      intro task among key
      rw [instances, scopes] at discovered
      exact elsewhere ((discovered.task among present key).2.resolve_left List.not_mem_nil)

/-- For every schedule and every behaviour of the network: a full push of registrable instances deregisters only
hosts with the owner mark, leaves the hosts of other wire clusters as they were and, if it returns without an error,
leaves exactly the snapshot's instances with an address in each pair of its wire clusters. -/
theorem pushAll_exact {history : List PushStep} (written : ∀ p ∈ world.catalog.entries, p.Owned → Written config p)
    (registrable : ∀ ins, some ins ∈ snapshot → Registrable ins) :
    let start := PushRun.start config world snapshot
    let final := start.after config history
    (final.stage = .returned none → ∀ key, Pushes snapshot key.cluster →
      ownedIDs config final.world.catalog key = snapshotIDs config snapshot key) ∧
    History.AllSteps (fun before label => ∀ p, Deregisters config (start.after config before) label p → p.Owned) history ∧
    ∀ p, ¬Pushes snapshot p.clusterName → (p ∈ final.world.catalog.entries ↔ p ∈ world.catalog.entries) := by
  intro start final
  have fixed : ∀ earlier, (start.after config earlier).instances = snapshot ∧ (start.after config earlier).scopes = [] :=
    fun earlier => after_fixed config start earlier
  refine ⟨?_, ?_, fun p elsewhere => unchanged_after history elsewhere⟩
  · intro returned
    have moves : MoveInvariant config fun world' threads => Registering config world.catalog snapshot world'.catalog threads :=
      fun _ _ _ _ => Registering.move registrable
    have begins : Traced config (fun world' threads => Registering config world.catalog snapshot world'.catalog threads) start :=
      traced_start registering_start
    have traced := traced_after moves begins history
    rw [Traced, returned] at traced
    obtain ⟨mid, writers, tasks, discovered, clean, cleared⟩ := traced
    rw [(fixed history).1, (fixed history).2] at discovered
    exact exact_of_cleared discovered clean written registrable cleared
  · rintro before label rest rfl p deregisters
    obtain ⟨instances, scopes⟩ := fixed before
    have traced : Traced config (Writes config world.catalog (start.after config before).instances)
        (start.after config before) := by
      rw [instances]
      exact traced_after applied_moves (traced_start applied_start) before
    rcases traced.deregisters deregisters with ⟨_, ins, item, _⟩ | ⟨mid, writers, tasks, listed, discovered, present, task, member, key⟩
    · rw [instances] at item
      cases (registrable ins item.1).registers item
    · exact (discovered.task member present key).1

/-! ### A service that vanished

The catalog has a host of the service that vanished, a host of another provider and one that someone else
registered; the snapshot has one instance of another service.
-/

def vanishedInstance : Instance :=
  { instanceId := "i-0", appCode := "billing", provider := "k8s", ip := "10.0.0.1", status := instanceStatusOnline }

def consulInstance : Instance :=
  { instanceId := "i-1", appCode := "billing", provider := "ecs", ip := "10.0.0.2", status := instanceStatusOnline }

def orderInstance : Instance :=
  { instanceId := "i-2", appCode := "orders", provider := "k8s", ip := "10.0.0.3", status := instanceStatusUnhealthy }

def manualHost : InstanceParams where
  serviceName := "orders"
  ip := "10.0.0.9"
  port := 80
  clusterName := "k8s"
  groupName := defaultGroup
  enabled := true
  healthy := true
  metadata := ∅

/-- Libraries that serialise an instance as its id. -/
def idConfig : Config where
  lib :=
    { marshal := Instance.instanceId
      unmarshal := fun text => [vanishedInstance, consulInstance].find? fun ins => decide (ins.instanceId = text)
      compress := id
      decompress := some
      formatFloat := fun _ => "0"
      parseFloat := fun _ => none }

def vanishedWorld : World where
  catalog := ((Catalog.register {} manualHost).register (registerParams idConfig.lib idConfig.group consulInstance)).register
      (registerParams idConfig.lib idConfig.group vanishedInstance)

/-- The item's thread runs to its end, the prune reads, and its one removal runs to its end. -/
def vanishedHistory : List PushStep :=
  List.replicate 4 (PushStep.move 0 .done) ++ [PushStep.discover {}] ++
    List.replicate 3 (PushStep.move 0 .done) ++ [PushStep.leave]

theorem pushAll_exact_vanishedService :
    let final := (PushRun.start idConfig vanishedWorld [some orderInstance]).after idConfig vanishedHistory
    final.stage = .returned none ∧
      ownedIDs idConfig final.world.catalog ⟨"billing", "k8s"⟩ = snapshotIDs idConfig [some orderInstance] ⟨"billing", "k8s"⟩ := by
  have written : ∀ p ∈ vanishedWorld.catalog.entries, p.Owned → Written idConfig p := by
    intro p member owned
    rcases Catalog.mem_register.mp member with rfl | ⟨member, _⟩
    · exact ⟨vanishedInstance, ⟨.inl rfl, by decide⟩, by decide, by decide, rfl⟩
    rcases Catalog.mem_register.mp member with rfl | ⟨member, _⟩
    · exact ⟨consulInstance, ⟨.inl rfl, by decide⟩, by decide, by decide, rfl⟩
    rcases Catalog.mem_register.mp member with rfl | ⟨nowhere, _⟩
    · exact absurd owned (by decide)
    · cases nowhere
  have registrable : ∀ ins, some ins ∈ [some orderInstance] → Registrable ins := by
    intro ins member
    cases List.mem_singleton.mp member
    exact ⟨.inr rfl, by decide⟩
  have returned : ((PushRun.start idConfig vanishedWorld [some orderInstance]).after idConfig vanishedHistory).stage =
      .returned none := by decide +kernel
  have pushes : Pushes [some orderInstance] "k8s" := ⟨orderInstance, .register, ⟨List.mem_singleton.mpr rfl, by decide⟩, by decide⟩
  exact ⟨returned, (pushAll_exact written registrable).1 returned ⟨"billing", "k8s"⟩ pushes⟩

end Spotter.Nacos
