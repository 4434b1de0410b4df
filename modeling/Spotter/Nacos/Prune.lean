import Spotter.Nacos.Ownership

/-! # What a full push removes

After its writes, a full push removes the hosts of its wire clusters that the snapshot does not
contain. The pairs to look at are the snapshot's, the remembered ones of the pushed clusters and those
found by reading the whole catalog back; hosts of other clusters and hosts without the owner mark are
left alone. Maps that the source ranges over are lists here: the order only decides which of several
errors is returned. The server's answer for a pair it does not know is read as an empty listing.
-/

namespace Spotter.Nacos

open Library Domain Ports

/-- The sink's configuration: libraries, group name, and whether the SDK has the persistent operations. -/
structure Config where
  lib : WireLib
  group : String := defaultGroup
  persistentVendor : Bool := true

/-! ## Reading the catalog back -/

variable (config : Config) (catalog : Catalog)

/-- The instances of a service's hosts that `GetAll` selects. -/
def selectInstances (statuses : List ℤ) (provider service : String) :
    List Instance :=
  let owned := (catalog.selectAll (effectiveGroup config.group) service "").filter fun host => ownerMarked host.metadata
  (owned.map fun host => reconstructForTransport config.lib service host true).filter fun ins =>
    decide (provider = "" ∨ ins.provider = provider ∨ clusterOf ins = provider) && statusAllowed statuses ins.status

/-- The loop of `GetAll` over the services, given the errors of the service listings. -/
def getAllFrom (config : Config) (catalog : Catalog) (listing : String → Option GoError) (statuses : List ℤ)
    (provider : String) : List String → Except GoError (List Instance)
  | [] => .ok []
  | service :: rest =>
    match listing service, getAllFrom config catalog listing statuses provider rest with
    | some err, _ => .error err
    | none, .error err => .error err
    | none, .ok later => .ok (selectInstances config catalog statuses provider service ++ later)

/-- `GetAll`, given the errors of its reads: the session and the service list, and each service's listing. -/
def getAll (services : Option GoError) (listing : String → Option GoError)
    (statuses : List ℤ) (provider : String) : Except GoError (List Instance) :=
  match services with
  | some err => .error err
  | none =>
    getAllFrom config catalog listing statuses provider (catalog.listServices (effectiveGroup config.group))

/-! ## The pairs and the hosts to remove -/

/-- The errors of the reads of one prune; every read happens once. -/
structure PruneReads where
  services : String → Option GoError := fun _ => none
  listing : String → String → Option GoError := fun _ _ => none
  session : Option GoError := none
  pair : ClusterKey → Option GoError := fun _ => none

/-- A host to deregister under a pair. -/
structure PruneTask where
  key : ClusterKey
  host : Host
deriving DecidableEq

/-- The host key a prune task deregisters. -/
def PruneTask.target (task : PruneTask) : HostKey :=
  ⟨task.key.service, effectiveGroup config.group, task.key.cluster, task.host.ip, task.host.port⟩

/-- What a prune is about: the snapshot, the explicit scopes and the pairs whose writes failed. -/
structure PruneInput where
  instances : Instances
  scopes : List String := []
  skipped : List ClusterKey := []

namespace PruneInput

variable (input : PruneInput)

/-- The instances that the prune takes as desired or as removed. -/
def kept : List Instance :=
  input.instances.reduceOption.filter fun ins =>
    (persistentBatchOperation ins.status).isSome && decide (clusterKeyOf ins ∉ input.skipped)

def pushedClusters : List String :=
  (input.scopes.filter (fun scope => decide (scope ≠ "")) ++ input.kept.map clusterOf).dedup

def desiredKeys : List ClusterKey := (input.kept.map clusterKeyOf).dedup

/-- The composite ids a pair should have. -/
def wanted (config : Config) (key : ClusterKey) : List String :=
  (input.kept.filter fun ins => decide (clusterKeyOf ins = key) && !ins.offline).map fun ins =>
    compositeIDWithGroup ins config.group

end PruneInput

/-- The statuses the discovery asks for. -/
def allStatuses : List ℤ := [instanceStatusOnline, instanceStatusUnhealthy, instanceStatusOffline]

/-- The owned pairs that reading the catalog back finds for each cluster. -/
def discoverPairs (config : Config) (catalog : Catalog) (reads : PruneReads) (skipped : List ClusterKey) :
    List String → Except GoError (List ClusterKey)
  | [] => .ok []
  | cluster :: rest =>
    match getAll config catalog (reads.services cluster) (reads.listing cluster) allStatuses cluster,
        discoverPairs config catalog reads skipped rest with
    | .error err, _ => .error (.wrapped ("nacos: prune discover owned pairs for cluster " ++ cluster ++ ": %w") err)
    | .ok _, .error err => .error err
    | .ok remote, .ok later =>
      let own := remote.filter fun item => decide (clusterOf item = cluster ∧ clusterKeyOf item ∉ skipped)
      .ok (own.map clusterKeyOf ++ later)

/-- The hosts of a pair that are to go. -/
def unwantedHosts (input : PruneInput) (key : ClusterKey) : List Host :=
  (catalog.selectAll (effectiveGroup config.group) key.service key.cluster).filter fun host =>
    decide (host.clusterName = key.cluster ∧ host.instanceID ∉ input.wanted config key) && ownerMarked host.metadata

/-- The listing of every pair: the tasks and the first error. -/
def pruneTasks (config : Config) (catalog : Catalog) (reads : PruneReads) (input : PruneInput) :
    List ClusterKey → List PruneTask × Option GoError
  | [] => ([], none)
  | key :: rest =>
    let (tasks, later) := pruneTasks config catalog reads input rest
    if key ∈ input.skipped then (tasks, later)
    else
      match reads.pair key with
      | some err =>
        (tasks, some (.wrapped ("nacos: prune list " ++ key.service ++ "/" ++ key.cluster ++ ": %w") err))
      | none => ((unwantedHosts config catalog input key).map (PruneTask.mk key) ++ tasks, later)

/-- The reading half of `pruneScopedWithSkippedScopes`: the remembered pairs grow, and either a read ends the
prune or the tasks and the first listing error are known. -/
def prunePlan (o : Ownership) (reads : PruneReads) (input : PruneInput) :
    Ownership × Except GoError (List PruneTask × Option GoError) :=
  let remembered := (input.desiredKeys ++ o.remembered).dedup
  let plan :=
    match discoverPairs config catalog reads input.skipped input.pushedClusters, reads.session with
    | .error err, _ => .error err
    | .ok _, some err => .error err
    | .ok discovered, none =>
      let known := remembered.filter fun key => decide (key.cluster ∈ input.pushedClusters)
      .ok (pruneTasks config catalog reads input (input.desiredKeys ++ known ++ discovered).dedup)
  ({ o with remembered := remembered }, plan)

/-! ## What the reads find -/

variable {config : Config} {catalog : Catalog} {input : PruneInput} {reads : PruneReads} {p : InstanceParams}

/-- The instance that a host reads back as. -/
def readBack (config : Config) (p : InstanceParams) : Instance :=
  reconstructForTransport config.lib p.serviceName p.host true

/-- `GetAll` asks for the host: it is an owned one of the group and has the provider or the wire cluster, and a status
that is asked for. -/
def Selects (config : Config) (statuses : List ℤ) (provider : String) (p : InstanceParams) : Prop :=
  p.groupName = effectiveGroup config.group ∧ p.Owned ∧
    (provider = "" ∨ (readBack config p).provider = provider ∨ clusterOf (readBack config p) = provider) ∧
    statusAllowed statuses (readBack config p).status = true

instance (config : Config) (statuses : List ℤ) (provider : String) : DecidablePred (Selects config statuses provider) :=
  fun _ => inferInstanceAs (Decidable (_ ∧ _))

section Reads

variable {statuses : List ℤ} {provider : String}

theorem selectInstances_eq (service : String) : selectInstances config catalog statuses provider service =
    (catalog.entries.filter fun p => decide (p.serviceName = service ∧ Selects config statuses provider p)).map (readBack config) := by
  simp only [selectInstances, Catalog.selectAll, List.filter_map, List.map_map, List.filter_filter]
  refine (List.map_congr_left fun p member => ?_).trans (congrArg (List.map (readBack config)) (List.filter_congr fun p _ => ?_))
  · simp only [List.mem_filter, Bool.and_eq_true, decide_eq_true_eq] at member
    rw [readBack, member.2.2.2.2.1]
    rfl
  · rw [Bool.eq_iff_iff]
    simp only [Function.comp, Bool.and_eq_true, decide_eq_true_eq, true_or, and_true]
    constructor
    · rintro ⟨asked, owned, group, rfl⟩
      exact ⟨rfl, group, owned, asked⟩
    · rintro ⟨rfl, group, owned, asked⟩
      exact ⟨asked, owned, group, rfl⟩

theorem getAllFrom_eq (listing : String → Option GoError) (names : List String) :
    getAllFrom config catalog listing statuses provider names =
      (names.findSome? listing).elim (.ok (names.flatMap (selectInstances config catalog statuses provider))) .error := by
  induction names with
  | nil => rfl
  | cons name rest ih =>
    rw [getAllFrom, ih, List.findSome?_cons]
    cases listing name with
    | some err => rfl
    | none => cases rest.findSome? listing <;> rfl

variable {services : Option GoError} {listing : String → Option GoError} {items : List Instance}
  (read : getAll config catalog services listing statuses provider = .ok items)

include read

/-- `GetAll` reads back every host that it asks for, once. -/
theorem getAll_hosts : ∃ hosts : List InstanceParams, hosts.Nodup ∧ hosts.map (readBack config) = items ∧
    ∀ p, p ∈ hosts ↔ p ∈ catalog.entries ∧ Selects config statuses provider p := by
  cases services with
  | some err => cases read
  | none =>
    rw [getAll, getAllFrom_eq] at read
    cases failed : (catalog.listServices (effectiveGroup config.group)).findSome? listing <;> rw [failed] at read <;> cases read
    rw [List.flatMap_congr fun service _ => selectInstances_eq service, ← List.map_flatMap]
    refine ⟨_, List.nodup_flatMap.mpr ⟨fun service _ => catalog.keys_nodup.of_map.filter _, ?_⟩, rfl, fun p => ?_⟩
    · refine (List.nodup_dedup _).imp fun apart p first second => ?_
      simp only [List.mem_filter, decide_eq_true_eq] at first second
      exact apart (first.2.1.symm.trans second.2.1)
    · simp only [List.mem_flatMap, List.mem_filter, Catalog.mem_listServices, decide_eq_true_eq]
      constructor
      · rintro ⟨service, _, registered, _, selected⟩
        exact ⟨registered, selected⟩
      · rintro ⟨registered, selected⟩
        exact ⟨p.serviceName, ⟨p, registered, selected.1, rfl⟩, registered, rfl, selected⟩

theorem mem_getAll {ins : Instance} :
    ins ∈ items ↔ ∃ p ∈ catalog.entries, Selects config statuses provider p ∧ readBack config p = ins := by
  obtain ⟨hosts, _, rfl, selected⟩ := getAll_hosts read
  simp only [List.mem_map, selected, and_assoc]

end Reads

/-- A host that reads back as an instance of the pair. -/
def ReadsBackAs (config : Config) (p : InstanceParams) (key : ClusterKey) : Prop :=
  clusterKeyOf (readBack config p) = key ∧ (readBack config p).status ∈ allStatuses

/-- A host that reads back as an instance of its own pair. -/
def ReadsBack (config : Config) (p : InstanceParams) : Prop := ReadsBackAs config p p.pair

/-- Some owned host reads back as an instance of the pair. -/
def Discovers (config : Config) (catalog : Catalog) (key : ClusterKey) : Prop :=
  ∃ p ∈ catalog.entries, p.groupName = effectiveGroup config.group ∧ p.Owned ∧ ReadsBackAs config p key

variable {key : ClusterKey}

/-- Discovery finds the pairs of the clusters that some owned host reads back in. -/
theorem mem_discoverPairs {skipped : List ClusterKey} {clusters : List String} {pairs : List ClusterKey}
    (read : discoverPairs config catalog reads skipped clusters = .ok pairs) :
    key ∈ pairs ↔ key.cluster ∈ clusters ∧ key ∉ skipped ∧ Discovers config catalog key := by
  induction clusters generalizing pairs with
  | nil =>
    cases read
    simp
  | cons head rest ih =>
    simp only [discoverPairs] at read
    split at read
    · cases read
    · cases read
    · next remote later first rest_read =>
      cases read
      have own : key ∈ (remote.filter fun item => decide (clusterOf item = head ∧ clusterKeyOf item ∉ skipped)).map clusterKeyOf ↔
          key.cluster = head ∧ key ∉ skipped ∧ Discovers config catalog key := by
        simp only [List.mem_map, List.mem_filter, decide_eq_true_eq, mem_getAll first]
        constructor
        · rintro ⟨_, ⟨⟨p, registered, ⟨group, owned, _, status⟩, rfl⟩, cluster, applied⟩, rfl⟩
          exact ⟨cluster, applied, p, registered, group, owned, rfl, by simpa [statusAllowed, allStatuses] using status⟩
        · rintro ⟨cluster, applied, p, registered, group, owned, rfl, status⟩
          have selected : Selects config allStatuses head p := ⟨group, owned, .inr (.inr cluster), by simp [statusAllowed, status]⟩
          exact ⟨_, ⟨⟨p, registered, selected, rfl⟩, cluster, applied⟩, rfl⟩
      rw [List.mem_append, own, ih rest_read, List.mem_cons, or_and_right]

theorem mem_unwantedHosts {host : Host} : host ∈ unwantedHosts config catalog input key ↔
      ∃ p ∈ catalog.entries, p.groupName = effectiveGroup config.group ∧ p.serviceName = key.service ∧
        p.clusterName = key.cluster ∧ p.host.instanceID ∉ input.wanted config key ∧ p.Owned ∧ p.host = host := by
  simp only [unwantedHosts, List.mem_filter, Bool.and_eq_true, decide_eq_true_eq, Catalog.mem_selectAll]
  constructor
  · rintro ⟨⟨p, registered, group, service, _, rfl⟩, ⟨cluster, unwanted⟩, owned⟩
    exact ⟨p, registered, group, service, cluster, unwanted, owned, rfl⟩
  · rintro ⟨p, registered, group, service, cluster, unwanted, owned, rfl⟩
    exact ⟨⟨p, registered, group, service, .inr cluster, rfl⟩, ⟨cluster, unwanted⟩, owned⟩

theorem mem_pruneTasks {keys : List ClusterKey} {task : PruneTask}
    (member : task ∈ (pruneTasks config catalog reads input keys).1) :
    task.key ∈ keys ∧ task.key ∉ input.skipped ∧ task.host ∈ unwantedHosts config catalog input task.key := by
  induction keys with
  | nil => cases member
  | cons key rest ih =>
    simp only [pruneTasks] at member
    have later : task ∈ (pruneTasks config catalog reads input rest).1 →
        task.key ∈ key :: rest ∧ task.key ∉ input.skipped ∧ task.host ∈ unwantedHosts config catalog input task.key :=
      fun among => ⟨List.mem_cons_of_mem key (ih among).1, (ih among).2⟩
    split_ifs at member with skip
    · exact later member
    · split at member
      · exact later member
      · rcases List.mem_append.mp member with own | among
        · obtain ⟨host, unwanted, rfl⟩ := List.mem_map.mp own
          exact ⟨List.mem_cons_self, skip, unwanted⟩
        · exact later among

/-- Without an error, every pair that is not skipped contributes its unwanted hosts. -/
theorem pruneTasks_complete {keys : List ClusterKey} {host : Host}
    (clean : (pruneTasks config catalog reads input keys).2 = none) (member : key ∈ keys) (applied : key ∉ input.skipped)
    (unwanted : host ∈ unwantedHosts config catalog input key) :
    ⟨key, host⟩ ∈ (pruneTasks config catalog reads input keys).1 := by
  induction keys with
  | nil => cases member
  | cons head rest ih =>
    simp only [pruneTasks] at clean ⊢
    split_ifs at clean ⊢ with skip
    · rcases List.mem_cons.mp member with rfl | among
      · exact absurd skip applied
      · exact ih clean among
    · cases fault : reads.pair head with
      | some err => simp [fault] at clean
      | none =>
        simp only [fault] at clean
        rw [List.mem_append]
        rcases List.mem_cons.mp member with rfl | among
        · exact .inl (List.mem_map.mpr ⟨host, unwanted, rfl⟩)
        · exact .inr (ih clean among)

/-! ## What the plan removes -/

/-- The task of a listed host deregisters that host. -/
theorem target_of_host (group : p.groupName = effectiveGroup config.group) (service : p.serviceName = key.service)
    (cluster : p.clusterName = key.cluster) : (⟨key, p.host⟩ : PruneTask).target config = p.key := by
  obtain ⟨name, wire⟩ := key
  cases service
  cases cluster
  rw [InstanceParams.key, group]
  rfl

theorem desiredKeys_cluster (member : key ∈ input.desiredKeys) : key.cluster ∈ input.pushedClusters := by
  obtain ⟨ins, kept, rfl⟩ := List.mem_map.mp (List.mem_dedup.mp member)
  exact List.mem_dedup.mpr (List.mem_append_right _ (List.mem_map.mpr ⟨ins, kept, rfl⟩))

variable {o : Ownership} {tasks : List PruneTask}

/-- The prune looks at the pair: it is the snapshot's, or it is in a pushed wire cluster and remembered or discovered. -/
def Looked (config : Config) (catalog : Catalog) (o : Ownership) (input : PruneInput) (key : ClusterKey) : Prop :=
  key ∈ input.desiredKeys ∨ (key.cluster ∈ input.pushedClusters ∧ (key ∈ o.remembered ∨ Discovers config catalog key))

theorem Looked.cluster (looked : Looked config catalog o input key) : key.cluster ∈ input.pushedClusters :=
  looked.elim desiredKeys_cluster And.left

section

variable {listed : Option GoError} (planned : (prunePlan config catalog o reads input).2 = .ok (tasks, listed))

include planned

/-- The pairs a plan lists when its reads succeed. -/
theorem prunePlan_cases : ∃ keys, pruneTasks config catalog reads input keys = (tasks, listed) ∧
      ∀ key, key ∉ input.skipped → (key ∈ keys ↔ Looked config catalog o input key) := by
  simp only [prunePlan] at planned
  split at planned
  · cases planned
  · cases planned
  · next discovered found _ =>
    refine ⟨_, Except.ok.inj planned, fun key applied => ?_⟩
    simp only [List.mem_dedup, List.mem_append, List.mem_filter, decide_eq_true_eq, mem_discoverPairs found, Looked]
    have pushed : key ∈ input.desiredKeys → key.cluster ∈ input.pushedClusters := desiredKeys_cluster
    tauto

/-- A planned removal is of an owned host of a pair that the prune looks at and the snapshot does not want. -/
theorem prunePlan_sound {task : PruneTask} (member : task ∈ tasks) :
    Looked config catalog o input task.key ∧ task.key ∉ input.skipped ∧
      ∃ p ∈ catalog.entries, p.key = task.target config ∧ p.Owned ∧ p.key.compositeID ∉ input.wanted config task.key := by
  obtain ⟨keys, run, looked⟩ := prunePlan_cases planned
  have among : task ∈ (pruneTasks config catalog reads input keys).1 := by
    rw [run]
    exact member
  obtain ⟨key, applied, unwanted⟩ := mem_pruneTasks among
  obtain ⟨p, registered, group, service, cluster, unwantedID, owned, host⟩ := mem_unwantedHosts.mp unwanted
  refine ⟨(looked _ applied).mp key, applied, p, registered, ?_, owned, unwantedID⟩
  rw [← target_of_host group service cluster, host]

end

/-- The hosts that a plan removes when its reads all succeed. -/
theorem mem_prunePlan_iff (planned : (prunePlan config catalog o reads input).2 = .ok (tasks, none))
    (registered : p ∈ catalog.entries) (group : p.groupName = effectiveGroup config.group) :
    (∃ task ∈ tasks, p.key = task.target config) ↔ p.Owned ∧ Looked config catalog o input p.pair ∧ p.pair ∉ input.skipped ∧
        p.key.compositeID ∉ input.wanted config p.pair := by
  constructor
  · rintro ⟨task, member, target⟩
    obtain ⟨looked, applied, q, present, same, owned, unwanted⟩ := prunePlan_sound planned member
    obtain rfl : p = q := List.inj_on_of_nodup_map catalog.keys_nodup registered present (target.trans same.symm)
    have pair : p.pair = task.key := congrArg HostKey.pair target
    rw [pair]
    exact ⟨owned, looked, applied, unwanted⟩
  · rintro ⟨owned, looked, applied, unwanted⟩
    obtain ⟨keys, run, lists⟩ := prunePlan_cases planned
    have host : p.host ∈ unwantedHosts config catalog input p.pair :=
      mem_unwantedHosts.mpr ⟨p, registered, group, rfl, rfl, unwanted, owned, rfl⟩
    have clean : (pruneTasks config catalog reads input keys).2 = none := by rw [run]
    have member := pruneTasks_complete clean ((lists _ applied).mpr looked) applied host
    rw [run] at member
    exact ⟨_, member, (target_of_host group rfl rfl).symm⟩

end Spotter.Nacos
