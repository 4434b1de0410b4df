import Spotter.Nacos.PartialFailure

/-! # Whose hosts a full push removes

Removals are scoped by wire cluster, and a wire cluster is not a provider: it is named after the business
cluster or the source cluster of an instance where there is one. Providers are kept apart, and a
provider's confirmed empty snapshot removes all of its hosts, exactly as far as the wire clusters tell
the providers apart.
-/

namespace Spotter.Nacos

open Library Domain Ports

/-- The provider in the canonical payload of a host. -/
def canonicalProvider (config : Config) (p : InstanceParams) : Option String :=
  (decodeCompressedCanonicalPayload config.lib.toPayloadCodec (p.metadata.value "spotter.instance")).map Instance.provider

/-- The host was written by this sink's register, for an instance of any provider. -/
def RegisteredBySink (config : Config) (p : InstanceParams) : Prop :=
  ∃ ins, persistentBatchOperation ins.status = some .register ∧ ins.ip ≠ "" ∧ config.lib.toPayloadCodec.RoundTrips ins ∧
    p = registerParams config.lib config.group ins

variable {config : Config} {world : World} {initial : Catalog} {snapshot : Instances} {ins : Instance}
  {p : InstanceParams}

theorem canonicalProvider_registerParams (roundTrips : config.lib.toPayloadCodec.RoundTrips ins) :
    canonicalProvider config (registerParams config.lib config.group ins) = some ins.provider := by
  have payload : (metadataOf config.lib ins).value "spotter.instance" =
      compressedCanonicalPayload config.lib.toPayloadCodec ins := by
    simp [metadataOf, StringMap.value]
  rw [PayloadCodec.RoundTrips] at roundTrips
  rw [canonicalProvider, registerParams, payload, roundTrips]
  rfl

theorem registrable_status {status : ℤ} (register : persistentBatchOperation status = some .register) :
    status = instanceStatusOnline ∨ status = instanceStatusUnhealthy := by
  simp only [persistentBatchOperation] at register
  split_ifs at register with known
  · exact known
  · cases register

/-- A host written for an instance with a provider reads back as an instance of its pair. -/
theorem RegisteredBySink.readsBack {provider : String} (written : RegisteredBySink config p)
    (own : canonicalProvider config p = some provider) (named : provider ≠ "") : ReadsBack config p := by
  obtain ⟨ins, register, address, roundTrips, rfl⟩ := written
  rw [canonicalProvider_registerParams roundTrips] at own
  cases own
  have registrable : Registrable ins := ⟨registrable_status register, named⟩
  have written : Written config (registerParams config.lib config.group ins) := ⟨ins, registrable, address, roundTrips, rfl⟩
  exact written.readsBack

/-- Libraries that serialise each of the given instances as its id. -/
def tableConfig (instances : List Instance) : Config where
  lib :=
    { marshal := Instance.instanceId
      unmarshal := fun text => instances.find? fun ins => decide (ins.instanceId = text)
      compress := id
      decompress := some
      formatFloat := fun _ => "0"
      parseFloat := fun _ => none }

/-- A world in which exactly the given instances are registered. -/
def registeredWorld (config : Config) (instances : List Instance) : World where
  catalog := instances.foldl (fun catalog ins => catalog.register (registerParams config.lib config.group ins)) {}

theorem mem_registeredWorld {instances : List Instance} (member : p ∈ (registeredWorld config instances).catalog.entries) :
    ∃ ins ∈ instances, p = registerParams config.lib config.group ins := by
  have folded : ∀ (rest : List Instance) (catalog : Catalog),
      p ∈ (rest.foldl (fun catalog ins => catalog.register (registerParams config.lib config.group ins)) catalog).entries →
        p ∈ catalog.entries ∨ ∃ ins ∈ rest, p = registerParams config.lib config.group ins := by
    intro rest
    induction rest with
    | nil => exact fun catalog => .inl
    | cons ins rest ih =>
      intro catalog among
      rcases ih _ among with earlier | ⟨other, later, rfl⟩
      · rcases Catalog.mem_register.mp earlier with rfl | ⟨before, _⟩
        · exact .inr ⟨ins, List.mem_cons_self, rfl⟩
        · exact .inl before
      · exact .inr ⟨other, List.mem_cons_of_mem ins later, rfl⟩
  exact (folded instances {} member).resolve_left List.not_mem_nil

/-! ## What a call without failures leaves -/

/-- Of the owned hosts that are not an item's, a full push that returned nil leaves those in pairs that its prune did not
see. -/
theorem remaining_iff {history : List PushStep} (reads : ∀ q, WrittenItem config snapshot q → ReadsBack config q)
    (returned : ((PushRun.start config world snapshot).after config history).stage = .returned none)
    (placed : p ∈ world.catalog.entries → p.groupName = effectiveGroup config.group ∧ p.ip ≠ "") (owned : p.Owned) :
    p ∈ ((PushRun.start config world snapshot).after config history).world.catalog.entries ∧ ¬WrittenItem config snapshot p ↔
      p ∈ world.catalog.entries ∧ ¬Sees config world snapshot p.pair := by
  have begins : Traced config (WritesFrom config world snapshot) (PushRun.start config world snapshot) :=
    traced_start writesFrom_start
  have traced := traced_after writesFrom_moves begins history
  rw [Traced, returned] at traced
  obtain ⟨mid, writers, tasks, discovered, clean, cleared⟩ := traced
  rw [(after_fixed config _ history).1, (after_fixed config _ history).2] at discovered
  have looked : Looked config mid.catalog mid.ownership ⟨snapshot, [], []⟩ p.pair ↔
      Sees config world snapshot p.pair := discovered.looked_iff_sees clean reads
  obtain ⟨_, planned⟩ := discovered.planned
  rw [clean] at planned
  constructor
  · rintro ⟨member, foreign⟩
    obtain ⟨present, spared⟩ := (cleared p).mp member
    obtain ⟨early, untouched⟩ := discovered.untouched clean present foreign
    obtain ⟨group, address⟩ := placed early
    refine ⟨early, fun seen => ?_⟩
    have unwanted : p.key.compositeID ∉ (⟨snapshot, [], []⟩ : PruneInput).wanted config p.pair := by
      intro wanted
      obtain ⟨ins, item, pair, same⟩ := (mem_wanted_item List.not_mem_nil).mp wanted
      have key := key_of_compositeID group pair same
      exact untouched ins _ item (fun empty => address ((congrArg HostKey.ip key).trans empty)) key
    obtain ⟨task, among, target⟩ :=
      (mem_prunePlan_iff planned present group).mpr ⟨owned, looked.mpr seen, List.not_mem_nil, unwanted⟩
    exact spared task among target
  · rintro ⟨early, unseen⟩
    have apart : ∀ ins operation, Item snapshot operation ins → p.key ≠ instanceTarget config ins := by
      intro ins operation item key
      refine unseen (.inl ⟨ins, operation, item, ?_⟩)
      exact (congrArg HostKey.pair key).symm
    have present := discovered.held.applied.kept p early fun ins operation item _ => apart ins operation item
    refine ⟨(cleared p).mpr ⟨present, fun task among target => ?_⟩, ?_⟩
    · exact unseen (looked.mp ((mem_prunePlan_iff planned present (placed early).1).mp ⟨task, among, target⟩).2.1)
    · rintro ⟨ins, item, _, rfl⟩
      exact apart ins _ item rfl

/-! ## Full pushes of one provider -/

/-- No step of the full push deregisters an owned host of another provider. -/
def SparesOthers (config : Config) (provider : String) (world : World) (snapshot : Instances)
    (history : List PushStep) : Prop :=
  History.AllSteps (fun before label => ∀ p,
    Deregisters config ((PushRun.start config world snapshot).after config before) label p → p.Owned →
      canonicalProvider config p = some provider) history

/-- An item of the host's pair registers its composite id, and none deregisters it. -/
def Retained (config : Config) (snapshot : Instances) (p : InstanceParams) : Prop :=
  (∃ ins, Item snapshot .register ins ∧ clusterKeyOf ins = p.pair ∧ compositeIDWithGroup ins config.group = p.key.compositeID) ∧
  ∀ ins, Item snapshot .deregister ins → p.key ≠ instanceTarget config ins

/-- No host is registered by one item and deregistered by another. -/
def KeysApart (config : Config) (snapshot : Instances) : Prop :=
  ∀ ins ins', Item snapshot .register ins → Item snapshot .deregister ins' → instanceTarget config ins ≠ instanceTarget config ins'

section Spares

variable {provider : String} {history : List PushStep}
  (own : ∀ ins, some ins ∈ snapshot → ins.provider = provider ∧ config.lib.toPayloadCodec.RoundTrips ins)

include own

theorem WrittenItem.ofProvider (written : WrittenItem config snapshot p) : canonicalProvider config p = some provider := by
  obtain ⟨ins, item, _, rfl⟩ := written
  obtain ⟨rfl, roundTrips⟩ := own ins item.1
  exact canonicalProvider_registerParams roundTrips

/-- The items themselves discover no pair but their own. -/
theorem WrittenItem.readsOwn (named : provider ≠ "") (written : WrittenItem config snapshot p) : ReadsBack config p := by
  have same := written.ofProvider own
  obtain ⟨ins, item, address, rfl⟩ := written
  exact RegisteredBySink.readsBack ⟨ins, item.2, address, (own ins item.1).2, rfl⟩ same named

/-- A deregistered host of another provider was there at the call, and the snapshot does not retain it. -/
theorem exposed_of_deregisters {before : List PushStep} {label : PushStep}
    (deregisters : Deregisters config ((PushRun.start config world snapshot).after config before) label p)
    (other : canonicalProvider config p ≠ some provider) :
    p ∈ world.catalog.entries ∧ ¬Retained config snapshot p ∧ Pushes snapshot p.clusterName := by
  obtain ⟨instances, scopes⟩ := after_fixed config (PushRun.start config world snapshot) before
  have traced : Traced config (Writes config world.catalog ((PushRun.start config world snapshot).after config before).instances)
      ((PushRun.start config world snapshot).after config before) := by
    rw [instances]
    exact traced_after applied_moves (traced_start applied_start) before
  rcases traced.deregisters deregisters with
    ⟨known, ins, item, key⟩ | ⟨mid, writers, tasks, listed, discovered, present, task, member, key⟩
  · rw [instances] at known item
    refine ⟨known.resolve_right fun written => other (written.ofProvider own), fun retained => retained.2 ins item key, ?_⟩
    exact ⟨ins, _, item, (congrArg HostKey.cluster key).symm⟩
  · rw [instances, scopes] at discovered
    obtain ⟨_, _, looked, applied, unwanted⟩ := discovered.removal member present key
    refine ⟨?_, fun retained => unwanted ((mem_wanted_item applied).mpr retained.1), ?_⟩
    · exact (discovered.held.known p present).resolve_right fun written => other (written.ofProvider own)
    · exact (pushes_of_pushedClusters looked.cluster).resolve_left List.not_mem_nil

variable (named : provider ≠ "")
  (returned : ((PushRun.start config world snapshot).after config history).stage = .returned none)

include named returned

/-- A call that returned nil deregistered hosts only in the pairs that its prune saw. -/
theorem seen_of_deregisters {before rest : List PushStep} {label : PushStep} (split : history = before ++ label :: rest)
    (deregisters : Deregisters config ((PushRun.start config world snapshot).after config before) label p) :
    Sees config world snapshot p.pair := by
  obtain ⟨instances, scopes⟩ := after_fixed config (PushRun.start config world snapshot) before
  have traced : Traced config (WritesFrom config world snapshot) ((PushRun.start config world snapshot).after config before) :=
    traced_after writesFrom_moves (traced_start writesFrom_start) before
  rcases traced.removes deregisters with ⟨threads, index, answer, held, gone⟩ |
    ⟨mid, writers, tasks, listed, discovered, ⟨sweepers, stage⟩, present, task, member, key⟩
  · obtain ⟨ins, item, key⟩ := held.applied.removes deregisters.1 gone
    exact .inl ⟨ins, _, item, (congrArg HostKey.pair key).symm⟩
  · rw [split, PushRun.after, List.foldl_append] at returned
    have clean := failures_of_batchApplyError (applied_of_returned stage returned)
    rw [instances, scopes] at discovered
    obtain ⟨_, _, looked, _⟩ := discovered.removal member present key
    rw [clean] at looked
    exact (discovered.looked_iff_sees clean fun _ => WrittenItem.readsOwn own named).mp looked

/-- A call that returned nil deregistered every host of a pair that its prune saw and that its snapshot does not retain. -/
theorem deregisters_of_seen (apart : KeysApart config snapshot) (written : RegisteredBySink config p)
    (early : p ∈ world.catalog.entries) (owned : p.Owned)
    (seen : Sees config world snapshot p.pair) (exposed : ¬Retained config snapshot p) :
    ∃ before label rest, history = before ++ label :: rest ∧
      Deregisters config ((PushRun.start config world snapshot).after config before) label p := by
  have unregistered : ∀ ins, Item snapshot .register ins → p.key ≠ instanceTarget config ins := by
    intro ins item key
    refine exposed ⟨⟨ins, item, ?_, by rw [key, instanceTarget_compositeID]⟩, fun ins' item' => key ▸ apart ins ins' item item'⟩
    exact (congrArg HostKey.pair key).symm
  have foreign : ¬WrittenItem config snapshot p := by
    rintro ⟨ins, item, _, rfl⟩
    exact unregistered ins item rfl
  have begins : Traced config (WritesFrom config world snapshot) (PushRun.start config world snapshot) :=
    traced_start writesFrom_start
  refine exists_deregisters writesFrom_moves begins ?_ early fun member => ?_
  · -- Nothing is written at the host's key.
    intro world' threads index answer held q member key
    rcases moveThread_catalog config world' threads index answer with same | ⟨t, _, found, _, effect⟩
    · rwa [same] at member
    obtain ⟨ins, operation, item, job, _⟩ := held.applied.origin t (List.mem_of_getElem? found)
    rcases effect with ⟨ins', register, put⟩ | ⟨_, _, removed⟩
    · obtain ⟨rfl, rfl⟩ := itemJob_inj (job.symm.trans register : _ = itemJob .register ins')
      rw [put] at member
      rcases Catalog.mem_register.mp member with rfl | ⟨before, _⟩
      · exact absurd key.symm (unregistered ins item)
      · exact before
    · rw [removed] at member
      exact (Catalog.mem_deregister.mp member).1
  · obtain ⟨source, _, address, _, rfl⟩ := written
    exact ((remaining_iff (fun _ => WrittenItem.readsOwn own named) returned (fun _ => ⟨rfl, address⟩) owned).mp ⟨member, foreign⟩).2 seen

end Spares

/-- A full push of one provider's instances deregisters no owned host of another provider that its snapshot retains or
whose wire cluster it does not push. A full push that returned nil deregistered none exactly if its prune saw the pair of
no such host that its snapshot does not retain. -/
theorem pushAll_spares_other_providers {provider : String}
    (own : ∀ ins, some ins ∈ snapshot → ins.provider = provider ∧ config.lib.toPayloadCodec.RoundTrips ins) :
    ((∀ p ∈ world.catalog.entries, p.Owned → canonicalProvider config p ≠ some provider →
        ¬Pushes snapshot p.clusterName ∨ Retained config snapshot p) →
      ∀ history, SparesOthers config provider world snapshot history) ∧
    (provider ≠ "" → KeysApart config snapshot → (∀ p ∈ world.catalog.entries, p.Owned → RegisteredBySink config p) →
      ∀ history, ((PushRun.start config world snapshot).after config history).stage = .returned none →
        (SparesOthers config provider world snapshot history ↔
          ∀ p ∈ world.catalog.entries, p.Owned → canonicalProvider config p ≠ some provider →
            ¬Sees config world snapshot p.pair ∨ Retained config snapshot p)) := by
  refine ⟨?_, ?_⟩
  · rintro aside history before label rest rfl p deregisters owned
    by_contra other
    obtain ⟨early, exposed, pushes⟩ := exposed_of_deregisters own deregisters other
    exact (aside p early owned other).elim (fun elsewhere => elsewhere pushes) exposed
  · intro named apart written history returned
    constructor
    · intro spares p early owned other
      by_contra reached
      obtain ⟨seen, exposed⟩ := not_or.mp reached
      obtain ⟨before, label, rest, split, deregisters⟩ :=
        deregisters_of_seen own named returned apart (written p early owned) early owned (not_not.mp seen) exposed
      exact other (spares before label rest split p deregisters owned)
    · intro aside before label rest split p deregisters owned
      by_contra other
      obtain ⟨early, exposed, _⟩ := exposed_of_deregisters own deregisters other
      exact (aside p early owned other).elim
        (fun unseen => unseen (seen_of_deregisters own named returned split deregisters)) exposed

/-- A virtual machine and a pod whose owners gave their applications the same business cluster. -/
def blueMachine : Instance :=
  { instanceId := "m-1", appCode := "billing", provider := "ecs", sourceCluster := "dc1", cluster := "blue"
    ip := "10.0.0.2", status := instanceStatusOnline }

def bluePod : Instance :=
  { instanceId := "p-1", appCode := "orders", provider := "k8s", sourceCluster := "east", cluster := "blue"
    ip := "10.0.0.3", status := instanceStatusOnline }

def blueConfig : Config := tableConfig [blueMachine, bluePod, vanishedInstance, consulInstance, orderInstance]

/-- The pods' full push deregisters the virtual machine. -/
theorem shared_cluster_deregisters_machine :
    let start := PushRun.start blueConfig (registeredWorld blueConfig [blueMachine]) [some bluePod]
    let before := List.replicate 5 (.move 0 .done) ++ [.discover {}, .move 0 .done]
    let host := registerParams blueConfig.lib blueConfig.group blueMachine
    Deregisters blueConfig (start.after blueConfig before) (.move 0 .done) host ∧
      canonicalProvider blueConfig host = some "ecs" := by
  refine ⟨⟨?_, ?_⟩, ?_⟩
  · decide +kernel
  · decide +kernel
  · decide +kernel

/-- With wire clusters named after the providers, the full push deregisters the provider's vanished host and no other
provider's. -/
theorem pushAll_spares_consul :
    let world := registeredWorld blueConfig [consulInstance, vanishedInstance]
    let start := PushRun.start blueConfig world [some orderInstance]
    let before := List.replicate 4 (.move 0 .done) ++ [.discover {}, .move 0 .done]
    let history := before ++ [.move 0 .done, .move 0 .done, .leave]
    (start.after blueConfig history).stage = .returned none ∧
      Deregisters blueConfig (start.after blueConfig before) (.move 0 .done)
        (registerParams blueConfig.lib blueConfig.group vanishedInstance) ∧
      SparesOthers blueConfig "k8s" world [some orderInstance] history := by
  intro world start before history
  have returned : (start.after blueConfig history).stage = .returned none := by decide +kernel
  have own : ∀ ins, some ins ∈ [some orderInstance] → ins.provider = "k8s" ∧ blueConfig.lib.toPayloadCodec.RoundTrips ins := by
    intro ins member
    cases List.mem_singleton.mp member
    exact ⟨rfl, by decide⟩
  have apart : KeysApart blueConfig [some orderInstance] := by
    intro ins ins' _ item
    cases List.mem_singleton.mp item.1
    cases item.2
  have written : ∀ p ∈ world.catalog.entries, p.Owned → RegisteredBySink blueConfig p := by
    intro p member _
    obtain ⟨ins, among, rfl⟩ := mem_registeredWorld member
    refine ⟨ins, ?_, ?_, ?_, rfl⟩ <;> revert ins <;> decide
  refine ⟨returned, ⟨by decide +kernel, by decide +kernel⟩, ?_⟩
  refine ((pushAll_spares_other_providers own).2 (by decide) apart written history returned).mpr ?_
  intro p member _ other
  obtain ⟨ins, among, rfl⟩ := mem_registeredWorld member
  rcases List.mem_cons.mp among with rfl | among
  · left
    rintro (⟨ins, _, item, pair⟩ | ⟨⟨ins, _, item, cluster⟩, _⟩)
    · cases List.mem_singleton.mp item.1
      exact absurd pair (by decide)
    · cases List.mem_singleton.mp item.1
      exact absurd cluster (by decide)
  · cases List.mem_singleton.mp among
    exact absurd (by decide) other

/-! ## Confirmed empty operations -/

/-- The run of a confirmed empty operation of the scope `k8s`. -/
def emptyRun (world : World) : PushRun := { world := world, instances := [], scopes := ["k8s"], stage := .applying [] }

theorem startOperation_empty {op : RetryOperation} (empty : op.instances = []) (confirmed : op.emptyConfirmed = true)
    (scope : op.scope = "k8s") : PushRun.startOperation config world op = emptyRun world := by
  rw [PushRun.startOperation, if_neg (not_not_intro empty), if_neg, scope]
  · rfl
  rintro (unconfirmed | unscoped)
  · rw [confirmed] at unconfirmed
    cases unconfirmed
  · rw [scope] at unscoped
    exact absurd unscoped (by decide)

/-- The pairs that its prune looks at. -/
def EmptyLooks (config : Config) (world : World) (key : ClusterKey) : Prop :=
  Looked config world.catalog world.ownership ⟨[], ["k8s"], []⟩ key

section Emptied

variable {before history : List PushStep} {label : PushStep}

theorem traced_emptyRun (history : List PushStep) :
    Traced config (Rests (emptyRun world) []) ((emptyRun world).after config history) :=
  traced_after (rests_moves rfl) (show Traced config _ (emptyRun world) from ⟨rfl, rfl⟩) history

/-- What a confirmed empty operation deregisters is owned, and in a pair that its prune looks at. -/
theorem emptyRun_deregisters (deregisters : Deregisters config ((emptyRun world).after config before) label p) :
    p ∈ world.catalog.entries ∧ p.Owned ∧ EmptyLooks config world p.pair := by
  obtain ⟨instances, scopes⟩ := after_fixed config (emptyRun world) before
  rcases (traced_emptyRun before).removes deregisters with
    ⟨_, index, answer, ⟨_, rfl⟩, gone⟩ | ⟨_, _, tasks, listed, discovered, _, present, task, member, key⟩
  · rw [moveThread_finished rfl] at gone
    exact absurd rfl (gone p deregisters.1)
  · obtain ⟨rfl, rfl⟩ := discovered.held
    rw [instances, scopes] at discovered
    obtain ⟨_, owned, looked, _⟩ := discovered.removal member present key
    exact ⟨present, owned, looked⟩

/-- When it returns nil, it has deregistered every owned host of the group in the pairs that its prune looks at. -/
theorem emptyRun_clears (returned : ((emptyRun world).after config history).stage = .returned none)
    (early : p ∈ world.catalog.entries) (group : p.groupName = effectiveGroup config.group) (owned : p.Owned)
    (looked : EmptyLooks config world p.pair) :
    p ∉ ((emptyRun world).after config history).world.catalog.entries := by
  intro member
  obtain ⟨instances, scopes⟩ := after_fixed config (emptyRun world) history
  have traced : Traced config (Rests (emptyRun world) []) ((emptyRun world).after config history) := traced_emptyRun history
  rw [Traced, returned] at traced
  obtain ⟨_, _, tasks, ⟨⟨rfl, rfl⟩, _, reads, planned⟩, _, cleared⟩ := traced
  rw [instances, scopes] at planned
  obtain ⟨task, among, target⟩ := (mem_prunePlan_iff planned early group).mpr
    ⟨owned, looked, List.not_mem_nil, by simp [PruneInput.wanted, PruneInput.kept, emptyRun]⟩
  exact ((cleared p).mp member).2 task among target

end Emptied

/-- A confirmed empty operation that returned nil left no owned host of the K8s provider and deregistered no other host
exactly if the owned hosts of that provider were those of the pairs that its prune looks at; if they were, it deregisters
no other host, whatever it returns. -/
theorem confirmedEmpty_clears_provider (op : RetryOperation) (history : List PushStep) (empty : op.instances = [])
    (confirmed : op.emptyConfirmed = true) (scope : op.scope = "k8s")
    (written : ∀ p ∈ world.catalog.entries, p.Owned → RegisteredBySink config p) :
    let start := PushRun.startOperation config world op
    let final := start.after config history
    let aligned := ∀ p ∈ world.catalog.entries, p.Owned →
      (canonicalProvider config p = some "k8s" ↔ EmptyLooks config world p.pair)
    let narrow := History.AllSteps (fun before label => ∀ p, Deregisters config (start.after config before) label p →
      p.Owned ∧ canonicalProvider config p = some "k8s") history
    (aligned → narrow) ∧
    (final.stage = .returned none →
      ((∀ p ∈ final.world.catalog.entries, p.Owned → canonicalProvider config p ≠ some "k8s") ∧ narrow ↔ aligned)) := by
  intro start final aligned narrow
  have begun : start = emptyRun world := startOperation_empty empty confirmed scope
  have keeps : aligned → narrow := by
    rintro agrees before label rest rfl p deregisters
    rw [begun] at deregisters
    obtain ⟨early, owned, looked⟩ := emptyRun_deregisters deregisters
    exact ⟨owned, (agrees p early owned).mpr looked⟩
  have group : ∀ p ∈ world.catalog.entries, p.Owned → p.groupName = effectiveGroup config.group := by
    intro p early owned
    obtain ⟨ins, _, _, _, rfl⟩ := written p early owned
    rfl
  refine ⟨keeps, fun returned => ⟨?_, fun agrees => ⟨?_, keeps agrees⟩⟩⟩
  · rintro ⟨clears, only⟩ p early owned
    simp only [final, begun] at clears returned
    -- A host that is gone was deregistered by a step.
    have lost : p ∉ ((emptyRun world).after config history).world.catalog.entries →
        canonicalProvider config p = some "k8s" ∧ EmptyLooks config world p.pair := by
      intro gone
      obtain ⟨before, label, rest, split, deregisters⟩ :=
        exists_deregisters (rests_moves rfl) (traced_emptyRun []) (rests_alone rfl) early gone
      refine ⟨(only before label rest split p ?_).2, (emptyRun_deregisters deregisters).2.2⟩
      rwa [begun]
    constructor
    · exact fun provider => (lost fun member => clears p member owned provider).2
    · exact fun looked => (lost (emptyRun_clears returned early (group p early owned) owned looked)).1
  · intro p member owned provider
    simp only [final, begun] at member returned
    have traced : Traced config (Rests (emptyRun world) []) ((emptyRun world).after config history) := traced_emptyRun history
    rw [Traced, returned] at traced
    obtain ⟨_, _, _, ⟨⟨rfl, rfl⟩, _⟩, _, cleared⟩ := traced
    have early := ((cleared p).mp member).1
    exact emptyRun_clears returned early (group p early owned) owned ((agrees p early owned).mp provider) member

/-- A pod of a named source cluster, and a virtual machine whose business cluster is called like the provider. -/
def eastPod : Instance :=
  { instanceId := "p-2", appCode := "orders", provider := "k8s", sourceCluster := "east", ip := "10.0.1.1"
    status := instanceStatusOnline }

def labelledMachine : Instance :=
  { instanceId := "m-2", appCode := "orders", provider := "ecs", sourceCluster := "dc1", cluster := "k8s"
    ip := "10.0.1.2", status := instanceStatusOnline }

def scopeConfig : Config := tableConfig [eastPod, labelledMachine, vanishedInstance, consulInstance]

def emptyOperation : RetryOperation := { scope := "k8s", emptyConfirmed := true }

def emptyHistory : List PushStep := [.discover {}, .move 0 .done, .move 0 .done, .move 0 .done, .leave]

/-- The confirmed empty operation returns without an error, leaves the pod and has deregistered the machine. -/
theorem confirmedEmpty_misses_source_cluster :
    let world := registeredWorld scopeConfig [eastPod, labelledMachine]
    let final := (PushRun.startOperation scopeConfig world emptyOperation).after scopeConfig emptyHistory
    let pod := registerParams scopeConfig.lib scopeConfig.group eastPod
    let machine := registerParams scopeConfig.lib scopeConfig.group labelledMachine
    final.stage = .returned none ∧ pod ∈ final.world.catalog.entries ∧ pod.Owned ∧
      canonicalProvider scopeConfig pod = some "k8s" ∧ machine ∈ world.catalog.entries ∧
      machine ∉ final.world.catalog.entries ∧ canonicalProvider scopeConfig machine = some "ecs" := by
  decide +kernel

/-- The state after the confirmed empty operation when wire clusters are named after the providers. -/
def clearedRun : PushRun :=
  (PushRun.startOperation scopeConfig (registeredWorld scopeConfig [consulInstance, vanishedInstance]) emptyOperation).after
    scopeConfig emptyHistory

/-- The pods' host goes and the machine's stays. -/
theorem confirmedEmpty_clears_k8s : clearedRun.stage = .returned none ∧
      clearedRun.world.catalog.entries = [registerParams scopeConfig.lib scopeConfig.group consulInstance] ∧
      ∀ p ∈ clearedRun.world.catalog.entries, p.Owned → canonicalProvider scopeConfig p ≠ some "k8s" := by
  have returned : clearedRun.stage = .returned none := by decide +kernel
  refine ⟨returned, by decide +kernel, ?_⟩
  have registered : ∀ p ∈ (registeredWorld scopeConfig [consulInstance, vanishedInstance]).catalog.entries,
      p = registerParams scopeConfig.lib scopeConfig.group consulInstance ∨
        p = registerParams scopeConfig.lib scopeConfig.group vanishedInstance := by
    intro p member
    obtain ⟨ins, among, rfl⟩ := mem_registeredWorld member
    rcases List.mem_cons.mp among with rfl | among
    · exact .inl rfl
    · cases List.mem_singleton.mp among
      exact .inr rfl
  have written : ∀ p ∈ (registeredWorld scopeConfig [consulInstance, vanishedInstance]).catalog.entries, p.Owned →
      RegisteredBySink scopeConfig p := by
    intro p member _
    rcases registered p member with rfl | rfl
    · exact ⟨consulInstance, by decide, by decide, by decide, rfl⟩
    · exact ⟨vanishedInstance, by decide, by decide, by decide, rfl⟩
  refine (((confirmedEmpty_clears_provider emptyOperation emptyHistory rfl rfl rfl written).2 returned).mpr ?_).1
  intro p member _
  rcases registered p member with rfl | rfl
  · refine iff_of_false (by decide) fun looked => absurd looked.cluster (by decide)
  · refine iff_of_true (by decide) (.inr ⟨by decide, .inr ⟨_, member, rfl, by decide, ?_⟩⟩)
    exact (written _ member (by decide)).readsBack (show canonicalProvider scopeConfig _ = some "k8s" by decide) (by decide)

end Spotter.Nacos
