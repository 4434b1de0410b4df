import Spotter.Nacos.AddressReuse
import Spotter.Nacos.WireNames

/-! # Round trips through the wire

A registration that the server stores as it is reads back as the registered instance, except that an
instance without a first port gets one, and an instance without a provider takes its wire cluster for one.

The composite id survives as well, unless the wire cluster is empty, which the server stores as its
default cluster, or the wire cluster that is taken for a provider equals the business cluster: then the
source cluster names the wire cluster the next time.
-/

namespace Spotter.Nacos

open Library Domain Ports

/-! ## Wire clusters that have a name -/

/-- The text that names the instance's wire cluster has a usable character. -/
def NamesCluster (ins : Instance) : Prop :=
  if ins.cluster ≠ "" ∧ (ins.sourceCluster = "" ∨ ins.cluster ≠ ins.provider) then Nameable ins.cluster
  else ins.sourceCluster ≠ "" → Nameable ins.sourceCluster

theorem clusterOf_ne_iff {ins : Instance} : clusterOf ins ≠ "" ↔ NamesCluster ins := by
  unfold clusterOf NamesCluster
  split_ifs with business source provider
  · exact sanitizeWireScope_ne_iff
  · rw [sanitizeWireScope_ne_iff]
    exact ⟨fun nameable _ => nameable, fun nameable => nameable source⟩
  · exact iff_of_true provider fun sourced => absurd sourced source
  · exact iff_of_true (by decide) fun sourced => absurd sourced source

/-! ## The instance that is read back -/

/-- The first port is there. -/
def HasFirstPort (ins : Instance) : Prop := ∃ first rest, ins.ports = some (some first :: rest)

/-- The first port, if there is one, is a 32-bit number, as its type in the source says. -/
def MachinePort (ins : Instance) : Prop := ∀ first rest, ins.ports = some (some first :: rest) → int32 first.port = first.port

theorem int32_firstPort {ins : Instance} (machine : MachinePort ins) : int32 (firstPort ins) = firstPort ins := by
  unfold firstPort
  split
  · next port rest ports => exact machine port rest ports
  · rfl

theorem firstPort_of_withFirstPort {ins : Instance} (list : List (Option PortInfo)) (port : ℤ)
    (ports : ins.ports = some (withFirstPort list port)) : firstPort ins = port := by
  rw [firstPort, ports]
  cases list with
  | nil => rfl
  | cons first rest =>
    cases first with
    | none => rfl
    | some first => rfl

/-- Putting the first port of an instance in place changes nothing if it is there. -/
theorem withFirstPort_firstPort_iff {ins : Instance} :
    withFirstPort (ins.ports.getD []) (firstPort ins) = ins.ports.getD [] ↔ HasFirstPort ins := by
  cases ports : ins.ports with
  | none => simp [withFirstPort, HasFirstPort, ports]
  | some list =>
    cases list with
    | nil => simp [withFirstPort, HasFirstPort, ports]
    | cons first rest =>
      cases first with
      | none => simp [withFirstPort, HasFirstPort, ports]
      | some port => simp [withFirstPort, HasFirstPort, ports, firstPort]

/-! ## The instance survives -/

/-- Payloads that round-trip are equal for canonically equal instances only. -/
theorem canonicalPayload_eq_iff {codec : PayloadCodec} {first second : Instance} (roundTrips : codec.RoundTrips first)
    (alsoRoundTrips : codec.RoundTrips second) :
    canonicalPayload codec.toPayloadJSON first = canonicalPayload codec.toPayloadJSON second ↔
      canonical first = canonical second := by
  constructor
  · intro same
    rw [PayloadCodec.RoundTrips, compressedCanonicalPayload] at roundTrips alsoRoundTrips
    rw [same, alsoRoundTrips] at roundTrips
    exact (Option.some.inj roundTrips).symm
  · intro same
    rw [canonicalPayload, canonicalPayload, same]

/-- Under lossless payloads, a registration reads back as an equal instance exactly when the instance has a first port,
and a provider or no usable wire cluster that could be taken for one. -/
theorem registration_reads_back_iff (config : Config) (ins : Instance) (machine : MachinePort ins)
    (roundTrips : config.lib.toPayloadCodec.RoundTrips ins)
    (readRoundTrips : config.lib.toPayloadCodec.RoundTrips (readBack config (registerParams config.lib config.group ins))) :
    equalNacosReconcile config.lib.toPayloadJSON ins (readBack config (registerParams config.lib config.group ins)) = true ↔
      HasFirstPort ins ∧ (ins.provider ≠ "" ∨ ¬NamesCluster ins) := by
  have rebuilt : readBack config (registerParams config.lib config.group ins) =
      { canonical ins with
        ports := some (withFirstPort (ins.ports.getD []) (firstPort ins))
        provider := if ins.provider = "" then clusterOf ins else ins.provider } := by
    rw [readBack_registration roundTrips, int32_firstPort machine]
  rw [equalNacosReconcile, decide_eq_true_eq, canonicalPayload_eq_iff roundTrips readRoundTrips, rebuilt]
  have ports : withFirstPort (ins.ports.getD []) (firstPort ins) = ins.ports.getD [] ↔ HasFirstPort ins :=
    withFirstPort_firstPort_iff
  have provider : (if ins.provider = "" then clusterOf ins else ins.provider) = ins.provider ↔
      ins.provider ≠ "" ∨ ¬NamesCluster ins := by
    rw [← clusterOf_ne_iff, not_not]
    split_ifs with none_given
    · simp [none_given]
    · simp [none_given]
  rw [← ports, ← provider]
  constructor
  · intro same
    exact ⟨(Option.some.inj (congrArg Instance.ports same)).symm, (congrArg Instance.provider same).symm⟩
  · rintro ⟨samePorts, sameProvider⟩
    rw [samePorts, sameProvider]
    rfl

def portedInstance : Instance :=
  { instanceId := "i-1", appCode := "orders", provider := "ecs", ip := "10.0.0.1", ports := some [some { port := 80 }]
    status := instanceStatusUnhealthy }

/-- An unhealthy instance with a port and a provider comes back equal. -/
theorem portedInstance_reads_back :
    let config := tableConfig [canonical portedInstance]
    equalNacosReconcile config.lib.toPayloadJSON portedInstance
      (readBack config (registerParams config.lib config.group portedInstance)) = true := by
  intro config
  have machine : MachinePort portedInstance := by
    intro first rest ports
    cases ports
    rfl
  exact (registration_reads_back_iff config portedInstance machine (by decide +kernel) (by decide +kernel)).mpr
    ⟨⟨_, _, rfl⟩, .inl (by decide)⟩

/-- Libraries that serialise each of the given instances as its position. -/
def indexConfig (instances : List Instance) : Config where
  lib :=
    { marshal := fun ins => toString (instances.idxOf ins)
      unmarshal := fun text => instances.find? fun ins => decide (toString (instances.idxOf ins) = text)
      compress := id
      decompress := some
      formatFloat := fun _ => "0"
      parseFloat := fun _ => none }

def portlessInstance : Instance :=
  { instanceId := "i-2", appCode := "orders", provider := "ecs", ip := "10.0.0.2", status := instanceStatusOnline }

def providerlessInstance : Instance := { portedInstance with provider := "", sourceCluster := "dc1", enabled := true }

def lossyConfig : Config :=
  indexConfig [canonical portlessInstance, { canonical portlessInstance with ports := some [some {}] },
    canonical providerlessInstance, { canonical providerlessInstance with provider := "dc1" }]

/-- The registration is accepted and its payloads are lossless, and yet it comes back as another instance. -/
def Altered (config : Config) (ins : Instance) : Prop :=
  validateMetadataSize (metadataOf config.lib ins) = none ∧ config.lib.toPayloadCodec.RoundTrips ins ∧
    config.lib.toPayloadCodec.RoundTrips (readBack config (registerParams config.lib config.group ins)) ∧
    equalNacosReconcile config.lib.toPayloadJSON ins (readBack config (registerParams config.lib config.group ins)) = false

instance (config : Config) (ins : Instance) : Decidable (Altered config ins) := inferInstanceAs (Decidable (_ ∧ _))

/-- Without a port, or without a provider, the instance is altered. -/
theorem incomplete_instance_altered : Altered lossyConfig portlessInstance ∧ Altered lossyConfig providerlessInstance := by
  decide +kernel

/-! ## The composite id survives -/

/-- The host of a registration on a server that stores an empty cluster name as the default cluster. -/
def storedHost (p : InstanceParams) : Host :=
  { p.host with clusterName := if p.clusterName = "" then defaultCluster else p.clusterName }

/-- The wire cluster, taken for the missing provider, equals the business cluster and so gives way to the source cluster. -/
structure YieldsCluster (ins : Instance) : Prop where
  providerless : ins.provider = ""
  named : ins.cluster ≠ ""
  sourced : ins.sourceCluster ≠ ""
  safe : ∀ c ∈ ins.cluster.toList, wireSafe c = true
  undashed : Undashed ins.cluster
  different : ¬Spells ins.sourceCluster ins.cluster

theorem cluster_of_compositeText {ip : String} {port : ℤ} {cluster cluster' group service : String} :
    compositeText ip port cluster group service = compositeText ip port cluster' group service ↔ cluster = cluster' := by
  simp only [compositeText, String.append_left_inj, String.append_right_inj]

section Identity

variable {lib : WireLib} {group : String} {ins : Instance} {host : Host}

/-- With its wire cluster for a missing provider, an instance keeps the wire cluster unless it yields. -/
theorem clusterOf_provider_iff :
    clusterOf { ins with provider := if ins.provider = "" then clusterOf ins else ins.provider } = clusterOf ins ↔
      ¬YieldsCluster ins := by
  by_cases candidate : ins.provider = "" ∧ ins.cluster ≠ "" ∧ ins.sourceCluster ≠ ""
  · obtain ⟨provider, named, sourced⟩ := candidate
    have registered : clusterOf ins = sanitizeWireScope ins.cluster := by simp [clusterOf, provider, named]
    have reread : clusterOf { ins with provider := if ins.provider = "" then clusterOf ins else ins.provider } =
        if ins.cluster = sanitizeWireScope ins.cluster then sanitizeWireScope ins.sourceCluster
        else sanitizeWireScope ins.cluster := by
      rw [if_pos provider, registered]
      simp [clusterOf, named, sourced, ite_not]
    rw [reread, registered]
    split_ifs with kept
    · obtain ⟨spelled, undashed⟩ := sanitizeWireScope_eq_iff.mp kept.symm
      rw [← kept, sanitizeWireScope_eq_iff]
      constructor
      · rintro ⟨spells, _⟩ yields
        exact yields.different spells
      · intro unyielding
        refine ⟨?_, undashed⟩
        by_contra different
        exact unyielding ⟨provider, named, sourced, spells_self_iff.mp spelled, undashed, different⟩
    · refine iff_of_true rfl ?_
      intro yields
      exact kept (sanitizeWireScope_eq_iff.mpr ⟨spells_self_iff.mpr yields.safe, yields.undashed⟩).symm
  · refine iff_of_true ?_ fun yields => candidate ⟨yields.providerless, yields.named, yields.sourced⟩
    by_cases provider : ins.provider = ""
    · by_cases named : ins.cluster = ""
      · by_cases sourced : ins.sourceCluster = ""
        · simp [clusterOf, provider, named, sourced, defaultCluster]
        · simp [clusterOf, provider, named, sourced]
      · have unsourced : ins.sourceCluster = "" := by
          by_contra sourced
          exact candidate ⟨provider, named, sourced⟩
        simp [clusterOf, provider, named, unsourced]
    · rw [if_neg provider]

/-- The composite id of what is read back differs from the instance's in the wire cluster at most. -/
theorem compositeID_of_registration (sdkTransport : Bool) (carried : host.metadata = metadataOf lib ins) (ip : host.ip = ins.ip)
    (port : host.port = firstPort ins) (machine : MachinePort ins) (roundTrips : lib.toPayloadCodec.RoundTrips ins) :
    compositeIDWithGroup (reconstructForTransport lib ins.appCode host sdkTransport) group = compositeText ins.ip (firstPort ins)
        (clusterOf { ins with provider := if ins.provider = "" then host.clusterName else ins.provider })
        (effectiveGroup group) ins.appCode := by
  -- The transport rule changes at most the revision.
  obtain ⟨reversion, rebuilt⟩ : ∃ reversion, reconstructForTransport lib ins.appCode host sdkTransport =
      { reconstruct lib ins.appCode host with reversion := reversion } := by
    simp only [reconstructForTransport]
    split_ifs
    · exact ⟨0, rfl⟩
    · exact ⟨_, rfl⟩
  rw [rebuilt, reconstruct_of_metadataOf carried roundTrips, compositeIDWithGroup, ← ip]
  congr 1
  refine (firstPort_of_withFirstPort (ins.ports.getD []) (int32 host.port) rfl).trans ?_
  rw [port, int32_firstPort machine]

end Identity

/-- On a server with a default cluster, the three composite ids agree for exactly the instances with a usable wire
cluster that does not yield to the source cluster. -/
theorem composite_id_round_trips_iff (config : Config) (ins : Instance) (sdkTransport : Bool) (machine : MachinePort ins)
    (roundTrips : config.lib.toPayloadCodec.RoundTrips ins) :
    let stored : Host :=
      { storedHost (registerParams config.lib config.group ins) with enabled := (persistentWireFlags ins sdkTransport).1 }
    (hostCompositeID ins.appCode config.group stored = compositeIDWithGroup ins config.group ∧
      compositeIDWithGroup (reconstructForTransport config.lib ins.appCode stored sdkTransport) config.group =
        compositeIDWithGroup ins config.group) ↔
      NamesCluster ins ∧ ¬YieldsCluster ins := by
  intro stored
  have host : hostCompositeID ins.appCode config.group stored = compositeIDWithGroup ins config.group ↔ NamesCluster ins := by
    rw [hostCompositeID, compositeIDWithGroup, ← clusterOf_ne_iff]
    refine cluster_of_compositeText.trans ?_
    change (if clusterOf ins = "" then defaultCluster else clusterOf ins) = clusterOf ins ↔ _
    split_ifs with empty
    · rw [empty]
      decide
    · exact iff_of_true rfl empty
  rw [compositeID_of_registration sdkTransport rfl rfl rfl machine roundTrips, host]
  refine and_congr_right ?_
  intro names
  have cluster : stored.clusterName = clusterOf ins := if_neg (clusterOf_ne_iff.mpr names)
  rw [compositeIDWithGroup, cluster, cluster_of_compositeText]
  exact clusterOf_provider_iff

/-- The ids of an instance in the wire cluster of its provider agree. -/
theorem portedInstance_identified :
    let config := tableConfig [canonical portedInstance]
    let stored := { storedHost (registerParams config.lib config.group portedInstance) with enabled := true }
    hostCompositeID "orders" config.group stored = compositeIDWithGroup portedInstance config.group ∧
      compositeIDWithGroup (reconstructForTransport config.lib "orders" stored true) config.group =
        compositeIDWithGroup portedInstance config.group := by
  intro config
  have machine : MachinePort portedInstance := by
    intro first rest ports
    cases ports
    rfl
  refine (composite_id_round_trips_iff config portedInstance true machine (by decide +kernel)).mpr ⟨?_, ?_⟩
  · intro sourced
    exact absurd rfl sourced
  · intro yields
    exact absurd yields.providerless (by decide)

/-- An instance whose business cluster has no usable character. -/
def unnameableInstance : Instance := { portedInstance with cluster := "华东" }

/-- An instance whose business cluster is its wire cluster, from another source cluster. -/
def yieldingInstance : Instance := { portedInstance with provider := "", cluster := "blue", sourceCluster := "east" }

def identityConfig : Config := indexConfig [canonical unnameableInstance, canonical yieldingInstance]

/-- The id of the stored host is not the id of the instance without a usable character, and the yielding instance is read
back with another id. -/
theorem composite_ids_differ :
    let stored := fun ins => storedHost (registerParams identityConfig.lib identityConfig.group ins)
    let reread := reconstructForTransport identityConfig.lib "orders" (stored yieldingInstance) true
    validateMetadataSize (metadataOf identityConfig.lib unnameableInstance) = none ∧
      identityConfig.lib.toPayloadCodec.RoundTrips unnameableInstance ∧
      hostCompositeID "orders" identityConfig.group (stored unnameableInstance) ≠
        compositeIDWithGroup unnameableInstance identityConfig.group ∧
      validateMetadataSize (metadataOf identityConfig.lib yieldingInstance) = none ∧
      identityConfig.lib.toPayloadCodec.RoundTrips yieldingInstance ∧
      compositeIDWithGroup reread identityConfig.group ≠ compositeIDWithGroup yieldingInstance identityConfig.group := by
  decide +kernel

end Spotter.Nacos
