import Mathlib.Data.List.Sort
import Spotter.Library.Outcome
import Spotter.Providers.Consul.Provider

/-! # From Consul endpoints to a catalog

A service entry is converted by a fixed sequence of helpers, each with its own nil checks; a nil pointer that a helper
follows anyway is a crash. Reading the catalog goes through the services by name and gives the whole read up as soon
as one service cannot be read or one of its entries cannot be converted. Parsing the ports and formatting a port's
name are the standard library's. Metrics and log lines are left out.
-/

namespace Spotter.Providers.Consul

open Library Domain Ports

def metaPorts : String := "ports"
def metaEnvType : String := "envType"
def metaEnvGroup : String := "envGroup"
def metaAppcode : String := "appCode"
def metaVersion : String := "version"
def metaInstanceId : String := "instanceId"
def metaNamespace : String := "namespace"

def consulHealthCheckPassing : String := "passing"

/-- A port of the entry's metadata. The scheme stands in for a missing protocol. -/
structure ConsulInstancePort extends PortInfo where
  scheme : String := ""
deriving DecidableEq

structure AgentService where
  id : String := ""
  metadata : Option (FiniteMap String String) := none
  modifyIndex : UInt64 := 0

structure Node where
  id : String := ""
  node : String := ""
  address : String := ""

structure HealthCheck where
  checkID : String
  status : String
deriving DecidableEq

/-- An entry of the health endpoint; its node and its service may be absent, its checks are not nil. -/
structure ServiceEntry where
  node : Option Node := none
  service : Option AgentService := none
  checks : List HealthCheck := []

/-- What the conversion takes from the standard library. -/
structure ConversionLib where
  /-- `json.Unmarshal` into a slice of pointers to ports; an element `null` is a nil pointer. -/
  unmarshalPorts : String → Except GoError (List (Option ConsulInstancePort))
  /-- `fmt.Sprintf(protocol+"%d", idx)`. -/
  sprintf : String → ℕ → String

/-- A metadata value; a nil map and a missing key both read as the empty string. -/
def AgentService.metaValue (service : AgentService) (key : String) : String :=
  ((service.metadata.getD ∅).lookup key).getD ""

section Convert

variable (lib : ConversionLib)

/-- The loop of `convertPort` from the given index on. -/
def convertPorts : ℕ → List (Option ConsulInstancePort) → Outcome GoError (List (Option PortInfo))
  | _, [] => return []
  | idx, p :: ps => do
    let p ← Outcome.deref p
    let protocol := if p.protocol = "" then p.scheme else p.protocol
    let portName := if p.name = "" then lib.sprintf protocol idx else p.name
    let ports ← convertPorts (idx + 1) ps
    return some { name := portName, protocol := protocol, port := p.port, servicePort := p.port } :: ports

def convertPort : Option ServiceEntry → Outcome GoError (List (Option PortInfo))
  | none => .error (.errorf "convert port with none params" [])
  | some endpoint => do
    let service ← Outcome.deref endpoint.service
    if service.metaValue metaPorts = "" then .error (.errorf "convert port with none params" [])
    else match lib.unmarshalPorts (service.metaValue metaPorts) with
      | .error err => .error (.wrapped "unmarshal json" err)
      | .ok ps => convertPorts lib 0 ps

end Convert

def convertEnv (endpoint : Option ServiceEntry) : Outcome GoError (String × String) :=
  match endpoint.bind ServiceEntry.service with
  | none => .error (.errorf "convert env with invalid endpoint" [])
  | some service =>
    if service.metadata.isNone then .error (.errorf "convert env with invalid endpoint" [])
    else .value (service.metaValue metaEnvType, service.metaValue metaEnvGroup)

def convertInstanceId (endpoint : Option ServiceEntry) : Outcome GoError String :=
  match endpoint.bind ServiceEntry.service with
  | none => .error (.errorf "convert instanceId with invalid endpoint" [])
  | some service =>
    if service.metadata.isNone then .error (.errorf "convert instanceId with invalid endpoint" [])
    else .value (service.metaValue metaInstanceId)

def convertAppcode (endpoint : Option ServiceEntry) : Outcome GoError String :=
  match endpoint.bind ServiceEntry.service with
  | none => .error (.errorf "convert appcode with invalid endpoint" [])
  | some service =>
    if service.metaValue metaAppcode = "" then .error (.errorf "convert appcode with invalid endpoint" [])
    else .value (service.metaValue metaAppcode)

def convertVersion : Option ServiceEntry → Outcome GoError String
  | none => .error (.errorf "convert version with invalid params" [])
  | some endpoint => do
    let service ← Outcome.deref endpoint.service
    if service.metaValue metaVersion = "" then .error (.errorf "convert version with invalid params" [])
    else return service.metaValue metaVersion

/-- A check of the service itself passes; older agents name the check after the application. -/
def ServiceEntry.servicePassing (endpoint : ServiceEntry) (appcode : String) : Bool :=
  let serviceCheckId := match endpoint.service with
    | some service => if service.id = "" then "service:" ++ appcode else "service:" ++ service.id
    | none => "service:" ++ appcode
  let legacyServiceCheckID := "service:" ++ appcode
  endpoint.checks.any fun ck =>
    decide ((ck.checkID = serviceCheckId ∨ ck.checkID = legacyServiceCheckID) ∧ ck.status = consulHealthCheckPassing)

/-- `convertState` reports no error, not even for a missing endpoint. -/
def convertState : Option ServiceEntry → Outcome GoError String
  | none => .value instanceStateUnknown
  | some endpoint =>
    if endpoint.checks.isEmpty then .value instanceStateProbing
    else match convertAppcode (some endpoint) with
      | .value appcode => .value (if endpoint.servicePassing appcode then instanceStateRunning else instanceStateProbing)
      | .error _ => .value instanceStateUnknown
      | .crash => .crash

/-- `convertSatus` reports no error either. -/
def convertSatus : Option ServiceEntry → Outcome GoError ℤ
  | none => .value instanceStatusUnhealthy
  | some endpoint =>
    if endpoint.checks.isEmpty then .value instanceStatusUnhealthy
    else match convertAppcode (some endpoint) with
      | .value appcode => .value (if endpoint.servicePassing appcode then instanceStatusOnline else instanceStatusUnhealthy)
      | .error _ => .value instanceStatusUnhealthy
      | .crash => .crash

/-- The metadata with the labels that older consumers read. -/
def convertLabels (service : AgentService) : FiniteMap String String :=
  let out := service.metadata.getD ∅
  let withSan := match out.lookup instanceSpringApplicationName with
    | some san => out.insert instanceCompatibilityLabelEnvSan san
    | none => out
  let withNamespace := withSan.insert instanceCompatibilityLabelAosNamespace ((withSan.lookup metaNamespace).getD "")
  let withApp := withNamespace.insert instanceCompatibilityLabelAosApp ((withNamespace.lookup metaAppcode).getD "")
  let drHost := (withApp.lookup instanceCompatibilityLabelAosApp).getD "" ++ "." ++
    (withApp.lookup instanceCompatibilityLabelAosNamespace).getD ""
  withApp.insert instanceCompatibilityLabelAosDrHost drHost

/-- The logical source, the node and the service id: a service id is unique on its node only. -/
def consulSourceKey (sourceCluster : String) (endpoint : Option ServiceEntry) (instanceID : String) : String :=
  match endpoint with
  | some { node := node, service := some service, .. } =>
    let serviceID := if service.id = "" then instanceID else service.id
    let nodeID := match node with
      | some node => if node.id ≠ "" then node.id else if node.node ≠ "" then node.node else node.address
      | none => ""
    let parts := if nodeID ≠ "" then [nodeID, serviceID] else [serviceID]
    sourceCluster ++ "/" ++ "/".intercalate parts
  | _ => ""

section Read

variable (lib : ConversionLib)

def convertInstanceForSource (endpoint : Option ServiceEntry) (sourceCluster : String) : Outcome GoError Instance :=
  match endpoint with
  | none => .error (.errorf "nil consul service endpoint" [])
  | some entry => do
    let ports ← (convertPort lib endpoint).mapError (.wrapped "convert instance")
    let (envType, envGroup) ← (convertEnv endpoint).mapError (.wrapped "convert instance")
    let appcode ← (convertAppcode endpoint).mapError (.wrapped "convert instance")
    let version ← (convertVersion endpoint).mapError (.wrapped "convert instance")
    let state ← (convertState endpoint).mapError (.wrapped "convert state")
    let instanceId ← (convertInstanceId endpoint).mapError (.wrapped "convert instance")
    let idc := if envType = envDev then "office" else "mix"
    let status ← (convertSatus endpoint).mapError (.wrapped "convert status")
    let node ← Outcome.deref entry.node
    let service ← Outcome.deref entry.service
    return {
      sourceKey := if sourceCluster ≠ "" then consulSourceKey sourceCluster endpoint instanceId else ""
      sourceCluster := sourceCluster
      instanceId := instanceId
      ports := some ports
      ip := node.address
      envCode := envType ++ "#" ++ envGroup
      envType := envType
      envGroup := envGroup
      version := version
      enabled := true
      state := state
      appCode := appcode
      provider := "ecs"
      label := some (convertLabels service)
      hostname := node.node
      image := some ∅
      idc := idc
      reversion := service.modifyIndex.toInt64.toInt
      status := status }

/-- The instances of a service and the number of entries that were skipped; none is a crash. -/
def toInstanceWithSkipped (sourceCluster : String) : List (Option ServiceEntry) → Option (List Instance × ℕ)
  | [] => some ([], 0)
  | ep :: rest =>
    match convertInstanceForSource lib ep sourceCluster with
    | .crash => none
    | .error _ => (toInstanceWithSkipped sourceCluster rest).map fun (inss, skipped) => (inss, skipped + 1)
    | .value ins => (toInstanceWithSkipped sourceCluster rest).map fun (inss, skipped) => (ins :: inss, skipped)

inductive ConsulSnapshotState where
  | consulSnapshotUnknown
  | consulSnapshotSourceError
  | consulSnapshotHealthyEmpty
  | consulSnapshotHealthyNonEmpty
  | consulSnapshotPartial
deriving DecidableEq

structure ConsulSnapshot where
  instances : List Instance := []
  state : ConsulSnapshotState
  err : Option GoError := none

/-- What the catalog answers while it is read. -/
structure CatalogAnswers where
  services : Except GoError (List String)
  entries : String → Except GoError (List (Option ServiceEntry))

/-- The loop of `readSnapshot` over the services, with the instances so far; none is a crash. -/
def readServices (sourceCluster : String) (read : CatalogAnswers) : List String → List Instance → Option ConsulSnapshot
  | [], result =>
    some { instances := result
           state := if result.isEmpty then .consulSnapshotHealthyEmpty else .consulSnapshotHealthyNonEmpty }
  | serviceName :: rest, result =>
    match read.entries serviceName with
    | .error readErr =>
      some { state := .consulSnapshotPartial
             err := some (.wrapped ("get service endpoints from consul: " ++ serviceName) readErr) }
    | .ok endpoints =>
      match toInstanceWithSkipped lib sourceCluster endpoints with
      | none => none
      | some (instances, skipped) =>
        if 0 < skipped then
          some { state := .consulSnapshotPartial
                 err := some (.errorf "convert consul service %s: skipped %d malformed endpoint(s)"
                   [serviceName, toString skipped]) }
        else readServices sourceCluster read rest (result ++ instances)

/-- `readSnapshot`: the services are read in the order of their names. -/
def readSnapshot (sourceCluster : String) (read : CatalogAnswers) : Option ConsulSnapshot :=
  match read.services with
  | .error err =>
    some { state := .consulSnapshotSourceError, err := some (.wrapped "get services from consul" err) }
  | .ok services => readServices lib sourceCluster read (services.insertionSort (· ≤ ·)) []

end Read

/-! ## What a conversion yields -/

variable {lib : ConversionLib} {entry : ServiceEntry} {service : AgentService} {sourceCluster : String}

/-- The instance of an entry that has a node and a service. -/
def ServiceEntry.toInstance (entry : ServiceEntry) (node : Node) (service : AgentService) (ports : List (Option PortInfo))
    (sourceCluster : String) : Instance where
  sourceKey := if sourceCluster ≠ "" then consulSourceKey sourceCluster (some entry) (service.metaValue metaInstanceId) else ""
  sourceCluster := sourceCluster
  instanceId := service.metaValue metaInstanceId
  ports := some ports
  ip := node.address
  envCode := service.metaValue metaEnvType ++ "#" ++ service.metaValue metaEnvGroup
  envType := service.metaValue metaEnvType
  envGroup := service.metaValue metaEnvGroup
  version := service.metaValue metaVersion
  enabled := true
  state := if entry.servicePassing (service.metaValue metaAppcode) then instanceStateRunning else instanceStateProbing
  appCode := service.metaValue metaAppcode
  provider := "ecs"
  label := some (convertLabels service)
  hostname := node.node
  image := some ∅
  idc := if service.metaValue metaEnvType = envDev then "office" else "mix"
  reversion := service.modifyIndex.toInt64.toInt
  status := if entry.servicePassing (service.metaValue metaAppcode) then instanceStatusOnline else instanceStatusUnhealthy

/-- The ports of the metadata are a JSON array. -/
def AgentService.PortsParse (lib : ConversionLib) (service : AgentService) (ps : List (Option ConsulInstancePort)) : Prop :=
  service.metaValue metaPorts ≠ "" ∧ lib.unmarshalPorts (service.metaValue metaPorts) = .ok ps

theorem convertPorts_crash_iff (idx : ℕ) (ps : List (Option ConsulInstancePort)) :
    convertPorts lib idx ps = .crash ↔ none ∈ ps := by
  induction ps generalizing idx with
  | nil => simp [convertPorts]
  | cons p rest ih =>
    cases p with
    | none => simp [convertPorts, Outcome.deref]
    | some p => simp [convertPorts, Outcome.deref, Outcome.bind_eq_crash_iff, ih]

theorem convertPorts_not_error (idx : ℕ) (ps : List (Option ConsulInstancePort)) (err : GoError) :
    convertPorts lib idx ps ≠ .error err := by
  induction ps generalizing idx err with
  | nil => simp [convertPorts]
  | cons p rest ih =>
    cases p with
    | none => simp [convertPorts, Outcome.deref]
    | some p =>
      simp only [convertPorts, Outcome.deref, Outcome.value_bind]
      cases tail : convertPorts lib (idx + 1) rest with
      | value ports => simp
      | error failure => exact absurd tail (ih (idx + 1) failure)
      | crash => simp

variable (lib) in
theorem convertPort_cases (held : entry.service = some service) :
    (convertPort lib (some entry) = .crash ∧ ∃ ps, service.PortsParse lib ps ∧ none ∈ ps) ∨
      (∃ err, convertPort lib (some entry) = .error err) ∧ (∀ ps, ¬service.PortsParse lib ps) ∨
      (∃ ports ps, convertPort lib (some entry) = .value ports ∧ service.PortsParse lib ps ∧ none ∉ ps) := by
  simp only [convertPort, held, Outcome.deref, Outcome.value_bind]
  by_cases unset : service.metaValue metaPorts = ""
  · rw [if_pos unset]
    exact .inr (.inl ⟨⟨_, rfl⟩, fun ps parsed => parsed.1 unset⟩)
  · rw [if_neg unset]
    cases parsed : lib.unmarshalPorts (service.metaValue metaPorts) with
    | error err =>
      refine .inr (.inl ⟨⟨_, rfl⟩, ?_⟩)
      rintro ps ⟨_, accepted⟩
      rw [parsed] at accepted
      cases accepted
    | ok ps =>
      have parse : service.PortsParse lib ps := ⟨unset, parsed⟩
      cases converted : convertPorts lib 0 ps with
      | crash => exact .inl ⟨converted, ps, parse, (convertPorts_crash_iff 0 ps).mp converted⟩
      | error err => exact absurd converted (convertPorts_not_error 0 ps err)
      | value ports =>
        refine .inr (.inr ⟨ports, ps, converted, parse, fun null => ?_⟩)
        rw [(convertPorts_crash_iff 0 ps).mpr null] at converted
        cases converted

/-- The metadata is there if it names ports. -/
theorem AgentService.PortsParse.metadata {ps : List (Option ConsulInstancePort)} (parsed : service.PortsParse lib ps) :
    service.metadata.isNone = false := by
  cases stored : service.metadata with
  | some metadata => rfl
  | none =>
    refine absurd ?_ parsed.1
    simp [AgentService.metaValue, stored, Finmap.lookup_empty]

section

variable {appcode : String} (named : convertAppcode (some entry) = .value appcode)

include named

theorem convertState_eq :
    convertState (some entry) = .value (if entry.servicePassing appcode then instanceStateRunning else instanceStateProbing) := by
  simp only [convertState, named]
  by_cases unchecked : entry.checks = []
  · simp [ServiceEntry.servicePassing, unchecked]
  · simp [unchecked]

theorem convertSatus_eq : convertSatus (some entry) =
      .value (if entry.servicePassing appcode then instanceStatusOnline else instanceStatusUnhealthy) := by
  simp only [convertSatus, named]
  by_cases unchecked : entry.checks = []
  · simp [ServiceEntry.servicePassing, unchecked]
  · simp [unchecked]

end

/-- After its ports, the conversion depends on the application code, the version and the node alone. -/
theorem convert_of_ports {ports : List (Option PortInfo)} {ps : List (Option ConsulInstancePort)}
    (held : entry.service = some service) (converted : convertPort lib (some entry) = .value ports)
    (parsed : service.PortsParse lib ps) :
    convertInstanceForSource lib (some entry) sourceCluster = if service.metaValue metaAppcode = "" then
        .error (.wrapped "convert instance" (.errorf "convert appcode with invalid endpoint" []))
      else if service.metaValue metaVersion = "" then
        .error (.wrapped "convert instance" (.errorf "convert version with invalid params" []))
      else match entry.node with
        | none => .crash
        | some node => .value (entry.toInstance node service ports sourceCluster) := by
  have env : convertEnv (some entry) = .value (service.metaValue metaEnvType, service.metaValue metaEnvGroup) := by
    simp [convertEnv, held, parsed.metadata]
  have id : convertInstanceId (some entry) = .value (service.metaValue metaInstanceId) := by
    simp [convertInstanceId, held, parsed.metadata]
  simp only [convertInstanceForSource, converted, env, id, Outcome.mapError, Outcome.value_bind]
  by_cases unnamed : service.metaValue metaAppcode = ""
  · simp [convertAppcode, held, unnamed]
  have named : convertAppcode (some entry) = .value (service.metaValue metaAppcode) := by
    simp [convertAppcode, held, unnamed]
  by_cases unversioned : service.metaValue metaVersion = ""
  · simp [named, unnamed, convertVersion, held, unversioned, Outcome.deref]
  have version : convertVersion (some entry) = .value (service.metaValue metaVersion) := by
    simp [convertVersion, held, unversioned, Outcome.deref]
  rw [if_neg unnamed, if_neg unversioned]
  simp only [named, version, convertState_eq named, convertSatus_eq named, held, Outcome.value_bind]
  cases entry.node with
  | none => rfl
  | some node => rfl

/-- Every pointer that the conversion of the entry follows is there. -/
def Guarded (lib : ConversionLib) : Option ServiceEntry → Prop
  | none => True
  | some entry =>
    ∃ service, entry.service = some service ∧ ∀ ps, service.PortsParse lib ps →
      none ∉ ps ∧ (service.metaValue metaAppcode ≠ "" → service.metaValue metaVersion ≠ "" → entry.node ≠ none)

theorem convert_crash_iff (endpoint : Option ServiceEntry) :
    convertInstanceForSource lib endpoint sourceCluster = .crash ↔ ¬Guarded lib endpoint := by
  cases endpoint with
  | none => simp [convertInstanceForSource, Guarded]
  | some entry =>
    cases held : entry.service with
    | none =>
      refine iff_of_true ?_ ?_
      · simp [convertInstanceForSource, convertPort, held, Outcome.deref, Outcome.mapError]
      · rintro ⟨service, present, _⟩
        rw [held] at present
        cases present
    | some service =>
      have own : Guarded lib (some entry) ↔ ∀ ps, service.PortsParse lib ps →
          none ∉ ps ∧ (service.metaValue metaAppcode ≠ "" → service.metaValue metaVersion ≠ "" → entry.node ≠ none) := by
        simp [Guarded, held]
      rw [own]
      rcases convertPort_cases lib held with
        ⟨crashed, ps, parsed, null⟩ | ⟨⟨err, failed⟩, unparsed⟩ | ⟨ports, ps, converted, parsed, complete⟩
      · refine iff_of_true ?_ fun guarded => (guarded ps parsed).1 null
        simp [convertInstanceForSource, crashed, Outcome.mapError]
      · refine iff_of_false ?_ (not_not.mpr fun ps parsed => absurd parsed (unparsed ps))
        simp [convertInstanceForSource, failed, Outcome.mapError]
      · have same : ∀ other, service.PortsParse lib other → other = ps := by
          intro other again
          have equal := again.2.symm.trans parsed.2
          cases equal
          rfl
        rw [convert_of_ports held converted parsed]
        constructor
        · intro crashed guarded
          obtain ⟨_, found⟩ := guarded ps parsed
          split_ifs at crashed with unnamed unversioned
          split at crashed
          · next missing => exact found unnamed unversioned missing
          · cases crashed
        · intro unguarded
          by_contra survives
          refine unguarded fun other again => ?_
          rw [same other again]
          refine ⟨complete, fun named versioned missing => survives ?_⟩
          rw [if_neg named, if_neg versioned, missing]

/-! ## Reading the catalog -/

/-- The service was read, and each of its entries was converted. -/
def ReadsService (lib : ConversionLib) (sourceCluster : String) (read : CatalogAnswers) (serviceName : String)
    (instances : List Instance) : Prop :=
  ∃ endpoints, read.entries serviceName = .ok endpoints ∧
    endpoints.map (convertInstanceForSource lib · sourceCluster) = instances.map .value

theorem toInstanceWithSkipped_cases {endpoints : List (Option ServiceEntry)}
    (alive : ∀ ep ∈ endpoints, convertInstanceForSource lib ep sourceCluster ≠ .crash) :
    ∃ inss skipped, toInstanceWithSkipped lib sourceCluster endpoints = some (inss, skipped) ∧
      (0 < skipped ∨ endpoints.map (convertInstanceForSource lib · sourceCluster) = inss.map .value) := by
  induction endpoints with
  | nil => exact ⟨[], 0, rfl, .inr rfl⟩
  | cons ep rest ih =>
    obtain ⟨inss, skipped, collected, complete⟩ := ih fun other member => alive other (List.mem_cons_of_mem _ member)
    cases converted : convertInstanceForSource lib ep sourceCluster with
    | crash => exact absurd converted (alive ep List.mem_cons_self)
    | error err =>
      refine ⟨inss, skipped + 1, ?_, .inl skipped.succ_pos⟩
      simp [toInstanceWithSkipped, converted, collected]
    | value ins =>
      refine ⟨ins :: inss, skipped, ?_, complete.imp_right fun equal => ?_⟩
      · simp [toInstanceWithSkipped, converted, collected]
      · rw [List.map_cons, List.map_cons, converted, equal]

variable {read : CatalogAnswers}

/-- A loop over the services that does not crash either rejects the read or has converted every entry. -/
theorem readServices_cases {names : List String} (result : List Instance)
    (alive : ∀ name ∈ names, ∀ endpoints, read.entries name = .ok endpoints →
      ∀ ep ∈ endpoints, convertInstanceForSource lib ep sourceCluster ≠ .crash) :
    (∃ err, readServices lib sourceCluster read names result = some { state := .consulSnapshotPartial, err := some err }) ∨
      ∃ (parts : List (List Instance)) (state : ConsulSnapshotState),
        (∀ name ∈ names, ∃ instances ∈ parts, ReadsService lib sourceCluster read name instances) ∧
        readServices lib sourceCluster read names result = some { instances := result ++ parts.flatten, state := state } := by
  induction names generalizing result with
  | nil =>
    rw [readServices]
    exact .inr ⟨[], _, List.forall_mem_nil _, by rw [List.flatten_nil, List.append_nil]⟩
  | cons name rest ih =>
    cases answered : read.entries name with
    | error err => exact .inl ⟨_, by rw [readServices, answered]⟩
    | ok endpoints =>
      obtain ⟨inss, skipped, collected, complete⟩ :=
        toInstanceWithSkipped_cases (alive name List.mem_cons_self endpoints answered)
      rw [readServices, answered]
      simp only [collected]
      by_cases malformed : 0 < skipped
      · rw [if_pos malformed]
        exact .inl ⟨_, rfl⟩
      · rw [if_neg malformed]
        rcases ih (result ++ inss) fun other member => alive other (List.mem_cons_of_mem _ member) with
          rejected | ⟨parts, state, converted, read⟩
        · exact .inl rejected
        · refine .inr ⟨inss :: parts, state, List.forall_mem_cons.mpr ⟨?_, fun other member => ?_⟩, ?_⟩
          · exact ⟨inss, List.mem_cons_self, endpoints, answered, complete.resolve_left malformed⟩
          · obtain ⟨instances, part, found⟩ := converted other member
            exact ⟨instances, List.mem_cons_of_mem _ part, found⟩
          · rw [read, List.flatten_cons, List.append_assoc]

/-- The catalog has the entry, under a service that could be read. -/
def CatalogAnswers.Lists (read : CatalogAnswers) (endpoint : Option ServiceEntry) : Prop :=
  ∃ services name endpoints, read.services = .ok services ∧ name ∈ services ∧ read.entries name = .ok endpoints ∧
    endpoint ∈ endpoints

/-- Reading the catalog never crashes, and what it accepts is complete. -/
structure ReadsSafely (lib : ConversionLib) (sourceCluster : String) (read : CatalogAnswers) : Prop where
  /-- Each entry becomes an instance or an error. -/
  converts : ∀ endpoint, read.Lists endpoint → convertInstanceForSource lib endpoint sourceCluster ≠ .crash
  returns : readSnapshot lib sourceCluster read ≠ none
  /-- An entry that fails rejects the whole read. -/
  rejects : ∀ endpoint err, read.Lists endpoint → convertInstanceForSource lib endpoint sourceCluster = .error err →
    ∃ failure, readSnapshot lib sourceCluster read = some { state := .consulSnapshotPartial, err := some failure }
  /-- A snapshot without an error has the instance of every entry. -/
  complete : ∀ snapshot, readSnapshot lib sourceCluster read = some snapshot → snapshot.err = none →
    ∀ endpoint, read.Lists endpoint → ∃ ins ∈ snapshot.instances, convertInstanceForSource lib endpoint sourceCluster = .value ins

theorem ReadsService.mem {name : String} {instances : List Instance} {endpoints : List (Option ServiceEntry)}
    {endpoint : Option ServiceEntry} (converted : ReadsService lib sourceCluster read name instances)
    (answered : read.entries name = .ok endpoints) (member : endpoint ∈ endpoints) :
    ∃ ins ∈ instances, convertInstanceForSource lib endpoint sourceCluster = .value ins := by
  obtain ⟨others, same, equal⟩ := converted
  rw [answered] at same
  cases same
  have image : convertInstanceForSource lib endpoint sourceCluster ∈ instances.map Outcome.value :=
    equal ▸ List.mem_map_of_mem (f := (convertInstanceForSource lib · sourceCluster)) member
  obtain ⟨ins, listed, value⟩ := List.mem_map.mp image
  exact ⟨ins, listed, value.symm⟩

theorem readsSafely_of_guarded (guarded : ∀ endpoint, read.Lists endpoint → Guarded lib endpoint) :
    ReadsSafely lib sourceCluster read := by
  have converts : ∀ endpoint, read.Lists endpoint → convertInstanceForSource lib endpoint sourceCluster ≠ .crash :=
    fun endpoint listed crashed => (convert_crash_iff endpoint).mp crashed (guarded endpoint listed)
  cases services : read.services with
  | error err =>
    have unlisted : ∀ endpoint, ¬read.Lists endpoint := by
      rintro endpoint ⟨names, _, _, answered, _⟩
      rw [services] at answered
      cases answered
    refine ⟨converts, by simp [readSnapshot, services], ?_, ?_⟩
    · exact fun endpoint err listed _ => absurd listed (unlisted endpoint)
    · exact fun snapshot _ _ endpoint listed => absurd listed (unlisted endpoint)
  | ok names =>
    have start : readSnapshot lib sourceCluster read =
        readServices lib sourceCluster read (names.insertionSort (· ≤ ·)) [] := by rw [readSnapshot, services]
    have alive : ∀ name ∈ names.insertionSort (· ≤ ·), ∀ endpoints, read.entries name = .ok endpoints →
        ∀ ep ∈ endpoints, convertInstanceForSource lib ep sourceCluster ≠ .crash := by
      intro name sorted endpoints answered ep member
      exact converts ep ⟨names, name, endpoints, services, (List.mem_insertionSort _).mp sorted, answered, member⟩
    rcases readServices_cases [] alive with ⟨err, rejected⟩ | ⟨parts, state, converted, accepted⟩
    · refine ⟨converts, ?_, ?_, ?_⟩
      · simp [start, rejected]
      · exact fun _ _ _ _ => ⟨err, start.trans rejected⟩
      · intro snapshot taken clean
        rw [start, rejected] at taken
        cases taken
        cases clean
    · have all : ∀ endpoint, read.Lists endpoint →
          ∃ ins ∈ parts.flatten, convertInstanceForSource lib endpoint sourceCluster = .value ins := by
        rintro endpoint ⟨others, name, endpoints, again, member, answered, among⟩
        rw [services] at again
        cases again
        obtain ⟨instances, part, service⟩ := converted name ((List.mem_insertionSort _).mpr member)
        obtain ⟨ins, listed, value⟩ := service.mem answered among
        exact ⟨ins, List.mem_flatten.mpr ⟨instances, part, listed⟩, value⟩
      refine ⟨converts, ?_, ?_, ?_⟩
      · simp [start, accepted]
      · intro endpoint err listed failed
        obtain ⟨ins, _, value⟩ := all endpoint listed
        rw [failed] at value
        cases value
      · intro snapshot taken _ endpoint listed
        rw [start, accepted] at taken
        cases taken
        exact all endpoint listed

/-- A catalog is read safely exactly if no entry of it makes the conversion follow a nil pointer. -/
theorem catalog_readsSafely_iff (lib : ConversionLib) (sourceCluster : String) (read : CatalogAnswers) :
    ReadsSafely lib sourceCluster read ↔ ∀ endpoint, read.Lists endpoint → Guarded lib endpoint := by
  constructor
  · intro safe endpoint listed
    by_contra unguarded
    exact safe.converts endpoint listed ((convert_crash_iff endpoint).mpr unguarded)
  · exact readsSafely_of_guarded

/-- A library that reads one array with a null element. -/
def nullLib : ConversionLib where
  unmarshalPorts text := if text = "[null]" then .ok [none] else .ok []
  sprintf protocol _ := protocol

/-- A catalog with one service. -/
def oneService (entries : List (Option ServiceEntry)) : CatalogAnswers := ⟨.ok ["shop"], fun _ => .ok entries⟩

/-- A registration whose ports hold a null. -/
def nullPort : ServiceEntry := { node := some {}, service := some { metadata := some (Finmap.singleton metaPorts "[null]") } }

/-- A registration without a node. -/
def nodeless : ServiceEntry :=
  let metadata := ((Finmap.singleton metaPorts "[]").insert metaAppcode "shop").insert metaVersion "v1"
  { service := some { metadata := some metadata } }

/-- A null port, an absent service and an absent node each crash the conversion, and with it the whole read. -/
theorem nil_pointers_crash : (convertInstanceForSource nullLib (some nullPort) "dc1" = .crash ∧
      readSnapshot nullLib "dc1" (oneService [some nullPort]) = none) ∧
    (convertInstanceForSource nullLib (some {}) "dc1" = .crash ∧ readSnapshot nullLib "dc1" (oneService [some {}]) = none) ∧
    (convertInstanceForSource nullLib (some nodeless) "dc1" = .crash ∧
      readSnapshot nullLib "dc1" (oneService [some nodeless]) = none) := by
  refine ⟨⟨?_, ?_⟩, ⟨?_, ?_⟩, ?_, ?_⟩
  · rfl
  · rfl
  · rfl
  · rfl
  · rfl
  · rfl

end Spotter.Providers.Consul
