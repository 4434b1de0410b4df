import Mathlib.Algebra.GroupWithZero.Nat
import Mathlib.Data.List.DropRight
import Spotter.Domain.CanonicalPayload
import Spotter.Library.Separated
import Spotter.Ports.Errors

/-! # The wire form of an instance in Nacos

An instance is registered under a service, a wire cluster, an address and a port, with its domain
properties as string metadata. Reading a host back rebuilds the instance from the metadata and takes
the wire location from the host. The transport is the SDK; a client's namespace is fixed and left
implicit, and so is the persistence flag, which is never set otherwise.
-/

namespace Spotter.Nacos

open Library Domain Ports

def defaultGroup : String := "DEFAULT_GROUP"
def defaultCluster : String := "DEFAULT"

/-! ## Names -/

/-- `unicode.IsSpace`. -/
def isSpace (c : Char) : Bool :=
  decide (c.toNat ∈ [0x9, 0xA, 0xB, 0xC, 0xD, 0x20, 0x85, 0xA0, 0x1680, 0x2028, 0x2029, 0x202F, 0x205F, 0x3000] ∨
    (0x2000 ≤ c.toNat ∧ c.toNat ≤ 0x200A))

/-- The characters a wire scope keeps. -/
def wireSafe (c : Char) : Bool :=
  decide (('a' ≤ c ∧ c ≤ 'z') ∨ ('A' ≤ c ∧ c ≤ 'Z') ∨ ('0' ≤ c ∧ c ≤ '9') ∨ c = '-' ∨ c = '_' ∨ c = '.')

/-- Drop a text's characters that satisfy a test from both ends. -/
def trimBoth (drop : Char → Bool) (text : List Char) : List Char := (text.dropWhile drop).rdropWhile drop

def sanitizeWireScope (value : String) : String :=
  let safe := (trimBoth isSpace value.toList).map fun c => if wireSafe c then c else '-'
  String.ofList (trimBoth (fun c => decide (c = '-')) safe)

/-- The wire cluster of an instance: its business cluster, its source cluster or its provider. -/
def clusterOf (ins : Instance) : String :=
  if ins.cluster ≠ "" ∧ (ins.sourceCluster = "" ∨ ins.cluster ≠ ins.provider) then sanitizeWireScope ins.cluster
  else if ins.sourceCluster ≠ "" then sanitizeWireScope ins.sourceCluster
  else if ins.provider ≠ "" then ins.provider
  else defaultCluster

def firstPort (ins : Instance) : ℤ :=
  match ins.ports with
  | some (some port :: _) => port.port
  | _ => 0

def effectiveGroup (group : String) : String := if group = "" then defaultGroup else group

/-- The text of a composite id. -/
def compositeText (ip : String) (port : ℤ) (cluster group service : String) : String :=
  ip ++ "#" ++ toString port ++ "#" ++ cluster ++ "#" ++ group ++ "@@" ++ service

def compositeIDWithGroup (ins : Instance) (group : String) : String :=
  compositeText ins.ip (firstPort ins) (clusterOf ins) (effectiveGroup group) ins.appCode

/-! ## Hosts and metadata -/

abbrev StringMap := FiniteMap String String

/-- The value of a key; a missing key reads as the empty string. -/
def StringMap.value (m : StringMap) (key : String) : String := (m.lookup key).getD ""

/-- A host as the naming SDK lists it. -/
structure Host where
  instanceID : String
  ip : String
  port : ℤ
  healthy : Bool
  enabled : Bool
  clusterName : String
  metadata : StringMap
deriving DecidableEq

/-- A registration of a persistent instance. -/
structure InstanceParams where
  serviceName : String
  ip : String
  port : ℤ
  clusterName : String
  groupName : String
  enabled : Bool
  healthy : Bool
  metadata : StringMap
deriving DecidableEq

def hostCompositeID (service group : String) (host : Host) : String :=
  compositeText host.ip host.port host.clusterName (effectiveGroup group) service

def metadataSchemaVersion : String := "1"
def metadataOwner : String := "spotter"
def maxNacosMetadataLength : ℕ := 1024

/-- The metadata carries the mark of this program. -/
def ownerMarked (metadata : StringMap) : Bool := decide (metadata.value "spotterOwner" = metadataOwner)

/-- The language's libraries that the metadata rests on: the payload codec and single-precision numbers as text. -/
structure WireLib extends PayloadCodec where
  formatFloat : UInt32 → String
  parseFloat : String → Option UInt32

variable (lib : WireLib)

def metadataOf (ins : Instance) : StringMap :=
  (∅ : StringMap)
    |>.insert "spotterOwner" metadataOwner
    |>.insert "sourceKey" ins.sourceKey
    |>.insert "sourceCluster" ins.sourceCluster
    |>.insert "instanceId" ins.instanceId
    |>.insert "envType" ins.envType
    |>.insert "envGroup" ins.envGroup
    |>.insert "reversion" (toString ins.reversion)
    |>.insert "status" (toString ins.status)
    |>.insert "state" ins.state
    |>.insert "idc" ins.idc
    |>.insert "cpu" (lib.formatFloat ins.cpu)
    |>.insert "version" ins.version
    |>.insert "schemaVersion" metadataSchemaVersion
    |>.insert "spotter.instance" (compressedCanonicalPayload lib.toPayloadCodec ins)

/-- The number of UTF-16 code units of a text. -/
def utf16Length (text : String) : ℕ := (text.toList.map fun c => if c.toNat < 0x10000 then 1 else 2).sum

def metadataTooLargeError (length : ℕ) : GoError :=
  .classified ("nacos: instance metadata length " ++ toString length ++ " exceeds limit " ++
    toString maxNacosMetadataLength) true []

/-- The error of a metadata map that the server would refuse. -/
def validateMetadataSize (metadata : StringMap) : Option GoError :=
  let length := (metadata.entries.map fun entry => utf16Length entry.1 + utf16Length entry.2).sum
  if maxNacosMetadataLength < length then some (metadataTooLargeError length) else none

/-- The enabled and healthy bits of a registration. -/
def persistentWireFlags (ins : Instance) (sdkTransport : Bool) : Bool × Bool :=
  if ins.status = instanceStatusUnhealthy then (sdkTransport, false) else (ins.enabled, ins.enabled)

/-- The registration of an instance in a group. -/
def registerParams (group : String) (ins : Instance) : InstanceParams where
  serviceName := ins.appCode
  ip := ins.ip
  port := firstPort ins
  clusterName := clusterOf ins
  groupName := effectiveGroup group
  enabled := (persistentWireFlags ins true).1
  healthy := (persistentWireFlags ins true).2
  metadata := metadataOf lib ins

/-! ## Reading hosts back -/

/-- `strconv.ParseInt` to the base ten. -/
def parseInt (bits : ℕ) (raw : String) : Option ℤ :=
  let (negative, digits) := match raw.toList with
    | '-' :: rest => (true, rest)
    | '+' :: rest => (false, rest)
    | rest => (false, rest)
  let magnitude : ℤ := digits.foldl (fun n c => 10 * n + (c.toNat - '0'.toNat)) (0 : ℕ)
  let value := if negative then -magnitude else magnitude
  if digits.isEmpty || !digits.all Char.isDigit then none
  else if -2 ^ (bits - 1) ≤ value ∧ value < 2 ^ (bits - 1) then some value
  else none

def parseInt64 (raw : String) : ℤ := (parseInt 64 raw).getD 0

/-- The status of a host: the one in its metadata if it is readable, else what its enabled bit says. -/
def parseStatus (raw : String) (enabled : Bool) : ℤ :=
  (parseInt 32 raw).getD (if enabled then instanceStatusOnline else instanceStatusUnhealthy)

/-- An empty list of statuses selects every status. -/
def statusAllowed (statuses : List ℤ) (status : ℤ) : Bool := statuses.isEmpty || decide (status ∈ statuses)

/-- The conversion of an integer to 32 bits. -/
def int32 (n : ℤ) : ℤ := Int.bmod n (2 ^ 32)

/-- The ports of a payload with the first one taken from the host. -/
def withFirstPort (ports : List (Option PortInfo)) (port : ℤ) : List (Option PortInfo) :=
  match ports with
  | [] => [some { port := port }]
  | none :: rest => some { port := port } :: rest
  | some first :: rest => some { first with port := port } :: rest

variable (service : String)

/-- The instance of a decoded payload with the host's wire location. -/
def restore (host : Host) (decoded : Instance) : Instance :=
  { decoded with
    appCode := service
    ip := host.ip
    ports := some (withFirstPort (decoded.ports.getD []) (int32 host.port))
    provider := if decoded.provider = "" then host.clusterName else decoded.provider
    enabled := if decoded.status ≠ instanceStatusUnhealthy then host.enabled else decoded.enabled
    instanceId := if decoded.instanceId = "" then host.metadata.value "instanceId" else decoded.instanceId }

/-- The instance of a host without a readable payload. -/
def restoreScalars (host : Host) : Instance where
  instanceId := host.metadata.value "instanceId"
  sourceKey := host.metadata.value "sourceKey"
  sourceCluster := host.metadata.value "sourceCluster"
  appCode := service
  ip := host.ip
  ports := some [some { port := int32 host.port }]
  provider := host.clusterName
  enabled := host.enabled
  envType := host.metadata.value "envType"
  envGroup := host.metadata.value "envGroup"
  state := host.metadata.value "state"
  idc := host.metadata.value "idc"
  version := host.metadata.value "version"
  reversion := if host.metadata.value "schemaVersion" = metadataSchemaVersion then parseInt64 (host.metadata.value "reversion")
    else 0
  status := parseStatus (host.metadata.value "status") host.enabled
  cpu := (lib.parseFloat (host.metadata.value "cpu")).getD 0

def reconstruct (host : Host) : Instance :=
  let payload := if host.metadata.value "schemaVersion" = metadataSchemaVersion then
      decodeCompressedCanonicalPayload lib.toPayloadCodec (host.metadata.value "spotter.instance")
    else none
  match payload with
  | some decoded => restore service host decoded
  | none => restoreScalars lib service host

/-- An unhealthy host that is not enabled drifted from what the SDK transport writes; its revision is dropped. -/
def reconstructForTransport (host : Host) (sdkTransport : Bool) : Instance :=
  let ins := reconstruct lib service host
  if sdkTransport ∧ ins.status = instanceStatusUnhealthy ∧ host.enabled = false then { ins with reversion := 0 } else ins

/-! ## What a written host says -/

theorem notMem_repr {c : Char} (other : c.isDigit = false) (n : ℕ) : c ∉ n.repr.toList := by
  intro among
  rw [Nat.repr_eq_ofList_toDigits, String.toList_ofList] at among
  rw [Nat.isDigit_of_mem_toDigits (by decide) (by decide) among] at other
  cases other

/-- A port's text has no separator of composite ids. -/
theorem hash_notMem_port (port : ℤ) : '#' ∉ (toString port).toList := by
  intro member
  rw [Int.toString_eq_repr] at member
  cases port with
  | ofNat n => exact notMem_repr (by decide) n member
  | negSucc n =>
    rw [Int.repr, String.toList_append, List.mem_append] at member
    rcases member with sign | among
    · exact absurd sign (by decide)
    · exact notMem_repr (by decide) _ among

theorem eq_of_repr {m n : ℕ} (same : m.repr = n.repr) : m = n := by
  rw [Nat.repr_eq_ofList_toDigits, Nat.repr_eq_ofList_toDigits, String.ofList_inj] at same
  have digits := congrArg (fun text => Nat.ofDigitChars 10 text 0) same
  simpa only [Nat.ofDigitChars_toDigits (by decide : 1 < 10) (by decide)] using digits

/-- The text of a port determines it. -/
theorem port_of_toString {port port' : ℤ} (same : toString port = toString port') : port = port' := by
  have unsigned : ∀ m n : ℕ, m.repr ≠ "-" ++ n.repr := by
    intro m n equal
    refine notMem_repr (c := '-') (by decide) m ?_
    rw [equal, String.toList_append]
    exact List.mem_append_left _ List.mem_cons_self
  rw [Int.toString_eq_repr, Int.toString_eq_repr] at same
  cases port with
  | ofNat m =>
    cases port' with
    | ofNat n => exact congrArg Int.ofNat (eq_of_repr same)
    | negSucc n => exact absurd same (unsigned m n.succ)
  | negSucc m =>
    cases port' with
    | ofNat n => exact absurd same.symm (unsigned n m.succ)
    | negSucc n =>
      have equal : "-" ++ m.succ.repr = "-" ++ n.succ.repr := same
      rw [String.append_right_inj] at equal
      exact congrArg Int.negSucc (Nat.succ.inj (eq_of_repr equal))

/-- Within a service's cluster, a composite id determines the address and the port. -/
theorem endpoint_of_compositeText {ip ip' : String} {port port' : ℤ} {cluster group service : String}
    (same : compositeText ip port cluster group service = compositeText ip' port' cluster group service) :
    ip = ip' ∧ port = port' := by
  simp only [compositeText, String.append_left_inj] at same
  obtain ⟨address, text⟩ := join_inj (c := '#') rfl (hash_notMem_port port) (hash_notMem_port port') same
  exact ⟨address, port_of_toString text⟩

section Written

variable {lib : WireLib} {ins : Instance} {service : String} {host : Host}

theorem ownerMarked_metadataOf : ownerMarked (metadataOf lib ins) = true := by
  simp [ownerMarked, metadataOf, StringMap.value]

/-- A host that carries an instance's metadata gives the instance back, at the host's location. -/
theorem reconstruct_of_metadataOf (carried : host.metadata = metadataOf lib ins)
    (roundTrips : lib.toPayloadCodec.RoundTrips ins) :
    reconstruct lib service host = restore service host (canonical ins) := by
  have version : host.metadata.value "schemaVersion" = metadataSchemaVersion := by
    simp [carried, metadataOf, StringMap.value]
  have payload : host.metadata.value "spotter.instance" = compressedCanonicalPayload lib.toPayloadCodec ins := by
    simp [carried, metadataOf, StringMap.value]
  rw [PayloadCodec.RoundTrips] at roundTrips
  simp only [reconstruct, version, payload, roundTrips, ↓reduceIte]

end Written

end Spotter.Nacos
