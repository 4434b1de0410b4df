import Spotter.Library.FiniteMap

/-! # Instances and their identity

An instance is the provider-independent record that sources produce and sinks receive. Fields
that hold a pointer, a slice or a map in the source and may be nil there are options here.
Integers are unbounded because the modelled code only compares them. The CPU share is the bit
pattern of its single-precision value: the code only copies it and compares it for equality.
-/

namespace Spotter.Domain

open Library

/-- A network port exposed by an instance. -/
structure PortInfo where
  name : String := ""
  protocol : String := ""
  port : ℤ := 0
  servicePort : ℤ := 0
deriving DecidableEq

structure Instance where
  sourceKey : String := ""
  sourceCluster : String := ""
  instanceId : String := ""
  level : String := ""
  ports : Option (List (Option PortInfo)) := none
  ip : String := ""
  envCode : String := ""
  envType : String := ""
  envGroup : String := ""
  cluster : String := ""
  version : String := ""
  enabled : Bool := false
  state : String := ""
  healthState : String := ""
  appCode : String := ""
  provider : String := ""
  label : Option (FiniteMap String String) := none
  hostname : String := ""
  cpu : UInt32 := 0
  memory : ℤ := 0
  disk : ℤ := 0
  os : String := ""
  image : Option (FiniteMap String String) := none
  idc : String := ""
  reversion : ℤ := 0
  status : ℤ := 0
deriving DecidableEq

/-- A slice of instances, whose elements may be nil. -/
abbrev Instances := List (Option Instance)

/-- What identifies a full batch, from its scope and its instances. -/
abbrev FullBatchID := String → Instances → String

/-! ## Status values -/

def instanceStatusUnknown : ℤ := 0
def instanceStatusOnline : ℤ := 1
def instanceStatusUnhealthy : ℤ := 2
def instanceStatusOffline : ℤ := 3

namespace Instance

/-- A label's value; a nil map and a missing key both read as the empty string. -/
def labelValue (ins : Instance) (key : String) : String :=
  ((ins.label.getD ∅).lookup key).getD ""

/-- The instance announces that its endpoint is gone. -/
def offline (ins : Instance) : Bool := ins.status == instanceStatusOffline

end Instance

/-- The source identity of an instance. `InstanceId` alone stays compatible with the wire. -/
def identityKey (ins : Instance) : String :=
  if ins.sourceKey ≠ "" then ins.sourceKey
  else if ins.labelValue "sourceKey" ≠ "" then ins.labelValue "sourceKey"
  else if ins.provider = "" then ins.instanceId
  else ins.provider ++ ":" ++ ins.instanceId

/-- Every string is the identity of some instance with any prescribed revision and status. -/
theorem exists_identityKey (key : String) (reversion status : ℤ) :
    ∃ ins : Instance, identityKey ins = key ∧ ins.reversion = reversion ∧ ins.status = status := by
  rcases eq_or_ne key ("") with rfl | empty
  · exact ⟨{ reversion := reversion, status := status }, by simp [identityKey, Instance.labelValue], rfl, rfl⟩
  · exact ⟨{ sourceKey := key, reversion := reversion, status := status }, by simp [identityKey, empty], rfl, rfl⟩

end Spotter.Domain
