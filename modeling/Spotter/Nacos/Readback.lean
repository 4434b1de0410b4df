import Spotter.Nacos.AddressReuse
import Spotter.Nacos.OwnerRecords

/-! # Reading registrations back

The registration of an instance whose first port fits into 32 bits reads back as that instance, and a host that was
written for a source still names it.
-/

namespace Spotter.Nacos

open Library Domain Ports

/-- The host was written by this sink's register for an instance that names its source. -/
def WrittenForSource (config : Config) (p : InstanceParams) : Prop :=
  ∃ ins, SourceAware ins ∧ ins.ip ≠ "" ∧ config.lib.toPayloadCodec.RoundTrips ins ∧ p = registerParams config.lib config.group ins

variable {config : Config} {ins : Instance}

/-- The first port is there and survives the conversion to 32 bits. -/
def FirstPortFits (ins : Instance) : Prop :=
  ∃ first rest, ins.ports = some (some first :: rest) ∧ int32 first.port = first.port

theorem withFirstPort_of_fits (fits : FirstPortFits ins) :
    withFirstPort (ins.ports.getD []) (int32 (firstPort ins)) = ins.ports.getD [] := by
  obtain ⟨first, rest, ports, same⟩ := fits
  have port : firstPort ins = first.port := by simp only [firstPort, ports]
  rw [port, same, ports]
  rfl

/-- A host written for an instance names the same source and address when it is read back. -/
theorem readBack_source (config : Config) (roundTrips : config.lib.toPayloadCodec.RoundTrips ins) :
    let read := readBack config (registerParams config.lib config.group ins)
    read.sourceKey = ins.sourceKey ∧ read.sourceCluster = ins.sourceCluster ∧ read.ip = ins.ip := by
  rw [readBack_registration roundTrips]
  exact ⟨rfl, rfl, rfl⟩

end Spotter.Nacos
