import Mathlib.Data.Prod.Lex
import Mathlib.Data.String.Basic
import Spotter.Library.SortedStore
import Spotter.Nacos.Batches

/-! # The catalog of a faithful server

The server keeps one host per address, port, cluster, group and service, stores what was registered
verbatim and derives the host's id from its key. A listing is complete; its order is the store's and
nothing in the sink's result depends on it.
-/

namespace Spotter.Nacos

open Library

/-- What identifies a host. -/
structure HostKey where
  service : String
  group : String
  cluster : String
  ip : String
  port : ℤ
deriving DecidableEq

namespace HostKey

def tuple (key : HostKey) : String ×ₗ String ×ₗ String ×ₗ String ×ₗ ℤ :=
  toLex (key.service, toLex (key.group, toLex (key.cluster, toLex (key.ip, key.port))))

theorem tuple_injective : Function.Injective tuple := by
  rintro ⟨⟩ ⟨⟩ same
  simpa [tuple] using same

instance : LinearOrder HostKey := LinearOrder.lift' tuple tuple_injective

/-- The id of the key's host. -/
def compositeID (key : HostKey) : String := compositeText key.ip key.port key.cluster key.group key.service

/-- The pair of the key's host. -/
abbrev pair (key : HostKey) : ClusterKey := ⟨key.service, key.cluster⟩

end HostKey

namespace InstanceParams

variable (p : InstanceParams)

def key : HostKey := ⟨p.serviceName, p.groupName, p.clusterName, p.ip, p.port⟩

abbrev pair : ClusterKey := ⟨p.serviceName, p.clusterName⟩

/-- The host that the server lists for a registration. -/
def host : Host where
  instanceID := p.key.compositeID
  ip := p.ip
  port := p.port
  healthy := p.healthy
  enabled := p.enabled
  clusterName := p.clusterName
  metadata := p.metadata

/-- The registration carries the mark of this program. -/
def Owned : Prop := ownerMarked p.metadata = true

instance (p : InstanceParams) : Decidable p.Owned := inferInstanceAs (Decidable (_ = true))

end InstanceParams

/-- The registered hosts. -/
abbrev Catalog := SortedStore InstanceParams.key

namespace Catalog

variable (catalog : Catalog)

/-- The server applies a registration. -/
def register (p : InstanceParams) : Catalog := catalog.replaceOrInsert p

/-- The server applies a deregistration. -/
def deregister (key : HostKey) : Catalog := catalog.erase key

/-- `SelectAllInstances`; an empty cluster name selects every cluster. -/
def selectAll (group service cluster : String) : List Host :=
  (catalog.entries.filter fun p =>
    decide (p.groupName = group ∧ p.serviceName = service ∧ (cluster = "" ∨ p.clusterName = cluster))).map
      InstanceParams.host

/-- The names of a group's services. -/
def listServices (group : String) : List String :=
  ((catalog.entries.filter fun p => decide (p.groupName = group)).map InstanceParams.serviceName).dedup

variable {catalog : Catalog} {p other : InstanceParams} {key : HostKey} {group service cluster : String} {host : Host}

theorem mem_register : other ∈ (catalog.register p).entries ↔ other = p ∨ (other ∈ catalog.entries ∧ other.key ≠ p.key) :=
  SortedStore.mem_replaceOrInsert

theorem mem_deregister : other ∈ (catalog.deregister key).entries ↔ other ∈ catalog.entries ∧ other.key ≠ key :=
  SortedStore.mem_erase

theorem mem_selectAll : host ∈ catalog.selectAll group service cluster ↔
    ∃ p ∈ catalog.entries, p.groupName = group ∧ p.serviceName = service ∧
      (cluster = "" ∨ p.clusterName = cluster) ∧ p.host = host := by
  simp only [selectAll, List.mem_map, List.mem_filter, decide_eq_true_eq, and_assoc]

theorem mem_listServices : service ∈ catalog.listServices group ↔
    ∃ p ∈ catalog.entries, p.groupName = group ∧ p.serviceName = service := by
  simp only [listServices, List.mem_dedup, List.mem_map, List.mem_filter, decide_eq_true_eq, and_assoc]

end Catalog

end Spotter.Nacos
