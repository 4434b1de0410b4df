import Mathlib.Data.List.ReduceOption
import Spotter.Domain.Instance
import Spotter.Library.Heap

/-! # Instances in memory

An instance is a record that leads to a slice of pointers to ports and to two maps; each of these may be nil. The instance that
a pointer denotes is what following it reads. Storing an instance builds all its objects anew.
-/

namespace Spotter.Domain

open Library

abbrev PortList := List (Option PortInfo)

abbrev StringTable := FiniteMap String String

/-- The record of an instance, with the addresses of its slice and its maps. -/
structure InstanceRecord where
  sourceKey : String
  sourceCluster : String
  instanceId : String
  level : String
  ports : Option Ref
  ip : String
  envCode : String
  envType : String
  envGroup : String
  cluster : String
  version : String
  enabled : Bool
  state : String
  healthState : String
  appCode : String
  provider : String
  label : Option Ref
  hostname : String
  cpu : UInt32
  memory : ℤ
  disk : ℤ
  os : String
  image : Option Ref
  idc : String
  reversion : ℤ
  status : ℤ

/-- The instance of a record, given what its addresses lead to. -/
def InstanceRecord.toInstance (record : InstanceRecord) (ports : Option PortList) (label image : Option StringTable) : Instance :=
  { record with ports := ports, label := label, image := image }

/-- The record of an instance, given where its slice and its maps are. -/
def Instance.record (ins : Instance) (ports label image : Option Ref) : InstanceRecord :=
  { ins with ports := ports, label := label, image := image }

/-- What a pointer can lead to. -/
inductive Object
  | port (info : PortInfo)
  | ports (elements : List (Option Ref))
  | map (entries : StringTable)
  | inst (record : InstanceRecord)

abbrev Memory := Heap Object

/-- The pointers that an object holds. -/
def Object.pointers : Object → List Ref
  | .port _ => []
  | .ports elements => elements.reduceOption
  | .map _ => []
  | .inst record => record.ports.toList ++ record.label.toList ++ record.image.toList

/-! ## Reading -/

variable (memory : Memory)

def readPort : Option Ref → Option (Option PortInfo)
  | none => some none
  | some ref =>
    match memory.read ref with
    | some (.port info) => some (some info)
    | _ => none

def readPortList (memory : Memory) : List (Option Ref) → Option PortList
  | [] => some []
  | element :: rest => (readPort memory element).bind fun port => (readPortList memory rest).map (port :: ·)

/-- The elements of a slice; a nil slice has none. -/
def readSlice : Option Ref → Option (Option (List (Option Ref)))
  | none => some none
  | some ref =>
    match memory.read ref with
    | some (.ports elements) => some (some elements)
    | _ => none

def readPorts (slice : Option Ref) : Option (Option PortList) :=
  (readSlice memory slice).bind fun
    | none => some none
    | some elements => (readPortList memory elements).map some

def readMap : Option Ref → Option (Option StringTable)
  | none => some none
  | some ref =>
    match memory.read ref with
    | some (.map entries) => some (some entries)
    | _ => none

/-- The instance that a pointer leads to. -/
def readInstance (ref : Ref) : Option Instance :=
  match memory.read ref with
  | some (.inst record) =>
    (readPorts memory record.ports).bind fun ports =>
      (readMap memory record.label).bind fun label =>
        (readMap memory record.image).map fun image => record.toInstance ports label image
  | _ => none

def portObjects : Option Ref → List Ref
  | none => []
  | some ref =>
    ref :: match memory.read ref with
      | some (.ports elements) => elements.reduceOption
      | _ => []

/-- The addresses of all objects of an instance: its record, its slice and ports, and its maps. -/
def objectsOf (ref : Ref) : List Ref :=
  ref :: match memory.read ref with
    | some (.inst record) => portObjects memory record.ports ++ record.label.toList ++ record.image.toList
    | _ => []

variable {elements : List (Option Ref)} {element : Option Ref}

section Frame

variable {memory other : Memory}

theorem readPort_congr (same : ∀ ref ∈ element.toList, other.read ref = memory.read ref) :
    readPort other element = readPort memory element := by
  cases element with
  | none => rfl
  | some ref => rw [readPort, readPort, same ref (List.mem_singleton_self ref)]

theorem readPortList_congr (same : ∀ ref ∈ elements.reduceOption, other.read ref = memory.read ref) :
    readPortList other elements = readPortList memory elements := by
  induction elements with
  | nil => rfl
  | cons element rest ih =>
    rw [readPortList, readPortList, readPort_congr, ih]
    · exact fun ref member => same ref (List.reduceOption_mem_iff.mpr (List.mem_cons_of_mem _ (List.reduceOption_mem_iff.mp member)))
    · exact fun ref member => same ref (List.reduceOption_mem_iff.mpr (Option.mem_toList.mp member ▸ List.mem_cons_self))

theorem readMap_congr {map : Option Ref} (same : ∀ ref ∈ map.toList, other.read ref = memory.read ref) :
    readMap other map = readMap memory map := by
  cases map with
  | none => rfl
  | some ref => rw [readMap, readMap, same ref (List.mem_singleton_self ref)]

theorem readPorts_congr {slice : Option Ref} (same : ∀ ref ∈ portObjects memory slice, other.read ref = memory.read ref) :
    readPorts other slice = readPorts memory slice ∧ portObjects other slice = portObjects memory slice := by
  cases slice with
  | none => exact ⟨rfl, rfl⟩
  | some ref =>
    have head := same ref List.mem_cons_self
    rw [readPorts, readPorts, readSlice, readSlice, portObjects, head]
    rw [portObjects] at same ⊢
    refine ⟨?_, rfl⟩
    cases found : memory.read ref with
    | none => rfl
    | some object =>
      cases object with
      | ports elements =>
        rw [found] at same
        rw [Option.bind_some, Option.bind_some]
        exact congrArg (Option.map some) (readPortList_congr fun ref member => same ref (List.mem_cons_of_mem _ member))
      | port info => rfl
      | map entries => rfl
      | inst record => rfl

/-- What a pointer leads to depends on the objects of the instance only. -/
theorem readInstance_congr {ref : Ref} (same : ∀ query ∈ objectsOf memory ref, other.read query = memory.read query) :
    readInstance other ref = readInstance memory ref ∧ objectsOf other ref = objectsOf memory ref := by
  have head := same ref List.mem_cons_self
  rw [readInstance, readInstance, objectsOf, head]
  rw [objectsOf] at same ⊢
  cases found : memory.read ref with
  | none => exact ⟨rfl, rfl⟩
  | some object =>
    cases object with
    | inst record =>
      simp only [found, List.forall_mem_cons, List.forall_mem_append] at same ⊢
      obtain ⟨_, ⟨ports, label⟩, image⟩ := same
      obtain ⟨portsRead, portsObjects⟩ := readPorts_congr ports
      rw [portsRead, portsObjects, readMap_congr label, readMap_congr image]
      exact ⟨rfl, rfl⟩
    | port info | ports elements | map entries => exact ⟨rfl, rfl⟩

end Frame

variable {port : Option PortInfo}

section Bounds

variable {memory : Memory}

theorem readPort_port (found : readPort memory element = some port) :
    ∀ ref ∈ element.toList, ∃ info, memory.read ref = some (.port info) := by
  intro ref member
  cases Option.mem_toList.mp member
  rw [readPort] at found
  split at found
  · next info read => exact ⟨info, read⟩
  · cases found

theorem readPortList_port {ports : PortList} (found : readPortList memory elements = some ports) :
    ∀ ref ∈ elements.reduceOption, ∃ info, memory.read ref = some (.port info) := by
  intro ref member
  rw [List.reduceOption_mem_iff] at member
  induction elements generalizing ports with
  | nil => cases member
  | cons element rest ih =>
    obtain ⟨port, first, others⟩ := Option.bind_eq_some_iff.mp found
    obtain ⟨later, restFound, _⟩ := Option.map_eq_some_iff.mp others
    rcases List.mem_cons.mp member with rfl | later
    · exact readPort_port first ref (Option.mem_toList.mpr rfl)
    · exact ih restFound later

variable {map : Option Ref} {entries : Option StringTable}

theorem readMap_map (found : readMap memory map = some entries) :
    ∀ ref ∈ map.toList, ∃ held, memory.read ref = some (.map held) := by
  intro ref member
  cases Option.mem_toList.mp member
  rw [readMap] at found
  split at found
  · next held read => exact ⟨held, read⟩
  · cases found

theorem readPort_bound (found : readPort memory element = some port) :
    ∀ ref ∈ element.toList, ref < memory.size := by
  intro ref member
  obtain ⟨info, read⟩ := readPort_port found ref member
  exact Heap.read_bound read

theorem readPortList_bound {ports : PortList} (found : readPortList memory elements = some ports) :
    ∀ ref ∈ elements.reduceOption, ref < memory.size := by
  intro ref member
  obtain ⟨info, read⟩ := readPortList_port found ref member
  exact Heap.read_bound read

theorem readMap_bound (found : readMap memory map = some entries) : ∀ ref ∈ map.toList, ref < memory.size := by
  intro ref member
  obtain ⟨held, read⟩ := readMap_map found ref member
  exact Heap.read_bound read

variable {slice : Option Ref} {ports : Option PortList}

/-- A slice that can be read is nil, or its elements can be read. -/
theorem readPorts_cases (found : readPorts memory slice = some ports) :
    slice = none ∨ ∃ ref elements values, slice = some ref ∧ memory.read ref = some (.ports elements) ∧
      readPortList memory elements = some values := by
  cases slice with
  | none => exact .inl rfl
  | some ref =>
    rw [readPorts, readSlice] at found
    cases read : memory.read ref with
    | none => simp [read] at found
    | some object =>
      cases object with
      | ports elements =>
        simp only [read, Option.bind_some, Option.map_eq_some_iff] at found
        obtain ⟨values, listed, _⟩ := found
        exact .inr ⟨ref, elements, values, rfl, read, listed⟩
      | port info | map entries | inst record => simp [read] at found

theorem readPorts_bound (found : readPorts memory slice = some ports) :
    ∀ ref ∈ portObjects memory slice, ref < memory.size := by
  rcases readPorts_cases found with rfl | ⟨ref, elements, values, rfl, read, listed⟩
  · exact List.forall_mem_nil _
  · rw [portObjects, read]
    exact List.forall_mem_cons.mpr ⟨Heap.read_bound read, readPortList_bound listed⟩

variable {ref : Ref} {ins : Instance}

theorem readRecord_of_readInstance (found : readInstance memory ref = some ins) :
    ∃ record ports label image, memory.read ref = some (.inst record) ∧ readPorts memory record.ports = some ports ∧
      readMap memory record.label = some label ∧ readMap memory record.image = some image ∧
        record.toInstance ports label image = ins := by
  rw [readInstance] at found
  cases read : memory.read ref with
  | none => simp [read] at found
  | some object =>
    cases object with
    | inst record =>
      simp only [read, Option.bind_eq_some_iff, Option.map_eq_some_iff] at found
      obtain ⟨ports, portsFound, label, labelFound, image, imageFound, made⟩ := found
      exact ⟨record, ports, label, image, rfl, portsFound, labelFound, imageFound, made⟩
    | port info | ports elements | map entries => simp [read] at found

/-- All objects of an instance that can be read are in memory. -/
theorem readInstance_bound (found : readInstance memory ref = some ins) :
    ∀ query ∈ objectsOf memory ref, query < memory.size := by
  obtain ⟨record, ports, label, image, read, portsRead, labelRead, imageRead, _⟩ := readRecord_of_readInstance found
  rw [objectsOf, read]
  simp only [List.forall_mem_cons, List.forall_mem_append]
  exact ⟨Heap.read_bound read, ⟨readPorts_bound portsRead, readMap_bound labelRead⟩, readMap_bound imageRead⟩

theorem portObjects_closed (found : readPorts memory slice = some ports) :
    ∀ ref ∈ portObjects memory slice, ∀ object, memory.read ref = some object →
      ∀ other ∈ object.pointers, other ∈ portObjects memory slice := by
  rcases readPorts_cases found with rfl | ⟨slice, elements, values, rfl, read, listed⟩
  · exact List.forall_mem_nil _
  · rw [portObjects, read]
    refine List.forall_mem_cons.mpr ⟨?_, ?_⟩
    · intro object same other held
      rw [read] at same
      cases same
      exact List.mem_cons_of_mem _ held
    · intro ref member object same other held
      obtain ⟨info, port⟩ := readPortList_port listed ref member
      rw [port] at same
      cases same
      cases held

theorem readMap_closed (found : readMap memory map = some entries) :
    ∀ ref ∈ map.toList, ∀ object, memory.read ref = some object → object.pointers = [] := by
  intro ref member object same
  obtain ⟨held, read⟩ := readMap_map found ref member
  rw [read] at same
  cases same
  rfl

/-- The objects of an instance lead to its objects only. -/
theorem objectsOf_closed (found : readInstance memory ref = some ins) :
    ∀ query ∈ objectsOf memory ref, ∀ object, memory.read query = some object →
      ∀ other ∈ object.pointers, other ∈ objectsOf memory ref := by
  obtain ⟨record, ports, label, image, read, portsRead, labelRead, imageRead, _⟩ := readRecord_of_readInstance found
  rw [objectsOf, read]
  simp only [List.forall_mem_cons, List.forall_mem_append]
  refine ⟨?_, ⟨?_, ?_⟩, ?_⟩
  · intro object same other held
    rw [read] at same
    cases same
    rw [Object.pointers, List.mem_append, List.mem_append] at held
    rw [List.mem_cons, List.mem_append, List.mem_append]
    refine .inr (held.imp_left (Or.imp_left fun slice => ?_))
    rw [Option.mem_toList.mp slice, portObjects]
    exact List.mem_cons_self
  · intro query member object same other held
    have inside := portObjects_closed portsRead query member object same other held
    exact List.mem_cons_of_mem _ (List.mem_append_left _ (List.mem_append_left _ inside))
  · intro query member object same other held
    rw [readMap_closed labelRead query member object same] at held
    cases held
  · intro query member object same other held
    rw [readMap_closed imageRead query member object same] at held
    cases held

/-- Who has an instance and everything that what they have leads to, has all its objects. -/
theorem objectsOf_subset {held : List Ref}
    (closed : ∀ ref ∈ held, ∀ object, memory.read ref = some object → ∀ other ∈ object.pointers, other ∈ held)
    (member : ref ∈ held) (found : readInstance memory ref = some ins) : ∀ query ∈ objectsOf memory ref, query ∈ held := by
  obtain ⟨record, ports, label, image, read, portsRead, _⟩ := readRecord_of_readInstance found
  have parts := closed ref member _ read
  simp only [Object.pointers, List.forall_mem_append] at parts
  obtain ⟨⟨slice, labels⟩, images⟩ := parts
  rw [objectsOf, read]
  simp only [List.forall_mem_cons, List.forall_mem_append]
  refine ⟨member, ⟨?_, labels⟩, images⟩
  rcases readPorts_cases portsRead with unset | ⟨address, elements, values, set, listed, _⟩
  · rw [unset]
    exact List.forall_mem_nil _
  · have first := slice address (Option.mem_toList.mpr set)
    rw [set, portObjects, listed]
    exact List.forall_mem_cons.mpr ⟨first, closed address first _ listed⟩

end Bounds

section Extension

variable {memory larger : Memory} (extension : memory.Extends larger)

include extension

theorem readPort_extends (found : readPort memory element = some port) :
    readPort larger element = some port := by
  rw [readPort_congr fun ref member => extension.read_eq (readPort_bound found ref member), found]

theorem readPortList_extends {ports : PortList} (found : readPortList memory elements = some ports) :
    readPortList larger elements = some ports := by
  rw [readPortList_congr fun ref member => extension.read_eq (readPortList_bound found ref member), found]

theorem readMap_extends {map : Option Ref} {entries : Option StringTable} (found : readMap memory map = some entries) :
    readMap larger map = some entries := by
  rw [readMap_congr fun ref member => extension.read_eq (readMap_bound found ref member), found]

theorem readPorts_extends {slice : Option Ref} {ports : Option PortList} (found : readPorts memory slice = some ports) :
    readPorts larger slice = some ports ∧ portObjects larger slice = portObjects memory slice := by
  obtain ⟨read, objects⟩ := readPorts_congr fun ref member => extension.read_eq (readPorts_bound found ref member)
  exact ⟨read.trans found, objects⟩

theorem readInstance_extends {ref : Ref} {ins : Instance} (found : readInstance memory ref = some ins) :
    readInstance larger ref = some ins ∧ objectsOf larger ref = objectsOf memory ref := by
  obtain ⟨read, objects⟩ := readInstance_congr fun query member => extension.read_eq (readInstance_bound found query member)
  exact ⟨read.trans found, objects⟩

end Extension

/-! ## Storing -/

def storePort (memory : Memory) : Option PortInfo → Option Ref × Memory
  | none => (none, memory)
  | some info => (some memory.size, memory.alloc (.port info))

def storePortList (memory : Memory) : PortList → List (Option Ref) × Memory
  | [] => ([], memory)
  | port :: rest =>
    let (element, memory) := storePort memory port
    let (elements, memory) := storePortList memory rest
    (element :: elements, memory)

def storePorts (memory : Memory) : Option PortList → Option Ref × Memory
  | none => (none, memory)
  | some ports =>
    let (elements, memory) := storePortList memory ports
    (some memory.size, memory.alloc (.ports elements))

def storeMap (memory : Memory) : Option StringTable → Option Ref × Memory
  | none => (none, memory)
  | some entries => (some memory.size, memory.alloc (.map entries))

/-- A new instance, with a slice, ports and maps of its own. -/
def storeInstance (memory : Memory) (ins : Instance) : Ref × Memory :=
  let (ports, memory) := storePorts memory ins.ports
  let (label, memory) := storeMap memory ins.label
  let (image, memory) := storeMap memory ins.image
  (memory.size, memory.alloc (.inst (ins.record ports label image)))

section Stored

variable (memory : Memory)

/-- Storing keeps what is in memory, and the stored parts are at new addresses. -/
structure Stores (memory larger : Memory) (addresses : List Ref) : Prop where
  extension : memory.Extends larger
  fresh : ∀ ref ∈ addresses, memory.size ≤ ref

theorem storePort_stores (port : Option PortInfo) : Stores memory (storePort memory port).2 (storePort memory port).1.toList ∧
      readPort (storePort memory port).2 (storePort memory port).1 = some port := by
  cases port with
  | none => exact ⟨⟨.refl memory, List.forall_mem_nil _⟩, rfl⟩
  | some info =>
    refine ⟨⟨Heap.extends_alloc memory _, ?_⟩, ?_⟩
    · intro ref member
      exact (List.mem_singleton.mp member).ge
    · rw [storePort, readPort, Heap.read_alloc_size]

theorem storePortList_stores (ports : PortList) :
    Stores memory (storePortList memory ports).2 (storePortList memory ports).1.reduceOption ∧
      readPortList (storePortList memory ports).2 (storePortList memory ports).1 = some ports := by
  induction ports generalizing memory with
  | nil => exact ⟨⟨.refl memory, List.forall_mem_nil _⟩, rfl⟩
  | cons port rest ih =>
    obtain ⟨first, firstRead⟩ := storePort_stores memory port
    obtain ⟨others, othersRead⟩ := ih (storePort memory port).2
    refine ⟨⟨first.extension.trans others.extension, ?_⟩, ?_⟩
    · intro ref member
      rw [List.reduceOption_mem_iff, storePortList] at member
      rcases List.mem_cons.mp member with same | later
      · exact first.fresh ref (Option.mem_toList.mpr same.symm)
      · exact first.extension.size_le.trans (others.fresh ref (List.reduceOption_mem_iff.mpr later))
    · simp only [storePortList, readPortList, readPort_extends others.extension firstRead, othersRead, Option.bind_some,
        Option.map_some]

theorem storePorts_stores (ports : Option PortList) :
    Stores memory (storePorts memory ports).2 (portObjects (storePorts memory ports).2 (storePorts memory ports).1) ∧
      readPorts (storePorts memory ports).2 (storePorts memory ports).1 = some ports := by
  cases ports with
  | none => exact ⟨⟨.refl memory, List.forall_mem_nil _⟩, rfl⟩
  | some ports =>
    obtain ⟨stored, read⟩ := storePortList_stores memory ports
    have grown := Heap.extends_alloc (storePortList memory ports).2 (.ports (storePortList memory ports).1)
    refine ⟨⟨stored.extension.trans grown, ?_⟩, ?_⟩
    · simp only [storePorts, portObjects, Heap.read_alloc_size, List.forall_mem_cons]
      exact ⟨stored.extension.size_le, stored.fresh⟩
    · simp only [storePorts, readPorts, readSlice, Heap.read_alloc_size, Option.bind_some, readPortList_extends grown read,
        Option.map_some]

theorem storeMap_stores (map : Option StringTable) : Stores memory (storeMap memory map).2 (storeMap memory map).1.toList ∧
      readMap (storeMap memory map).2 (storeMap memory map).1 = some map := by
  cases map with
  | none => exact ⟨⟨.refl memory, List.forall_mem_nil _⟩, rfl⟩
  | some entries =>
    refine ⟨⟨Heap.extends_alloc memory _, ?_⟩, ?_⟩
    · intro ref member
      exact (List.mem_singleton.mp member).ge
    · rw [storeMap, readMap, Heap.read_alloc_size]

variable {memory}

/-- A record that is stored after its slice and its maps reads as the instance of these parts, and all its objects are new. -/
theorem stores_record {first second third : Memory} {record : InstanceRecord} {ports : Option PortList}
    {label image : Option StringTable} (portsStored : Stores memory first (portObjects first record.ports))
    (portsRead : readPorts first record.ports = some ports) (labelStored : Stores first second record.label.toList)
    (labelRead : readMap second record.label = some label) (imageStored : Stores second third record.image.toList)
    (imageRead : readMap third record.image = some image) :
    Stores memory (third.alloc (.inst record)) (objectsOf (third.alloc (.inst record)) third.size) ∧
      readInstance (third.alloc (.inst record)) third.size = some (record.toInstance ports label image) := by
  have grown := Heap.extends_alloc third (.inst record)
  have labelUp := imageStored.extension.trans grown
  have portsUp := labelStored.extension.trans labelUp
  obtain ⟨portsAgain, portsObjects⟩ := readPorts_extends portsUp portsRead
  have labelSize := portsStored.extension.size_le
  have imageSize := labelSize.trans labelStored.extension.size_le
  refine ⟨⟨portsStored.extension.trans portsUp, ?_⟩, ?_⟩
  · simp only [objectsOf, Heap.read_alloc_size, List.forall_mem_cons, List.forall_mem_append, portsObjects]
    refine ⟨imageSize.trans imageStored.extension.size_le, ⟨portsStored.fresh, ?_⟩, ?_⟩
    · exact fun ref member => labelSize.trans (labelStored.fresh ref member)
    · exact fun ref member => imageSize.trans (imageStored.fresh ref member)
  · simp only [readInstance, Heap.read_alloc_size, portsAgain, readMap_extends labelUp labelRead, readMap_extends grown imageRead,
      Option.bind_some, Option.map_some]

/-- A stored instance reads as it was given, and all its objects are new. -/
theorem storeInstance_stores (memory : Memory) (ins : Instance) :
    Stores memory (storeInstance memory ins).2 (objectsOf (storeInstance memory ins).2 (storeInstance memory ins).1) ∧
      readInstance (storeInstance memory ins).2 (storeInstance memory ins).1 = some ins := by
  obtain ⟨ports, portsRead⟩ := storePorts_stores memory ins.ports
  obtain ⟨label, labelRead⟩ := storeMap_stores (storePorts memory ins.ports).2 ins.label
  obtain ⟨image, imageRead⟩ := storeMap_stores (storeMap (storePorts memory ins.ports).2 ins.label).2 ins.image
  exact stores_record ports portsRead label labelRead image imageRead

end Stored

end Spotter.Domain
