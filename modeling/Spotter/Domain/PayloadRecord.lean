import Mathlib.Data.Countable.Basic
import Mathlib.Logic.Equiv.Multiset
import Spotter.Domain.CanonicalPayload
import Spotter.Domain.ObjectGraph
import Spotter.Library.Outcome
import Spotter.Ports.Errors

/-! # The payload record in memory

The payload of an instance is a record of its own, filled field by field with copies of the slice and the maps, and read back
field by field into a new instance. The text of the record and its compressed form belong to libraries.
-/

namespace Spotter.Domain

open Library Ports

/-- `canonicalPayload`, with what stands for its slice and its maps. -/
structure PayloadRecord (P M : Type) where
  schemaVersion : ℤ
  sourceKey : String
  sourceCluster : String
  instanceID : String
  level : String
  ports : P
  ip : String
  envCode : String
  envType : String
  envGroup : String
  cluster : String
  version : String
  enabled : Bool
  state : String
  healthState : String
  appCode : String
  provider : String
  label : M
  hostname : String
  cpu : UInt32
  memory : ℤ
  disk : ℤ
  os : String
  image : M
  idc : String
  reversion : ℤ
  status : ℤ
deriving DecidableEq

/-- The record with another slice and other maps. -/
def PayloadRecord.withParts {P M Q N : Type} (payload : PayloadRecord P M) (ports : Q) (label image : N) : PayloadRecord Q N :=
  { payload with ports := ports, label := label, image := image }

abbrev PayloadValue := PayloadRecord (Option PortList) (Option StringTable)

def canonicalPayloadVersion : ℤ := 1

/-- The record that `CanonicalPayload` fills: every other field is the field of its name. -/
def InstanceRecord.payload (ins : InstanceRecord) (ports label image : Option Ref) : PayloadRecord (Option Ref) (Option Ref) :=
  { ins with
    schemaVersion := canonicalPayloadVersion
    instanceID := ins.instanceId
    ports := ports
    label := label
    image := image }

/-- The instance that `DecodeCanonicalPayload` fills: every other field is the field of its name. -/
def PayloadRecord.decoded {P M : Type} (payload : PayloadRecord P M) (ports label image : Option Ref) : InstanceRecord :=
  { payload with instanceId := payload.instanceID, ports := ports, label := label, image := image }

/-! ## Copies -/

/-- `copyMap`: a new map with the same entries. -/
def copyMap (memory : Memory) (input : Option Ref) : Option (Option Ref × Memory) :=
  (readMap memory input).map fun entries => storeMap memory (some (entries.getD ∅))

/-- The loop of `copyPorts`. -/
def copyPortsFrom (memory : Memory) : List (Option Ref) → Option (List (Option Ref) × Memory)
  | [] => some ([], memory)
  | none :: rest => (copyPortsFrom memory rest).map fun (output, memory) => (none :: output, memory)
  | some port :: rest =>
    match memory.read port with
    | some (.port info) =>
      (copyPortsFrom (memory.alloc (.port info)) rest).map fun (output, larger) => (some memory.size :: output, larger)
    | _ => none

def copyPorts (memory : Memory) (input : Option Ref) : Option (Option Ref × Memory) :=
  (readSlice memory input).bind fun elements =>
    (copyPortsFrom memory (elements.getD [])).map fun (output, memory) => (some memory.size, memory.alloc (.ports output))

/-! ## The codecs -/

/-- The JSON, zlib and base64 libraries, and the two conversions between texts and bytes. -/
structure PayloadLibraries where
  marshal : PayloadValue → Except GoError String
  unmarshal : String → Except GoError PayloadValue
  bytes : String → List UInt8
  text : List UInt8 → String
  zlibWrite : List UInt8 → List UInt8
  zlibNewReader : List UInt8 → Except GoError Unit
  zlibReadFrom : List UInt8 → Except GoError (List UInt8)
  zlibClose : List UInt8 → Except GoError Unit
  encodeToString : List UInt8 → String
  decodeString : String → Except GoError (List UInt8)

section Codecs

variable (lib : PayloadLibraries)

/-- What the JSON library sees of a payload in memory. -/
def readPayload (memory : Memory) (payload : PayloadRecord (Option Ref) (Option Ref)) : Option PayloadValue :=
  (readPorts memory payload.ports).bind fun ports =>
    (readMap memory payload.label).bind fun label =>
      (readMap memory payload.image).map fun image => payload.withParts ports label image

def readRecord (memory : Memory) (ref : Ref) : Option InstanceRecord :=
  match memory.read ref with
  | some (.inst record) => some record
  | _ => none

/-- `CanonicalPayload`; a payload that has no JSON text is a panic. -/
def canonicalPayloadAt (memory : Memory) : Option Ref → Outcome GoError (String × Memory)
  | none => .value ("", memory)
  | some ref => do
    let ins ← .deref (readRecord memory ref)
    let (ports, memory) ← .deref (copyPorts memory ins.ports)
    let (label, memory) ← .deref (copyMap memory ins.label)
    let (image, memory) ← .deref (copyMap memory ins.image)
    let payload ← .deref (readPayload memory (ins.payload ports label image))
    match lib.marshal payload with
    | .error _ => .crash
    | .ok data => .value (data, memory)

/-- `DecodeCanonicalPayload`. The library builds the slice, the ports and the maps of the payload. -/
def decodeCanonicalPayloadAt (memory : Memory) (raw : String) : Outcome GoError (Ref × Memory) :=
  if raw = "" then .error (.errorf "instance: canonical payload is empty" [])
  else
    match lib.unmarshal raw with
    | .error err => .error (.wrapped "instance: decode canonical payload: %w" err)
    | .ok value =>
      let (ports, memory) := storePorts memory value.ports
      let (label, memory) := storeMap memory value.label
      let (image, memory) := storeMap memory value.image
      let payload := value.withParts ports label image
      if payload.schemaVersion ≠ canonicalPayloadVersion then
        .error (.errorf "instance: unsupported canonical payload version %d" [toString payload.schemaVersion])
      else do
        let (ports, memory) ← .deref (copyPorts memory payload.ports)
        let (label, memory) ← .deref (copyMap memory payload.label)
        let (image, memory) ← .deref (copyMap memory payload.image)
        .value (memory.size, memory.alloc (.inst (payload.decoded ports label image)))

/-- `CompressedCanonicalPayload`; writing to a buffer in memory does not fail. -/
def compressedCanonicalPayloadAt (memory : Memory) (ins : Option Ref) : Outcome GoError (String × Memory) := do
  let (raw, memory) ← canonicalPayloadAt lib memory ins
  if raw = "" then .value ("", memory) else .value (lib.encodeToString (lib.zlibWrite (lib.bytes raw)), memory)

/-- `DecodeCompressedCanonicalPayload`. -/
def decodeCompressedCanonicalPayloadAt (memory : Memory) (raw : String) : Outcome GoError (Ref × Memory) :=
  if raw = "" then .error (.errorf "instance: compressed canonical payload is empty" [])
  else
    match lib.decodeString raw with
    | .error err => .error (.wrapped "instance: decode compressed payload: %w" err)
    | .ok encoded =>
      match lib.zlibNewReader encoded with
      | .error err => .error (.wrapped "instance: open compressed payload: %w" err)
      | .ok () =>
        match lib.zlibReadFrom encoded with
        | .error err => .error (.wrapped "instance: decompress canonical payload: %w" err)
        | .ok decompressed =>
          match lib.zlibClose encoded with
          | .error err => .error (.wrapped "instance: close compressed payload: %w" err)
          | .ok () => decodeCanonicalPayloadAt lib memory (lib.text decompressed)

end Codecs

/-! ## What the copies hold -/

variable {memory : Memory}

theorem copyMap_eq {input : Option Ref} {entries : Option StringTable} (read : readMap memory input = some entries) :
    copyMap memory input = some (storeMap memory (some (entries.getD ∅))) := by
  rw [copyMap, read, Option.map_some]

theorem copyPortsFrom_eq {larger : Memory} {elements : List (Option Ref)} {ports : PortList}
    (read : readPortList memory elements = some ports) (extension : memory.Extends larger) :
    copyPortsFrom larger elements = some (storePortList larger ports) := by
  induction elements generalizing larger ports with
  | nil =>
    cases read
    rfl
  | cons element rest ih =>
    obtain ⟨port, first, others⟩ := Option.bind_eq_some_iff.mp read
    obtain ⟨later, listed, rfl⟩ := Option.map_eq_some_iff.mp others
    cases element with
    | none =>
      cases first
      rw [copyPortsFrom, ih listed extension]
      rfl
    | some ref =>
      have copied := readPort_extends extension first
      rw [readPort] at copied
      split at copied
      · next info found =>
          cases copied
          simp only [copyPortsFrom, found, ih listed (extension.trans (Heap.extends_alloc larger _))]
          rfl
      · cases copied

theorem copyPorts_eq {input : Option Ref} {ports : Option PortList} (read : readPorts memory input = some ports) :
    copyPorts memory input = some (storePorts memory (some (ports.getD []))) := by
  obtain ⟨elements, slice, listed⟩ := Option.bind_eq_some_iff.mp read
  rw [copyPorts, slice, Option.bind_some]
  cases elements with
  | none =>
    cases listed
    rfl
  | some elements =>
    obtain ⟨values, found, rfl⟩ := Option.map_eq_some_iff.mp listed
    rw [Option.getD_some, copyPortsFrom_eq found (.refl memory)]
    rfl

/-- The payload of an instance as a value: nil slices and maps are empty. -/
def Instance.payloadValue (ins : Instance) : PayloadValue :=
  ((ins.record none none none).payload none none none).withParts (some (ins.ports.getD [])) (some (ins.label.getD ∅))
    (some (ins.image.getD ∅))

/-- The instance that a payload value describes. -/
def PayloadRecord.toInstance (value : PayloadValue) : Instance :=
  (value.decoded none none none).toInstance value.ports value.label value.image

@[simp] theorem payloadValue_toInstance (ins : Instance) : ins.payloadValue.toInstance = canonical ins := rfl

theorem payloadValue_canonical (ins : Instance) : (canonical ins).payloadValue = ins.payloadValue := rfl

/-- The payload has every field of the instance. -/
theorem payloadValue_eq_iff {first second : Instance} :
    first.payloadValue = second.payloadValue ↔ canonical first = canonical second := by
  constructor
  · intro same
    rw [← payloadValue_toInstance, same, payloadValue_toInstance]
  · intro same
    rw [← payloadValue_canonical, same, payloadValue_canonical]

variable {ins : Instance} {ref : Ref} {data : String}

theorem canonicalPayloadAt_eq (lib : PayloadLibraries) (read : readInstance memory ref = some ins)
    (written : lib.marshal ins.payloadValue = .ok data) :
    ∃ larger, memory.Extends larger ∧ canonicalPayloadAt lib memory (some ref) = .value (data, larger) := by
  obtain ⟨record, ports, label, image, found, portsRead, labelRead, imageRead, rfl⟩ := readRecord_of_readInstance read
  obtain ⟨portsStored, portsAgain⟩ := storePorts_stores memory (some (ports.getD []))
  have copiedPorts := copyPorts_eq portsRead
  generalize storePorts memory (some (ports.getD [])) = first at *
  have copiedLabel := copyMap_eq (readMap_extends portsStored.extension labelRead)
  obtain ⟨labelStored, labelAgain⟩ := storeMap_stores first.2 (some (label.getD ∅))
  generalize storeMap first.2 (some (label.getD ∅)) = second at *
  have copiedImage := copyMap_eq (readMap_extends (portsStored.extension.trans labelStored.extension) imageRead)
  obtain ⟨imageStored, imageAgain⟩ := storeMap_stores second.2 (some (image.getD ∅))
  generalize storeMap second.2 (some (image.getD ∅)) = third at *
  have payload : readPayload third.2 (record.payload first.1 second.1 third.1) =
      some (record.toInstance ports label image).payloadValue := by
    have up := labelStored.extension.trans imageStored.extension
    simp only [readPayload, InstanceRecord.payload, (readPorts_extends up portsAgain).1,
      readMap_extends imageStored.extension labelAgain, imageAgain, Option.bind_some, Option.map_some]
    rfl
  refine ⟨third.2, portsStored.extension.trans (labelStored.extension.trans imageStored.extension), ?_⟩
  simp only [canonicalPayloadAt, readRecord, found, copiedPorts, copiedLabel, copiedImage, payload, written, Outcome.deref, Outcome.value_bind]

/-- Decoding the payload of an instance gives a new instance with the fields of the payload. -/
theorem decodeCanonicalPayloadAt_eq (lib : PayloadLibraries) (memory : Memory) {raw : String} (named : raw ≠ "")
    (parsed : lib.unmarshal raw = .ok ins.payloadValue) :
    ∃ ref larger, decodeCanonicalPayloadAt lib memory raw = .value (ref, larger) ∧
      Stores memory larger (objectsOf larger ref) ∧ readInstance larger ref = some (canonical ins) := by
  -- The library's own slice and maps.
  obtain ⟨portsBuilt, portsRead⟩ := storePorts_stores memory ins.payloadValue.ports
  obtain ⟨labelBuilt, labelRead⟩ := storeMap_stores (storePorts memory ins.payloadValue.ports).2 ins.payloadValue.label
  obtain ⟨imageBuilt, imageRead⟩ := storeMap_stores
    (storeMap (storePorts memory ins.payloadValue.ports).2 ins.payloadValue.label).2 ins.payloadValue.image
  rw [decodeCanonicalPayloadAt, if_neg named, parsed]
  dsimp only
  generalize storePorts memory ins.payloadValue.ports = first at *
  generalize storeMap first.2 ins.payloadValue.label = second at *
  generalize storeMap second.2 ins.payloadValue.image = third at *
  have built := portsBuilt.extension.trans (labelBuilt.extension.trans imageBuilt.extension)
  -- The copies for the instance.
  have copiedPorts := copyPorts_eq (readPorts_extends (labelBuilt.extension.trans imageBuilt.extension) portsRead).1
  obtain ⟨portsStored, portsAgain⟩ := storePorts_stores third.2 (some (ins.payloadValue.ports.getD []))
  generalize storePorts third.2 (some (ins.payloadValue.ports.getD [])) = fourth at *
  have copiedLabel := copyMap_eq (readMap_extends (imageBuilt.extension.trans portsStored.extension) labelRead)
  obtain ⟨labelStored, labelAgain⟩ := storeMap_stores fourth.2 (some (ins.payloadValue.label.getD ∅))
  generalize storeMap fourth.2 (some (ins.payloadValue.label.getD ∅)) = fifth at *
  have copiedImage := copyMap_eq (readMap_extends (portsStored.extension.trans labelStored.extension) imageRead)
  obtain ⟨imageStored, imageAgain⟩ := storeMap_stores fifth.2 (some (ins.payloadValue.image.getD ∅))
  generalize storeMap fifth.2 (some (ins.payloadValue.image.getD ∅)) = sixth at *
  obtain ⟨stored, read⟩ := @stores_record third.2 fourth.2 fifth.2 sixth.2 (ins.record fourth.1 fifth.1 sixth.1) _ _ _ portsStored
    portsAgain labelStored labelAgain imageStored imageAgain
  have current : (ins.payloadValue.withParts first.1 second.1 third.1).schemaVersion = canonicalPayloadVersion := rfl
  refine ⟨sixth.2.size, _, ?_, ⟨built.trans stored.extension, ?_⟩, read⟩
  · rw [if_neg (not_not.mpr current)]
    simp only [PayloadRecord.withParts, copiedPorts, copiedLabel, copiedImage, Outcome.deref, Outcome.value_bind]
    rfl
  · exact fun ref member => built.size_le.trans (stored.fresh ref member)

/-! ## Libraries without loss -/

/-- A single-precision number that is neither infinite nor a NaN, by its bit pattern. -/
def finite32 (bits : UInt32) : Bool := bits >>> 23 &&& 255 != 255

/-- The libraries give back what they were given: JSON every payload whose number is finite, zlib and base64 all bytes. An empty
text is no JSON, empty bytes are no zlib stream, and an empty text encodes no bytes. -/
structure PayloadLibraries.Lossless (lib : PayloadLibraries) : Prop where
  json : ∀ payload : PayloadValue, finite32 payload.cpu = true →
    ∃ data, lib.marshal payload = .ok data ∧ lib.unmarshal data = .ok payload
  text : ∀ raw, lib.text (lib.bytes raw) = raw
  zlib : ∀ plain, lib.zlibNewReader (lib.zlibWrite plain) = .ok () ∧ lib.zlibReadFrom (lib.zlibWrite plain) = .ok plain ∧
    lib.zlibClose (lib.zlibWrite plain) = .ok ()
  base64 : ∀ plain, lib.decodeString (lib.encodeToString plain) = .ok plain
  noText : ∃ err, lib.unmarshal "" = .error err
  noStream : ∃ err, lib.zlibNewReader [] = .error err
  noDigits : lib.decodeString "" = .ok []

section Lossless

variable {lib : PayloadLibraries} (lossless : lib.Lossless)

include lossless

theorem ne_empty_of_unmarshal {payload : PayloadValue} (parsed : lib.unmarshal data = .ok payload) : data ≠ "" := by
  rintro rfl
  obtain ⟨err, failed⟩ := lossless.noText
  rw [failed] at parsed
  cases parsed

theorem packed_ne_empty (plain : List UInt8) : lib.encodeToString (lib.zlibWrite plain) ≠ "" := by
  intro empty
  have decoded := lossless.base64 (lib.zlibWrite plain)
  rw [empty, lossless.noDigits] at decoded
  obtain ⟨err, failed⟩ := lossless.noStream
  have opened := (lossless.zlib plain).1
  rw [← Except.ok.inj decoded, failed] at opened
  cases opened

theorem decodeCompressed_packed (memory : Memory) (raw : String) :
    decodeCompressedCanonicalPayloadAt lib memory (lib.encodeToString (lib.zlibWrite (lib.bytes raw))) =
      decodeCanonicalPayloadAt lib memory raw := by
  obtain ⟨opened, unpacked, closed⟩ := lossless.zlib (lib.bytes raw)
  simp only [decodeCompressedCanonicalPayloadAt, if_neg (packed_ne_empty lossless _), lossless.base64, opened, unpacked, closed,
    lossless.text]

/-- The text of an instance with a finite number. -/
theorem exists_canonicalPayloadAt (read : readInstance memory ref = some ins) (finite : finite32 ins.cpu = true) :
    ∃ data larger, canonicalPayloadAt lib memory (some ref) = .value (data, larger) ∧ memory.Extends larger ∧
      lib.marshal ins.payloadValue = .ok data ∧ lib.unmarshal data = .ok ins.payloadValue := by
  obtain ⟨data, written, parsed⟩ := lossless.json ins.payloadValue finite
  obtain ⟨larger, extension, done⟩ := canonicalPayloadAt_eq lib read written
  exact ⟨data, larger, done, extension, written, parsed⟩

omit lossless in
variable (lib) in
/-- The libraries as a codec of instances. -/
def PayloadLibraries.codec : PayloadCodec where
  marshal ins := (lib.marshal ins.payloadValue).toOption.getD ""
  unmarshal raw := ((lib.unmarshal raw).toOption.filter fun value => decide (value.schemaVersion = canonicalPayloadVersion)).map
      PayloadRecord.toInstance
  compress raw := lib.encodeToString (lib.zlibWrite (lib.bytes raw))
  decompress packed :=
    (lib.decodeString packed).toOption.bind fun encoded =>
      (lib.zlibNewReader encoded).toOption.bind fun _ =>
        (lib.zlibReadFrom encoded).toOption.bind fun plain =>
          (lib.zlibClose encoded).toOption.map fun _ => lib.text plain

omit lossless in
theorem canonicalPayload_codec (written : lib.marshal ins.payloadValue = .ok data) :
    canonicalPayload lib.codec.toPayloadJSON ins = data := by
  simp only [canonicalPayload, PayloadLibraries.codec, payloadValue_canonical, written]
  rfl

/-- The text of an instance in memory is its payload as a value. -/
theorem canonicalPayloadAt_codec (read : readInstance memory ref = some ins) (finite : finite32 ins.cpu = true) :
    ∃ larger, canonicalPayloadAt lib memory (some ref) = .value (canonicalPayload lib.codec.toPayloadJSON ins, larger) := by
  obtain ⟨data, larger, done, _, written, _⟩ := exists_canonicalPayloadAt lossless read finite
  exact ⟨larger, by rw [done, canonicalPayload_codec written]⟩

theorem codec_roundTrips (finite : finite32 ins.cpu = true) : lib.codec.RoundTrips ins := by
  obtain ⟨data, written, parsed⟩ := lossless.json ins.payloadValue finite
  have packed : compressedCanonicalPayload lib.codec ins = lib.encodeToString (lib.zlibWrite (lib.bytes data)) := by
    rw [compressedCanonicalPayload, canonicalPayload_codec written]
    rfl
  obtain ⟨opened, unpacked, closed⟩ := lossless.zlib (lib.bytes data)
  have plain : lib.codec.decompress (lib.encodeToString (lib.zlibWrite (lib.bytes data))) = some data := by
    simp only [PayloadLibraries.codec, lossless.base64, opened, unpacked, closed, lossless.text, Except.toOption, Option.bind_some,
      Option.map_some]
  have read : lib.codec.unmarshal data = some (canonical ins) := by
    simp only [PayloadLibraries.codec, parsed]
    rfl
  rw [PayloadCodec.RoundTrips, packed, decodeCompressedCanonicalPayload, if_neg (packed_ne_empty lossless _), plain, Option.bind_some,
    decodeCanonicalPayload, if_neg (ne_empty_of_unmarshal lossless parsed), read]
  rfl

end Lossless

/-- With libraries that lose nothing, two instances in memory have the same payload exactly if they agree on every field up to
nil and empty parts. What was compressed decodes, in whatever memory there is later, to the instance with its nil parts made
empty, and all objects of the decoded instance are new. -/
theorem canonical_payload_faithful {lib : PayloadLibraries} (lossless : lib.Lossless) {memory : Memory} {a b : Ref}
    {first second : Instance} (readFirst : readInstance memory a = some first) (readSecond : readInstance memory b = some second)
    (finiteFirst : finite32 first.cpu = true) (finiteSecond : finite32 second.cpu = true) :
    (∃ data other afterFirst afterSecond, canonicalPayloadAt lib memory (some a) = .value (data, afterFirst) ∧
      canonicalPayloadAt lib memory (some b) = .value (other, afterSecond) ∧
        (data = other ↔ canonical first = canonical second)) ∧
    ∃ packed after, compressedCanonicalPayloadAt lib memory (some a) = .value (packed, after) ∧ memory.Extends after ∧
      ∀ later : Memory, memory.size ≤ later.size →
        ∃ ref final, decodeCompressedCanonicalPayloadAt lib later packed = .value (ref, final) ∧
          readInstance final ref = some (canonical first) ∧ later.Extends final ∧
            (∀ query ∈ objectsOf final ref, later.size ≤ query) ∧ (objectsOf memory a).Disjoint (objectsOf final ref) := by
  obtain ⟨data, afterFirst, firstDone, extension, firstWritten, firstParsed⟩ :=
    exists_canonicalPayloadAt lossless readFirst finiteFirst
  obtain ⟨other, afterSecond, secondDone, _, secondWritten, secondParsed⟩ :=
    exists_canonicalPayloadAt lossless readSecond finiteSecond
  have named := ne_empty_of_unmarshal lossless firstParsed
  refine ⟨⟨data, other, afterFirst, afterSecond, firstDone, secondDone, ?_⟩, ?_⟩
  · rw [← payloadValue_eq_iff]
    constructor
    · rintro rfl
      rw [firstParsed] at secondParsed
      exact Except.ok.inj secondParsed
    · intro same
      rw [same, secondWritten] at firstWritten
      exact (Except.ok.inj firstWritten).symm
  · refine ⟨lib.encodeToString (lib.zlibWrite (lib.bytes data)), afterFirst, ?_, extension, ?_⟩
    · rw [compressedCanonicalPayloadAt, firstDone, Outcome.value_bind]
      exact if_neg named
    · intro later grown
      obtain ⟨ref, final, decoded, stored, read⟩ := decodeCanonicalPayloadAt_eq lib later named firstParsed
      refine ⟨ref, final, ?_, read, stored.extension, stored.fresh, ?_⟩
      · rw [decodeCompressed_packed lossless, decoded]
      · intro query owned copied
        have below := readInstance_bound readFirst query owned
        exact absurd (below.trans_le (grown.trans (stored.fresh query copied))) (Nat.lt_irrefl _)

/-! Libraries without loss exist, because there are only countably many payloads. -/

theorem countable_payloadValue : Countable PayloadValue := by
  have char : Countable Char := Function.Injective.countable (f := Char.toNat) fun _ _ same => Char.toNat_inj.mp same
  have string : Countable String := Function.Injective.countable (f := String.toList) fun _ _ same => String.toList_inj.mp same
  have word : Countable UInt32 := Function.Injective.countable (f := UInt32.toNat) fun _ _ same => UInt32.toNat_inj.mp same
  have map : Countable StringTable := Function.Injective.countable (f := Finmap.entries) fun _ _ same => Finmap.ext same
  have port : Countable PortInfo := by
    refine Function.Injective.countable (f := fun info : PortInfo => (info.name, info.protocol, info.port, info.servicePort)) ?_
    rintro ⟨⟩ ⟨⟩ same
    simpa using same
  refine Function.Injective.countable (f := fun p : PayloadValue =>
    ([p.sourceKey, p.sourceCluster, p.instanceID, p.level, p.ip, p.envCode, p.envType, p.envGroup, p.cluster, p.version, p.state,
      p.healthState, p.appCode, p.provider, p.hostname, p.os, p.idc],
      [p.schemaVersion, p.memory, p.disk, p.reversion, p.status], p.enabled, p.cpu, p.ports, p.label, p.image)) ?_
  rintro ⟨⟩ ⟨⟩ same
  simp only [Prod.mk.injEq, List.cons.injEq, and_true] at same
  simp only [PayloadRecord.mk.injEq]
  tauto

def utf8 (raw : String) : List UInt8 := raw.toByteArray.data.toList

theorem utf8_injective : Function.Injective utf8 := by
  intro first second same
  exact String.toByteArray_inj.mp (ByteArray.ext (Array.toList_inj.mp same))

/-- Libraries that write a payload as its number in strokes, a stream behind one byte, and a byte as a character. -/
noncomputable def strokeLibraries (number : PayloadValue → ℕ) : PayloadLibraries where
  marshal payload := .ok (String.ofList (List.replicate (number payload + 1) '|'))
  unmarshal raw :=
    match raw.toList with
    | [] => .error (.errorf "unexpected end of JSON input" [])
    | _ :: strokes => ((Function.partialInv number strokes.length).map Except.ok).getD (.error (.errorf "no payload" []))
  bytes := utf8
  text plain := (Function.partialInv utf8 plain).getD ""
  zlibWrite plain := 0 :: plain
  zlibNewReader packed := if packed = [] then .error (.errorf "EOF" []) else .ok ()
  zlibReadFrom packed := .ok packed.tail
  zlibClose _ := .ok ()
  encodeToString plain := String.ofList (plain.map fun byte => Char.ofNat byte.toNat)
  decodeString raw := .ok (raw.toList.map fun c => UInt8.ofNat c.toNat)

theorem strokeLibraries_lossless {number : PayloadValue → ℕ} (injective : Function.Injective number) :
    (strokeLibraries number).Lossless where
  json payload _ := by
    refine ⟨_, rfl, ?_⟩
    simp only [strokeLibraries, String.toList_ofList, List.replicate_succ, List.length_replicate]
    rw [Function.partialInv_left injective]
    rfl
  text raw := by
    simp only [strokeLibraries, Function.partialInv_left utf8_injective, Option.getD_some]
  zlib plain := ⟨rfl, rfl, rfl⟩
  base64 plain := by
    simp only [strokeLibraries, String.toList_ofList, List.map_map]
    refine congrArg Except.ok (List.map_id'' ?_ plain)
    intro byte
    have valid : byte.toNat.isValidChar := .inl (byte.toNat_lt.trans (by decide))
    rw [Function.comp_apply, Char.ofNat, dif_pos valid]
    exact UInt8.ofNat_toNat
  noText := ⟨_, rfl⟩
  noStream := ⟨_, rfl⟩
  noDigits := rfl

/-- Two records that differ in a nil and an empty slice. -/
def bareMemory : Memory :=
  ⟨[.inst (({ instanceId := "web-1" } : Instance).record none none none), .ports [],
    .inst (({ instanceId := "web-1" } : Instance).record (some 1) none none)]⟩

theorem nil_and_empty_slice_same_payload : ∃ number, ∃ data afterFirst afterSecond,
      canonicalPayloadAt (strokeLibraries number) bareMemory (some 0) = .value (data, afterFirst) ∧
        canonicalPayloadAt (strokeLibraries number) bareMemory (some 2) = .value (data, afterSecond) := by
  obtain ⟨number, injective⟩ := countable_payloadValue.exists_injective_nat
  obtain ⟨⟨data, other, afterFirst, afterSecond, first, second, same⟩, _⟩ :=
    @canonical_payload_faithful _ (strokeLibraries_lossless injective) bareMemory 0 2 _ _ rfl rfl (by decide) (by decide)
  have agreed := same.mpr rfl
  exact ⟨number, data, afterFirst, afterSecond, first, agreed ▸ second⟩

end Spotter.Domain
