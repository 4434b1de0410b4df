import Spotter.Domain.Instance

/-! # The canonical payload of an instance

Every property of an instance is serialised into one text, which sinks store and reconciliation
compares. Nil maps and slices count as empty. The text format belongs to the language's JSON library
and its compressed form to the zlib and base64 libraries; they are parameters.
-/

namespace Spotter.Domain

/-- An instance with its nil maps and slices made empty. -/
def canonical (ins : Instance) : Instance :=
  { ins with
    ports := some (ins.ports.getD [])
    label := some (ins.label.getD ∅)
    image := some (ins.image.getD ∅) }

/-- The JSON library on complete payloads. -/
structure PayloadJSON where
  marshal : Instance → String
  unmarshal : String → Option Instance

variable (json : PayloadJSON)

def canonicalPayload (ins : Instance) : String := json.marshal (canonical ins)

/-- `DecodeCanonicalPayload`; reading a payload of another version is one of the ways it fails. -/
def decodeCanonicalPayload (raw : String) : Option Instance :=
  if raw = "" then none else (json.unmarshal raw).map canonical

/-- The compression libraries on texts. -/
structure PayloadCodec extends PayloadJSON where
  compress : String → String
  decompress : String → Option String

def compressedCanonicalPayload (codec : PayloadCodec) (ins : Instance) : String :=
  codec.compress (canonicalPayload codec.toPayloadJSON ins)

def decodeCompressedCanonicalPayload (codec : PayloadCodec) (raw : String) : Option Instance :=
  if raw = "" then none else (codec.decompress raw).bind (decodeCanonicalPayload codec.toPayloadJSON)

/-- The libraries give an instance's payload back. -/
def PayloadCodec.RoundTrips (codec : PayloadCodec) (ins : Instance) : Prop :=
  decodeCompressedCanonicalPayload codec (compressedCanonicalPayload codec ins) = some (canonical ins)

instance (codec : PayloadCodec) (ins : Instance) : Decidable (codec.RoundTrips ins) :=
  inferInstanceAs (Decidable (_ = _))

def equalNacosReconcile (provider remote : Instance) : Bool :=
  decide (canonicalPayload json provider = canonicalPayload json remote)

def diffNacosReconcile (provider remote : Instance) : Bool :=
  !equalNacosReconcile json provider remote

end Spotter.Domain
