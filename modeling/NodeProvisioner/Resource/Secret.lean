import NodeProvisioner.Encoding.Base64
import NodeProvisioner.Resource.Machine

/-!
# Secrets

A secret is a small map of values that the API server keeps. Its values are bytes, or texts that
the server turns into bytes.
-/

namespace NodeProvisioner

/-- A secret. -/
structure Secret where
  data : Option (StringMap (List UInt8)) := none
  isImmutable : Option Bool := none
  metadata : ObjectMeta := {}
  stringData : Option (StringMap String) := none
  kind : Option String := none
deriving Inhabited

namespace Codec

/-- Bytes in Base64. -/
def bytes : Codec (List UInt8) :=
  formatted "base64 data"
    (fun s => match Base64.decode? s.toList with
      | some bytes => .ok bytes
      | none => .error "Invalid padding")
    (fun bytes => String.ofList (Base64.encode bytes))

/-- How a secret stands in documents: other than with a machine, a reader checks the header. -/
def secretFormat : RecordFormat :=
  { expected := "Secret", positional := false, once := false,
    header := { members := [("apiVersion", "v1"), ("kind", "Secret")], checked := true } }

def secret : Codec Secret :=
  record secretFormat
    (.cons (.optional "data" (dict bytes)) <| .cons (.optional "immutable" bool) <|
     .cons (blank "metadata" objectMeta {}) <| .cons (.optional "stringData" (dict text)) <|
     .cons (.optional "type" text) .nil)
    (fun (a, b, c, d, e, ()) => ⟨a, b, c, d, e⟩)
    (fun s => (s.data, s.isImmutable, s.metadata, s.stringData, s.kind, ()))

end Codec

end NodeProvisioner
