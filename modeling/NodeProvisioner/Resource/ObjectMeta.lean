import NodeProvisioner.Codec.Record
import NodeProvisioner.Time.Timestamp

/-!
# Object metadata

Every record of a cluster carries metadata: its name and namespace, labels and annotations, its
owners, and what the API server notes about its life. Each part may be absent; `null` counts as
absent. Timestamps are written with whole seconds.
-/

namespace NodeProvisioner

/-- Which fields of an object a manager has set. -/
structure ManagedFields where
  apiVersion : Option String := none
  fieldsType : Option String := none
  fields : Option Json := none
  manager : Option String := none
  operation : Option String := none
  subresource : Option String := none
  time : Option Timestamp := none
deriving Inhabited

/-- An object that owns this one. -/
structure OwnerReference where
  apiVersion : String := ""
  blockOwnerDeletion : Option Bool := none
  controller : Option Bool := none
  kind : String := ""
  name : String := ""
  uid : String := ""
deriving Inhabited, DecidableEq

/-- The metadata of an object. -/
structure ObjectMeta where
  annotations : Option (StringMap String) := none
  creationTimestamp : Option Timestamp := none
  deletionGracePeriodSeconds : Option Int64 := none
  deletionTimestamp : Option Timestamp := none
  finalizers : Option (List String) := none
  generateName : Option String := none
  generation : Option Int64 := none
  labels : Option (StringMap String) := none
  managedFields : Option (List ManagedFields) := none
  name : Option String := none
  namespaceName : Option String := none
  ownerReferences : Option (List OwnerReference) := none
  resourceVersion : Option String := none
  selfLink : Option String := none
  uid : Option String := none
deriving Inhabited

namespace Codec

/-- A timestamp. -/
def timestamp : Codec Timestamp :=
  formatted "an RFC 3339 formatted date and time string"
    (fun s => (Timestamp.parse s).mapError Timestamp.Error.message) Timestamp.print

/-- How the records of the metadata stand in documents. -/
def metaFormat (expected : String) : RecordFormat :=
  { expected, positional := false, once := false }

/-- A member that may be absent or `null`, and is always written. -/
def blank {α : Type} (name : String) (codec : Codec α) (default : α) : Member α :=
  .defaulted name (codec.orElse default) default

def managedFields : Codec ManagedFields :=
  record (metaFormat "ManagedFieldsEntry")
    (.cons (.optional "apiVersion" text) <| .cons (.optional "fieldsType" text) <|
     .cons (.optional "fieldsV1" any) <| .cons (.optional "manager" text) <|
     .cons (.optional "operation" text) <| .cons (.optional "subresource" text) <|
     .cons (.optional "time" timestamp) .nil)
    (fun (a, b, c, d, e, f, g, ()) => ⟨a, b, c, d, e, f, g⟩)
    (fun m => (m.apiVersion, m.fieldsType, m.fields, m.manager, m.operation, m.subresource,
      m.time, ()))

def ownerReference : Codec OwnerReference :=
  record (metaFormat "OwnerReference")
    (.cons (blank "apiVersion" text "") <| .cons (.optional "blockOwnerDeletion" bool) <|
     .cons (.optional "controller" bool) <| .cons (blank "kind" text "") <|
     .cons (blank "name" text "") <| .cons (blank "uid" text "") .nil)
    (fun (a, b, c, d, e, f, ()) => ⟨a, b, c, d, e, f⟩)
    (fun o => (o.apiVersion, o.blockOwnerDeletion, o.controller, o.kind, o.name, o.uid, ()))

def objectMeta : Codec ObjectMeta :=
  record (metaFormat "ObjectMeta")
    (.cons (.optional "annotations" (dict text)) <| .cons (.optional "creationTimestamp" timestamp) <|
     .cons (.optional "deletionGracePeriodSeconds" int64) <|
     .cons (.optional "deletionTimestamp" timestamp) <|
     .cons (.optional "finalizers" (list text)) <| .cons (.optional "generateName" text) <|
     .cons (.optional "generation" int64) <| .cons (.optional "labels" (dict text)) <|
     .cons (.optional "managedFields" (list managedFields)) <| .cons (.optional "name" text) <|
     .cons (.optional "namespace" text) <|
     .cons (.optional "ownerReferences" (list ownerReference)) <|
     .cons (.optional "resourceVersion" text) <| .cons (.optional "selfLink" text) <|
     .cons (.optional "uid" text) .nil)
    (fun (a, b, c, d, e, f, g, h, i, j, k, l, m, n, o, ()) =>
      ⟨a, b, c, d, e, f, g, h, i, j, k, l, m, n, o⟩)
    (fun m => (m.annotations, m.creationTimestamp, m.deletionGracePeriodSeconds,
      m.deletionTimestamp, m.finalizers, m.generateName, m.generation, m.labels, m.managedFields,
      m.name, m.namespaceName, m.ownerReferences, m.resourceVersion, m.selfLink, m.uid, ()))

end Codec

namespace ObjectMeta

/-- The namespace and the name, with a slash between them. -/
def identity (m : ObjectMeta) : String :=
  m.namespaceName.getD "" ++ "/" ++ m.name.getD ""

/-- The name, or else the stem from which one is to be generated. -/
def nameOrStem (m : ObjectMeta) : String :=
  ((m.name <|> m.generateName).getD "")

/-- An annotation. -/
def annotation? (m : ObjectMeta) (key : String) : Option String :=
  m.annotations.bind (·.get? key)

/-- The metadata with an annotation. -/
def annotate (m : ObjectMeta) (key value : String) : ObjectMeta :=
  { m with annotations := some ((m.annotations.getD .empty).insert key value) }

end ObjectMeta

end NodeProvisioner
