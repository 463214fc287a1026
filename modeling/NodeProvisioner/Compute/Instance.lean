import NodeProvisioner.Resource.Machine

/-!
# Instances

An instance as the compute provider describes it: where it runs, what is attached to it, and the
metadata that its guest can read.
-/

namespace NodeProvisioner

/-- A way to reach an instance from outside. -/
structure AccessConfig where
  name : String
  kind : String
  natIp : Option String := none
deriving Inhabited, DecidableEq

/-- A network an instance is attached to. -/
structure NetworkInterface where
  network : String
  accessConfigs : List AccessConfig := []
  networkIp : Option String := none
deriving Inhabited, DecidableEq

/-- How an attached disk is created. Only a boot disk has an image. -/
structure AttachedDiskParams where
  sizeGb : Int64
  diskType : String
  sourceImage : String := ""
deriving Inhabited, DecidableEq

/-- A disk attached to an instance. -/
structure AttachedDisk where
  autoDelete : Bool
  boot : Bool
  params : Option AttachedDiskParams := none
deriving Inhabited, DecidableEq

/-- An entry of the metadata of an instance. -/
structure MetadataEntry where
  key : String
  value : Option String := none
deriving Inhabited, DecidableEq

/-- The metadata of an instance. -/
structure InstanceMetadata where
  items : List MetadataEntry := []
deriving Inhabited, DecidableEq

/-- The network tags of an instance. -/
structure Tags where
  items : List String := []
deriving Inhabited, DecidableEq

/-- An account that the guest of an instance acts as. -/
structure ServiceAccount where
  email : String
  scopes : List String := []
deriving Inhabited, DecidableEq

/-- An instance. -/
structure Instance where
  name : String
  machineType : String
  canIpForward : Bool := false
  networkInterfaces : List NetworkInterface := []
  disks : List AttachedDisk := []
  metadata : Option InstanceMetadata := none
  tags : Option Tags := none
  labels : StringMap String := .empty
  serviceAccounts : List ServiceAccount := []
  status : Option String := none
  selfLink : Option String := none
deriving Inhabited, DecidableEq

namespace Codec

def accessConfig : Codec AccessConfig :=
  record (structFormat "AccessConfig")
    (.cons (.required "name" text) <| .cons (.required "type" text) <|
     .cons (.optional "natIP" text) .nil)
    (fun (a, b, c, ()) => ⟨a, b, c⟩) (fun a => (a.name, a.kind, a.natIp, ()))

def networkInterface : Codec NetworkInterface :=
  record (structFormat "NetworkInterface")
    (.cons (.required "network" text) <|
     .cons (.defaulted "accessConfigs" (list accessConfig) []) <|
     .cons (.optional "networkIP" text) .nil)
    (fun (a, b, c, ()) => ⟨a, b, c⟩) (fun n => (n.network, n.accessConfigs, n.networkIp, ()))

def attachedDiskParams : Codec AttachedDiskParams :=
  record (structFormat "AttachedDiskInitializeParams")
    (.cons (.required "diskSizeGb" int64) <| .cons (.required "diskType" text) <|
     .cons (.omitted "sourceImage" text "" String.isEmpty) .nil)
    (fun (a, b, c, ()) => ⟨a, b, c⟩) (fun p => (p.sizeGb, p.diskType, p.sourceImage, ()))

def attachedDisk : Codec AttachedDisk :=
  record (structFormat "AttachedDisk")
    (.cons (.required "autoDelete" bool) <| .cons (.required "boot" bool) <|
     .cons (.optional "initializeParams" attachedDiskParams) .nil)
    (fun (a, b, c, ()) => ⟨a, b, c⟩) (fun d => (d.autoDelete, d.boot, d.params, ()))

def metadataEntry : Codec MetadataEntry :=
  record (structFormat "MetadataItems")
    (.cons (.required "key" text) <| .cons (.optional "value" text) .nil)
    (fun (a, b, ()) => ⟨a, b⟩) (fun m => (m.key, m.value, ()))

def instanceMetadata : Codec InstanceMetadata :=
  record (structFormat "Metadata") (.cons (.defaulted "items" (list metadataEntry) []) .nil)
    (fun (a, ()) => ⟨a⟩) (fun m => (m.items, ()))

def tags : Codec Tags :=
  record (structFormat "Tags") (.cons (.defaulted "items" (list text) []) .nil)
    (fun (a, ()) => ⟨a⟩) (fun t => (t.items, ()))

def serviceAccount : Codec ServiceAccount :=
  record (structFormat "ServiceAccount")
    (.cons (.required "email" text) <| .cons (.defaulted "scopes" (list text) []) .nil)
    (fun (a, b, ()) => ⟨a, b⟩) (fun s => (s.email, s.scopes, ()))

def computeInstance : Codec Instance :=
  record (structFormat "Instance")
    (.cons (.required "name" text) <| .cons (.required "machineType" text) <|
     .cons (.defaulted "canIpForward" bool false) <|
     .cons (.defaulted "networkInterfaces" (list networkInterface) []) <|
     .cons (.defaulted "disks" (list attachedDisk) []) <|
     .cons (.optional "metadata" instanceMetadata) <| .cons (.optional "tags" tags) <|
     .cons (.omitted "labels" (dict text) .empty StringMap.isEmpty) <|
     .cons (.defaulted "serviceAccounts" (list serviceAccount) []) <|
     .cons (.optional "status" text) <| .cons (.optional "selfLink" text) .nil)
    (fun (a, b, c, d, e, f, g, h, i, j, k, ()) => ⟨a, b, c, d, e, f, g, h, i, j, k⟩)
    (fun i => (i.name, i.machineType, i.canIpForward, i.networkInterfaces, i.disks, i.metadata,
      i.tags, i.labels, i.serviceAccounts, i.status, i.selfLink, ()))

end Codec

/-- The metadata of the map: its entries in the order of their keys. -/
def InstanceMetadata.ofMap (m : StringMap String) : InstanceMetadata :=
  ⟨m.entries.map fun e => ⟨e.1, some e.2⟩⟩

/-- The value of the first metadata entry of the key. -/
def Instance.metadataValue? (i : Instance) (key : String) : Option String :=
  match i.metadata with
  | none => none
  | some metadata => (metadata.items.find? (·.key = key)).bind (·.value)

end NodeProvisioner
