import NodeProvisioner.Error
import NodeProvisioner.Resource.Cluster

/-!
# Provider specs

What a machine asks for and in which project its cluster lives travel as opaque values inside the
records. Here they are given their types, and checked.
-/

namespace NodeProvisioner

/-- What a machine does in its cluster. -/
inductive Role where
  /-- It runs the control plane. -/
  | master
  /-- It joins as a worker. -/
  | node
deriving Inhabited, DecidableEq, Repr

/-- The size of a disk, in gigabytes, and its type. -/
structure DiskParams where
  sizeGb : Int64
  diskType : String
deriving Inhabited, DecidableEq

/-- A disk that an instance gets. -/
structure Disk where
  params : DiskParams
deriving Inhabited, DecidableEq

/-- What a machine asks for. -/
structure MachineProviderSpec where
  roles : List Role := []
  zone : String
  machineType : String
  os : String := ""
  disks : List Disk := []
  externalIp : String := ""
deriving Inhabited, DecidableEq

/-- Where the instances of a cluster live. -/
structure ClusterProviderSpec where
  project : String
  region : String := ""
deriving Inhabited, DecidableEq

/-- The name of a role. -/
def Role.name : Role → String
  | master => "Master"
  | node => "Node"

namespace Codec

def role : Codec Role := choice [("Master", .master), ("Node", .node)] Role.name

def diskParams : Codec DiskParams :=
  record (structFormat "DiskInitializeParams")
    (.cons (.required "diskSizeGb" int64) <| .cons (.required "diskType" text) .nil)
    (fun (a, b, ()) => ⟨a, b⟩) (fun p => (p.sizeGb, p.diskType, ()))

def disk : Codec Disk :=
  record (structFormat "Disk") (.cons (.required "initializeParams" diskParams) .nil)
    (fun (a, ()) => ⟨a⟩) (fun d => (d.params, ()))

def machineProviderSpec : Codec MachineProviderSpec :=
  record (structFormat "GceMachineProviderSpec")
    (.cons (.defaulted "roles" (list role) []) <| .cons (.required "zone" text) <|
     .cons (.required "machineType" text) <| .cons (.defaulted "os" text "") <|
     .cons (.omitted "disks" (list disk) [] List.isEmpty) <|
     .cons (.omitted "externalIP" text "" String.isEmpty) .nil)
    (fun (a, b, c, d, e, f, ()) => ⟨a, b, c, d, e, f⟩)
    (fun s => (s.roles, s.zone, s.machineType, s.os, s.disks, s.externalIp, ()))

def clusterProviderSpec : Codec ClusterProviderSpec :=
  record (structFormat "GceClusterProviderSpec")
    (.cons (.required "project" text) <| .cons (.omitted "region" text "" String.isEmpty) .nil)
    (fun (a, b, ()) => ⟨a, b⟩) (fun s => (s.project, s.region, ()))

end Codec

/-- Reads the opaque value of a record, named `owner` in messages. -/
def ProviderSpec.decode {α : Type} (p : ProviderSpec) (codec : Codec α) (owner : String) :
    Except Error α :=
  match p.value with
  | none => .error (.validation s!"{owner} has no providerSpec.value")
  | some value =>
    (codec.ofJson value).mapError fun fault =>
      .validation s!"invalid providerSpec for {owner}: {fault.jsonMessage}"

namespace MachineProviderSpec

/-- The machine runs the control plane. -/
def isMaster (s : MachineProviderSpec) : Bool := s.roles.contains .master

/-- A machine has at least one role, a zone and a machine type. -/
def validate (s : MachineProviderSpec) (identity : String) : Except Error Unit :=
  if s.roles.isEmpty then .error (.validation s!"machine {identity} must have at least one role")
  else if s.zone.isEmpty then .error (.validation s!"machine {identity} has no zone")
  else if s.machineType.isEmpty then .error (.validation s!"machine {identity} has no machineType")
  else .ok ()

/-- What a machine asks for, if that is valid. -/
def ofMachine (m : Machine) : Except Error MachineProviderSpec := do
  let identity := m.identity
  let spec ← m.spec.providerSpec.decode Codec.machineProviderSpec s!"machine {identity}"
  spec.validate identity
  return spec

end MachineProviderSpec

/-- Where the instances of a cluster live: in a project. -/
def ClusterProviderSpec.ofCluster (c : Cluster) : Except Error ClusterProviderSpec := do
  let identity := c.identity
  let spec ← c.spec.providerSpec.decode Codec.clusterProviderSpec s!"cluster {identity}"
  if spec.project.isEmpty then throw (.validation s!"cluster {identity} has no project")
  return spec

end NodeProvisioner
