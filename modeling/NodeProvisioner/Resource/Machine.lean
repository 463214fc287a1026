import NodeProvisioner.Resource.ObjectMeta

/-!
# Machines

A machine is one node of a cluster: which instance it asks for, in a form that only the provider
understands, which software runs on it, and what has been observed of it.
-/

namespace NodeProvisioner

/-- The group and version of the records of a cluster. -/
def apiVersion : String := "cluster.k8s.io/v1alpha1"

/-- Configuration that only the provider understands. -/
structure ProviderSpec where
  value : Option Json := none
deriving Inhabited, BEq

/-- The versions of the software on a machine. The control plane's is empty on workers. -/
structure Versions where
  kubelet : String := ""
  controlPlane : String := ""
deriving Inhabited, DecidableEq

/-- What is wanted of a machine. -/
structure MachineSpec where
  providerSpec : ProviderSpec := {}
  versions : Versions := {}
  providerId : Option String := none
deriving Inhabited

/-- An address of a machine. -/
structure MachineAddress where
  kind : String
  address : String
deriving Inhabited, DecidableEq

/-- What has been observed of a machine. -/
structure MachineStatus where
  addresses : List MachineAddress := []
  phase : Option String := none
  errorReason : Option String := none
  errorMessage : Option String := none
deriving Inhabited, DecidableEq

/-- A machine. -/
structure Machine where
  metadata : ObjectMeta := {}
  spec : MachineSpec := {}
  status : Option MachineStatus := none
deriving Inhabited

namespace Codec

/-- How a record stands in documents: by name or by position, each member once. -/
def structFormat (name : String) : RecordFormat := { expected := "struct " ++ name }

def providerSpec : Codec ProviderSpec :=
  record (structFormat "ProviderSpec") (.cons (.optional "value" any) .nil)
    (fun (a, ()) => ⟨a⟩) (fun p => (p.value, ()))

def versions : Codec Versions :=
  record (structFormat "MachineVersionInfo")
    (.cons (.defaulted "kubelet" text "") <|
     .cons (.omitted "controlPlane" text "" String.isEmpty) .nil)
    (fun (a, b, ()) => ⟨a, b⟩) (fun v => (v.kubelet, v.controlPlane, ()))

def machineSpec : Codec MachineSpec :=
  record (structFormat "MachineSpec")
    (.cons (.defaulted "providerSpec" providerSpec {}) <|
     .cons (.defaulted "versions" versions {}) <| .cons (.optional "providerID" text) .nil)
    (fun (a, b, c, ()) => ⟨a, b, c⟩) (fun s => (s.providerSpec, s.versions, s.providerId, ()))

def machineAddress : Codec MachineAddress :=
  record (structFormat "MachineAddress")
    (.cons (.required "type" text) <| .cons (.required "address" text) .nil)
    (fun (a, b, ()) => ⟨a, b⟩) (fun a => (a.kind, a.address, ()))

def machineStatus : Codec MachineStatus :=
  record (structFormat "MachineStatus")
    (.cons (.omitted "addresses" (list machineAddress) [] List.isEmpty) <|
     .cons (.optional "phase" text) <| .cons (.optional "errorReason" text) <|
     .cons (.optional "errorMessage" text) .nil)
    (fun (a, b, c, d, ()) => ⟨a, b, c, d⟩)
    (fun s => (s.addresses, s.phase, s.errorReason, s.errorMessage, ()))

/-- The header of a record of a cluster, which a reader does not look at. -/
def clusterHeader (kind : String) : Header :=
  { members := [("apiVersion", apiVersion), ("kind", kind)] }

/-- How a record of a cluster stands in documents. -/
def recordFormat (kind : String) : RecordFormat :=
  { structFormat kind with header := clusterHeader kind }

def machine : Codec Machine :=
  record (recordFormat "Machine")
    (.cons (.required "metadata" objectMeta) <| .cons (.required "spec" machineSpec) <|
     .cons (.keyed "status" machineStatus) .nil)
    (fun (a, b, c, ()) => ⟨a, b, c⟩) (fun m => (m.metadata, m.spec, m.status, ()))

end Codec

namespace Machine

/-- A machine that has only a name so far. -/
def named (name : String) (spec : MachineSpec) : Machine :=
  { metadata := { name := some name }, spec }

/-- The namespace and the name of the machine. -/
def identity (m : Machine) : String := m.metadata.identity

/-- The namespace of the machine, empty if it has none. -/
def namespaceText (m : Machine) : String := m.metadata.namespaceName.getD ""

/-- The machine is to be removed. -/
def isTerminating (m : Machine) : Bool := m.metadata.deletionTimestamp.isSome

end Machine

end NodeProvisioner
