import NodeProvisioner.Bootstrap.Setup

/-!
# Boot scripts

An instance boots from a script that begins with shell variables: what the machine has to know of
itself and its cluster. Each role has its own list of variables. A value stands in the script as it
is, whatever its characters; a value that is not there is an error, with the line where it stands.
-/

namespace NodeProvisioner

/-- The values of the variables of a boot script. -/
structure BootParams where
  /-- The token that a worker joins with. -/
  token : Option String := none
  project : String := ""
  kubeletVersion : String := ""
  /-- The version of the control plane, unless the machine is a worker. -/
  controlPlaneVersion : Option String := none
  namespaceText : String := ""
  /-- The namespace and the name of the machine. -/
  machine : String := ""
  dnsDomain : String := ""
  podRange : String := ""
  serviceRange : String := ""
  /-- Where the API server is that a worker joins. -/
  masterEndpoint : Option String := none
deriving Inhabited, DecidableEq

namespace Codec

def bootParams : Codec BootParams :=
  record (structFormat "BootstrapParams")
    (.cons (.optional "token" text) <| .cons (.required "project" text) <|
     .cons (.required "kubelet_version" text) <| .cons (.optional "control_plane_version" text) <|
     .cons (.required "namespace" text) <| .cons (.required "machine" text) <|
     .cons (.required "cluster_dns_domain" text) <| .cons (.required "pod_cidr" text) <|
     .cons (.required "service_cidr" text) <| .cons (.optional "master_endpoint" text) .nil)
    (fun (a, b, c, d, e, f, g, h, i, j, ()) => ⟨a, b, c, d, e, f, g, h, i, j⟩)
    (fun p => (p.token, p.project, p.kubeletVersion, p.controlPlaneVersion, p.namespaceText,
      p.machine, p.dnsDomain, p.podRange, p.serviceRange, p.masterEndpoint, ()))

end Codec

namespace BootParams

/-- The values that every machine has. -/
def common (c : Cluster) (m : Machine) (project : String) : BootParams :=
  { project
    kubeletVersion := m.spec.versions.kubelet
    namespaceText := m.namespaceText
    machine := m.identity
    dnsDomain := c.spec.network.serviceDomain
    podRange := c.spec.network.pods.firstOrEmpty
    serviceRange := c.spec.network.services.firstOrEmpty }

/-- The values for a machine that runs the control plane. -/
def forMaster (c : Cluster) (m : Machine) (project : String) : BootParams :=
  let version := m.spec.versions.controlPlane
  { common c m project with
    controlPlaneVersion := if version.isEmpty then none else some version }

/-- The values for a worker. It needs an API endpoint to join. -/
def forNode (token : String) (c : Cluster) (m : Machine) (project : String) :
    Except BootstrapError BootParams :=
  match c.endpoints with
  | [] => .error (.missingEndpoint c.identity)
  | endpoint :: _ =>
    .ok { common c m project with token := some token, masterEndpoint := some endpoint.address }

end BootParams

/-! ## Rendering -/

/-- A line of a boot script. -/
inductive ScriptLine where
  /-- The same for all machines. -/
  | fixed (text : String)
  /-- An assignment of a value to a variable. -/
  | assign (name : String) (value : BootParams → Option String)

/-- A boot script: its name, for messages, and its lines. -/
structure Script where
  name : String
  lines : List ScriptLine

/-- The line with its value: `none` if there is no value. -/
def ScriptLine.render (p : BootParams) : ScriptLine → Option String
  | fixed text => some text
  | assign name value => (value p).map fun v => name ++ "=" ++ v

namespace Script

/-- Renders lines, the first of which has the number `number`. -/
def renderLines (s : Script) (p : BootParams) (number : Nat) :
    List ScriptLine → Except BootstrapError String
  | [] => .ok ""
  | line :: rest =>
    match line.render p with
    | none => .error (.templateRender (.undefined s.name p.machine number))
    | some text => do
      let more ← s.renderLines p (number + 1) rest
      return text ++ "\n" ++ more

/-- Renders the script. -/
def render (s : Script) (p : BootParams) : Except BootstrapError String :=
  s.renderLines p 1 s.lines

/-- An assignment of a value that is always there. -/
def always (name : String) (value : BootParams → String) : ScriptLine :=
  .assign name fun p => some (value p)

/-- The script of a machine that runs the control plane. -/
def master : Script where
  name := "master-startup.sh"
  lines :=
    [.fixed "#!/bin/bash",
     always "KUBELET_VERSION" (·.kubeletVersion),
     .fixed "VERSION=v$\x7bKUBELET_VERSION\x7d",
     .fixed "PORT=443",
     always "NAMESPACE" (·.namespaceText),
     always "MACHINE" (·.machine),
     .assign "CONTROL_PLANE_VERSION" (·.controlPlaneVersion),
     always "CLUSTER_DNS_DOMAIN" (·.dnsDomain),
     always "POD_CIDR" (·.podRange),
     always "SERVICE_CIDR" (·.serviceRange)]

/-- The script of a worker. -/
def node : Script where
  name := "node-startup.sh"
  lines :=
    [.fixed "#!/bin/bash",
     always "KUBELET_VERSION" (·.kubeletVersion),
     .assign "TOKEN" (·.token),
     .assign "MASTER" (·.masterEndpoint),
     always "NAMESPACE" (·.namespaceText),
     always "MACHINE" (·.machine),
     always "CLUSTER_DNS_DOMAIN" (·.dnsDomain),
     always "POD_CIDR" (·.podRange),
     always "SERVICE_CIDR" (·.serviceRange)]

/-- The script of a role. -/
def ofRole : Role → Script
  | .master => master
  | .node => node

end Script

/-! ## Metadata -/

/-- The metadata key of the boot script. -/
def scriptKey : String := "startup-script"

/-- Metadata with the script and further items; items of one name are strung together, and those
named like the script are appended to it. -/
def withItems (script : String) (items : List MetadataItem) : StringMap String :=
  items.foldl (fun m item => m.insert item.name ((m.get? item.name).getD "" ++ item.value))
    (StringMap.empty.insert scriptKey script)

/-- The metadata of a worker. -/
def nodeMetadata (token : String) (c : Cluster) (m : Machine) (project : String)
    (items : List MetadataItem) : Except BootstrapError (StringMap String) := do
  let params ← BootParams.forNode token c m project
  return withItems (← Script.node.render params) items

/-- The metadata of a machine that runs the control plane. -/
def masterMetadata (c : Cluster) (m : Machine) (project : String) (items : List MetadataItem) :
    Except BootstrapError (StringMap String) := do
  return withItems (← Script.master.render (.forMaster c m project)) items

end NodeProvisioner
