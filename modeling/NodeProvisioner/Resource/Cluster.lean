import NodeProvisioner.Resource.Machine

/-!
# Clusters

Of a cluster only its networks, the provider's configuration and its API endpoints matter here.
-/

namespace NodeProvisioner

/-- Ranges of addresses, the most important one first. -/
structure NetworkRanges where
  blocks : List String := []
deriving Inhabited, DecidableEq

/-- The networks of a cluster. -/
structure ClusterNetwork where
  services : NetworkRanges := {}
  pods : NetworkRanges := {}
  serviceDomain : String := ""
deriving Inhabited, DecidableEq

/-- What is wanted of a cluster. -/
structure ClusterSpec where
  network : ClusterNetwork := {}
  providerSpec : ProviderSpec := {}
deriving Inhabited

/-- Where an API server listens. -/
structure ApiEndpoint where
  host : String
  port : Int32
deriving Inhabited, DecidableEq

/-- What has been observed of a cluster. -/
structure ClusterStatus where
  endpoints : List ApiEndpoint := []
  errorMessage : Option String := none
deriving Inhabited, DecidableEq

/-- A cluster. -/
structure Cluster where
  metadata : ObjectMeta := {}
  spec : ClusterSpec := {}
  status : Option ClusterStatus := none
deriving Inhabited

namespace Codec

def networkRanges : Codec NetworkRanges :=
  record (structFormat "NetworkRanges") (.cons (.defaulted "cidrBlocks" (list text) []) .nil)
    (fun (a, ()) => ⟨a⟩) (fun r => (r.blocks, ()))

def clusterNetwork : Codec ClusterNetwork :=
  record (structFormat "ClusterNetworkingConfig")
    (.cons (.defaulted "services" networkRanges {}) <| .cons (.defaulted "pods" networkRanges {}) <|
     .cons (.defaulted "serviceDomain" text "") .nil)
    (fun (a, b, c, ()) => ⟨a, b, c⟩) (fun n => (n.services, n.pods, n.serviceDomain, ()))

def clusterSpec : Codec ClusterSpec :=
  record (structFormat "ClusterSpec")
    (.cons (.defaulted "clusterNetwork" clusterNetwork {}) <|
     .cons (.defaulted "providerSpec" providerSpec {}) .nil)
    (fun (a, b, ()) => ⟨a, b⟩) (fun s => (s.network, s.providerSpec, ()))

def apiEndpoint : Codec ApiEndpoint :=
  record (structFormat "ApiEndpoint")
    (.cons (.required "host" text) <| .cons (.required "port" int32) .nil)
    (fun (a, b, ()) => ⟨a, b⟩) (fun e => (e.host, e.port, ()))

def clusterStatus : Codec ClusterStatus :=
  record (structFormat "ClusterStatus")
    (.cons (.defaulted "apiEndpoints" (list apiEndpoint) []) <|
     .cons (.optional "errorMessage" text) .nil)
    (fun (a, b, ()) => ⟨a, b⟩) (fun s => (s.endpoints, s.errorMessage, ()))

def cluster : Codec Cluster :=
  record (recordFormat "Cluster")
    (.cons (.required "metadata" objectMeta) <| .cons (.required "spec" clusterSpec) <|
     .cons (.keyed "status" clusterStatus) .nil)
    (fun (a, b, c, ()) => ⟨a, b, c⟩) (fun c => (c.metadata, c.spec, c.status, ()))

end Codec

/-- The first range, or nothing. -/
def NetworkRanges.firstOrEmpty (r : NetworkRanges) : String := r.blocks.headD ""

/-- The host and the port, with a colon between them. -/
def ApiEndpoint.address (e : ApiEndpoint) : String := s!"{e.host}:{e.port.toInt}"

namespace Cluster

/-- A cluster that has only a name so far. -/
def named (name : String) (spec : ClusterSpec) : Cluster :=
  { metadata := { name := some name }, spec }

/-- The namespace and the name of the cluster. -/
def identity (c : Cluster) : String := c.metadata.identity

/-- The name of the cluster, empty if it has none. -/
def nameText (c : Cluster) : String := c.metadata.name.getD ""

/-- The API endpoints observed. -/
def endpoints (c : Cluster) : List ApiEndpoint :=
  match c.status with
  | none => []
  | some status => status.endpoints

end Cluster

end NodeProvisioner
