import NodeProvisioner.Bootstrap.Script
import NodeProvisioner.Config
import NodeProvisioner.Encoding.Base64
import NodeProvisioner.Net.Block
import NodeProvisioner.Pki.Authority

/-!
# Provisions

What all machines are provisioned from: the setups, the configuration, and the certificate
authority of the cluster, if there is one. A machine that runs the control plane is handed the
authority, and a certificate of its own for its API server.
-/

namespace NodeProvisioner

/-- What machines are provisioned from. -/
structure Provisions where
  setups : Setups
  authority : Option KeyPair := none
  config : Config := {}
deriving Inhabited

/-! ## Keys of the metadata -/

def authorityCertificateKey : String := "ca-cert"

def authorityPrivateKey : String := "ca-key"

def serverCertificateKey : String := "apiserver-cert"

def serverPrivateKey : String := "apiserver-key"

namespace Provisions

variable (p : Provisions)

/-- The only setup that fits a machine. -/
def setupFor (m : Machine) (spec : MachineProviderSpec) : Except BootstrapError Setup :=
  p.setups.resolve (.ofMachine spec m.spec.versions)

/-- The domain of a cluster. -/
def domainOf (c : Cluster) : String :=
  let domain := c.spec.network.serviceDomain
  if domain.isEmpty then p.config.defaultDnsDomain else domain

/-- Where the API server on a machine is reached: at the API endpoints of the cluster, at the first
address of its services, and at the machine's own address and name. -/
def serverNames (c : Cluster) (m : Machine) (spec : MachineProviderSpec) : AltNames :=
  let identity := p.config.apiServer
  let external := if spec.externalIp.isEmpty then [] else [spec.externalIp]
  let addresses := c.endpoints.map (·.host) ++
    (firstHostText? c.spec.network.services.firstOrEmpty).toList ++ external
  .ofService identity.serviceName identity.serviceNamespace (p.domainOf c) addresses
    m.metadata.name.toList

/-- The certificate of the API server on a machine. -/
def serverCertificate (S : SignatureSystem) (o : Occasion) (ca : KeyPair) (c : Cluster)
    (m : Machine) (spec : MachineProviderSpec) : Except PkiError KeyPair :=
  ca.newServer S p.config.apiServer.commonName (p.serverNames c m spec) o

/-- Metadata with two pairs of a certificate and a key. -/
def withPairs (metadata : StringMap String) (ca server : KeyPair) : StringMap String :=
  [(authorityCertificateKey, ca.certificate), (authorityPrivateKey, ca.key),
   (serverCertificateKey, server.certificate), (serverPrivateKey, server.key)].foldl
    (fun m item => m.insert item.1 (Base64.encodeText item.2)) metadata

/-- Metadata with what a machine that runs the control plane gets from the authority. -/
def withCertificates (S : SignatureSystem) (o : Occasion) (c : Cluster) (m : Machine)
    (spec : MachineProviderSpec) (metadata : StringMap String) :
    Except BootstrapError (StringMap String) :=
  match p.authority with
  | none => .ok metadata
  | some ca => do
    let server ← (p.serverCertificate S o ca c m spec).mapError .certificate
    return withPairs metadata ca server

end Provisions

end NodeProvisioner
