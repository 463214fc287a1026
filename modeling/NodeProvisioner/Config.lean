import NodeProvisioner.Backoff
import NodeProvisioner.Error
import NodeProvisioner.Resource.Machine
import NodeProvisioner.Yaml.Reader

/-!
# Configuration

What holds for all machines alike. Every setting has a default, so that an empty document is a
configuration. Some values are refused, but only once the document as a whole has been read.
-/

namespace NodeProvisioner

/-- Whom the certificate of an API server is issued to. -/
structure ApiServerIdentity where
  commonName : String := "kube-apiserver"
  serviceName : String := "kubernetes"
  serviceNamespace : String := "default"
deriving Inhabited, DecidableEq

/-- How an operation of the provider is followed; times are in milliseconds. -/
structure OperationPolling where
  maxAttempts : UInt32 := 60
  initialDelay : UInt64 := 1000
  maxDelay : UInt64 := 15000
  multiplier : Float := 1.5
deriving Inhabited

/-- The configuration. -/
structure Config where
  apiServer : ApiServerIdentity := {}
  /-- The domain of a cluster that does not name one. -/
  defaultDnsDomain : String := "cluster.local"
  tokenNamespace : String := "kube-system"
  /-- How long a token is good for, in seconds. -/
  tokenLifetime : UInt64 := 600
  network : String := "default"
  subnetwork : String := "kubernetes"
  /-- The least size of a boot disk, in gigabytes. -/
  minBootDiskSize : Int64 := 30
  polling : OperationPolling := {}
  /-- The directory of the certificate authority. -/
  authorityDirectory : Option String := none
  /-- The file of the setup configs. -/
  setupFile : Option String := none
deriving Inhabited

namespace Codec

def apiServerIdentity : Codec ApiServerIdentity :=
  record (structFormat "ApiServerCertConfig")
    (.cons (.defaulted "commonName" text "kube-apiserver") <|
     .cons (.defaulted "serviceName" text "kubernetes") <|
     .cons (.defaulted "serviceNamespace" text "default") .nil)
    (fun (a, b, c, ()) => ⟨a, b, c⟩)
    (fun i => (i.commonName, i.serviceName, i.serviceNamespace, ()))

def operationPolling : Codec OperationPolling :=
  record (structFormat "OperationPollConfig")
    (.cons (.defaulted "maxAttempts" uint32 60) <|
     .cons (.defaulted "initialDelayMs" uint64 1000) <|
     .cons (.defaulted "maxDelayMs" uint64 15000) <|
     .cons (.defaulted "backoffMultiplier" float 1.5) .nil)
    (fun (a, b, c, d, ()) => ⟨a, b, c, d⟩)
    (fun p => (p.maxAttempts, p.initialDelay, p.maxDelay, p.multiplier, ()))

def config : Codec Config :=
  record (structFormat "ActuatorConfig")
    (.cons (.defaulted "apiServer" apiServerIdentity {}) <|
     .cons (.defaulted "defaultDnsDomain" text "cluster.local") <|
     .cons (.defaulted "tokenNamespace" text "kube-system") <|
     .cons (.defaulted "tokenTtlSecs" uint64 600) <|
     .cons (.defaulted "network" text "default") <|
     .cons (.defaulted "subnetwork" text "kubernetes") <|
     .cons (.defaulted "minBootDiskSizeGb" int64 30) <|
     .cons (.defaulted "operationPoll" operationPolling {}) <|
     .cons (.optional "caDir" path) <| .cons (.optional "machineSetupConfigs" path) .nil)
    (fun (a, b, c, d, e, f, g, h, i, j, ()) => ⟨a, b, c, d, e, f, g, h, i, j⟩)
    (fun c => (c.apiServer, c.defaultDnsDomain, c.tokenNamespace, c.tokenLifetime, c.network,
      c.subnetwork, c.minBootDiskSize, c.polling, c.authorityDirectory, c.setupFile, ()))

end Codec

/-- The schedule by which an operation is followed. -/
def OperationPolling.backoff (p : OperationPolling) : Backoff where
  maxAttempts := p.maxAttempts.toNat
  initialDelay := .ofMilliseconds p.initialDelay.toNat
  maxDelay := .ofMilliseconds p.maxDelay.toNat
  multiplier := p.multiplier

namespace Config

/-- Tokens last for some time, boot disks have a size, and pauses do not shrink. -/
def validate (c : Config) : Except Error Unit :=
  if c.tokenLifetime = 0 then .error (.validation "tokenTtlSecs must be greater than 0")
  else if c.minBootDiskSize ≤ 0 then .error (.validation "minBootDiskSizeGb must be positive")
  else if c.polling.multiplier < 1.0 then
    .error (.validation "operationPoll.backoffMultiplier must be at least 1.0")
  else .ok ()

/-- Reads a configuration from a text. -/
def ofYaml (yaml : String) (strict : Bool := false) : Except Error Config := do
  let c ← (Yaml.read Codec.config yaml strict).mapError fun e =>
    .serialization s!"invalid actuator config: {e.message}"
  c.validate
  return c

/-- Reads a configuration from a file. -/
def ofFile (files : Files) (path : String) : Except Error Config := do
  let yaml ← (files.readText path).mapError fun fault =>
    .serialization s!"unable to read {path}: {fault.message}"
  ofYaml yaml

end Config

end NodeProvisioner
