import NodeProvisioner.Bootstrap.Provisions
import NodeProvisioner.Compute.Blueprint
import NodeProvisioner.Pass.Call
import NodeProvisioner.Text.Properties

/-!
# Boot metadata

The metadata that the instance of a machine boots from: the boot script of its role and the items
of its setup, what its role gives it access with, and the cloud configuration. A worker gets a
token to join with, made for it; a machine that runs the control plane gets certificates.

The node software asks the cloud provider about itself. It reads in the cloud configuration which
project and networks its instance belongs to, and which tag the workers of its cluster carry. The
cloud configuration is put in last, so it cannot be replaced by an item of a setup.
-/

namespace NodeProvisioner

/-- The metadata key of the cloud configuration. -/
def cloudConfigKey : String := "cloud-config"

/-- The text of a cloud configuration. -/
def cloudConfig (project network subnetwork cluster : String) : String :=
  s!"[global]\nproject-id = {project}\nnetwork-name = {network}\n" ++
    s!"subnetwork-name = {subnetwork}\nnode-tags = {workerTag cluster}\n"

/-- The version is given. -/
def requireVersion (version : RequiredVersion) (text : String) : Except BootstrapError Unit :=
  if text.isEmpty then .error (.invalidConfiguration (.missingVersion version)) else .ok ()

/-- A computation that may make calls and fail with a bootstrap error. -/
abbrev Boot (α : Type) := ExceptT BootstrapError (Program Call.Answer) α

namespace Provisions

variable (S : SignatureSystem) (p : Provisions) (o : Occasion)

/-- The metadata that the role of a machine calls for. -/
def roleMetadata (c : Cluster) (m : Machine) (project : String) (spec : MachineProviderSpec)
    (items : List MetadataItem) : Boot (StringMap String) := do
  if spec.isMaster then
    MonadExcept.ofExcept (requireVersion .controlPlane m.spec.versions.controlPlane)
    let metadata ← MonadExcept.ofExcept (masterMetadata c m project items)
    MonadExcept.ofExcept (p.withCertificates S o c m spec metadata)
  else
    let token ← ExceptT.mk Pass.createToken
    MonadExcept.ofExcept (nodeMetadata (Text.trim token) c m project items)

/-- The cloud configuration of the instances of a cluster. -/
def cloudConfigFor (c : Cluster) (project : String) : String :=
  cloudConfig project p.config.network p.config.subnetwork c.nameText

/-- The metadata of a machine. -/
def bootMetadata (c : Cluster) (m : Machine) (project : String) (spec : MachineProviderSpec) :
    Boot (StringMap String) := do
  MonadExcept.ofExcept (requireVersion .kubelet m.spec.versions.kubelet)
  let setup ← MonadExcept.ofExcept (p.setupFor m spec)
  let metadata ← p.roleMetadata S o c m project spec setup.items
  return metadata.insert cloudConfigKey (p.cloudConfigFor c project)

end Provisions

end NodeProvisioner
