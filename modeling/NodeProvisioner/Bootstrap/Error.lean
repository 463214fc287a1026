import NodeProvisioner.Pki.Error

/-!
# Errors of the bootstrap metadata
-/

namespace NodeProvisioner

/-- A version that a role requires. -/
inductive RequiredVersion where
  | kubelet
  | controlPlane
deriving Inhabited, DecidableEq, Repr

/-- What a machine lacks to be configured. -/
inductive ConfigurationFault where
  | missingVersion (version : RequiredVersion)
  | other (message : String)
deriving Inhabited, DecidableEq, Repr

/-- Why a boot script cannot be rendered. -/
inductive RenderFault where
  /-- A parameter without a value stands in this line of the script. -/
  | undefined (script machine : String) (line : Nat)
  | other (message : String)
deriving Inhabited, DecidableEq, Repr

/-- Why no setup config can be used. -/
inductive SetupFault where
  | unreadable (file : String) (fault : IoFault)
  | invalid (message : String)
  | noMatch (params : String)
  | manyMatches (params : String)
  | other (message : String)
deriving Inhabited, DecidableEq, Repr

/-- Why the metadata that an instance boots from cannot be built. -/
inductive BootstrapError where
  | missingEndpoint (cluster : String)
  | templateRender (fault : RenderFault)
  | invalidConfiguration (fault : ConfigurationFault)
  | tokenCreation (message : String)
  | machineSetup (fault : SetupFault)
  | certificate (error : PkiError)
deriving Inhabited, DecidableEq, Repr

/-- The name of the version in messages. -/
def RequiredVersion.name : RequiredVersion → String
  | kubelet => "Kubelet"
  | controlPlane => "ControlPlane"

/-- The fault in words. -/
def ConfigurationFault.message : ConfigurationFault → String
  | missingVersion version => s!"missing Machine.Spec.Versions.{version.name}"
  | other message => message

/-- The fault in words. -/
def RenderFault.message : RenderFault → String
  | undefined script machine line =>
    s!"{script} for machine {machine}: undefined value (in {script}:{line})"
  | other message => message

/-- The fault in words. -/
def SetupFault.message : SetupFault → String
  | unreadable file fault => s!"unable to read {file}: {fault.message}"
  | invalid message => s!"invalid setup config yaml: {message}"
  | noMatch params => s!"could not find a matching machine setup config for params {params}"
  | manyMatches params => s!"found multiple matching machine setup configs for params {params}"
  | other message => message

/-- The name of the kind of the error. -/
def BootstrapError.kind : BootstrapError → String
  | .missingEndpoint _ => "MissingEndpoint"
  | .templateRender _ => "TemplateRender"
  | .invalidConfiguration _ => "InvalidMachineConfiguration"
  | .tokenCreation _ => "TokenCreation"
  | .machineSetup _ => "MachineSetup"
  | .certificate _ => "Certificate"

/-- The error in words. -/
def BootstrapError.message : BootstrapError → String
  | missingEndpoint cluster => s!"master endpoint not found in apiEndpoints for cluster {cluster}"
  | templateRender fault => s!"template render failed: {fault.message}"
  | invalidConfiguration fault => s!"invalid machine configuration: {fault.message}"
  | tokenCreation message => s!"unable to create token: {message}"
  | machineSetup fault => s!"machine setup config: {fault.message}"
  | certificate error => s!"api server certificate: {error.message}"

end NodeProvisioner
