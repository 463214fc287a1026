import NodeProvisioner.Bootstrap.Error
import NodeProvisioner.Kube.Error

/-!
# Errors

What can go wrong while a machine is provisioned, and which of it may pass by itself.
-/

namespace NodeProvisioner

/-- An error of a pass or of one of its steps. -/
inductive Error where
  | kube (error : KubeError)
  | pki (error : PkiError)
  | bootstrap (error : BootstrapError)
  /-- The snapshot that a machine carries cannot be read. -/
  | decode (machine message : String)
  /-- A snapshot cannot be written. -/
  | encode (machine message : String)
  /-- The record of a machine is no longer there. -/
  | recordGone (namespaceText name : String)
  /-- The record of a machine has changed since it was read. -/
  | conflict (namespaceText name : String)
  /-- The provider has failed an operation on an instance. -/
  | provisioning (machine operation message : String)
  /-- An operation of the provider has not come to its end in time. -/
  | operationPending (name status : String)
  | validation (message : String)
  | serialization (message : String)
deriving Inhabited, DecidableEq, Repr

namespace Error

/-- The error in words. -/
def message : Error → String
  | kube e => s!"kubernetes error: {e.message}"
  | pki e => s!"pki error: {e.message}"
  | bootstrap e => s!"bootstrap error: {e.message}"
  | decode machine text => s!"failed to decode instance status of machine {machine}: {text}"
  | encode machine text => s!"failed to encode instance status of machine {machine}: {text}"
  | recordGone ns name => s!"machine {ns}/{name} has already been deleted"
  | conflict ns name => s!"machine {ns}/{name} was modified concurrently"
  | provisioning machine operation text => s!"{operation} failed for machine {machine}: {text}"
  | operationPending name status => s!"operation {name} still {status}"
  | validation text => s!"validation error: {text}"
  | serialization text => s!"serialization error: {text}"

/-- The name of the kind of the error. -/
def kind : Error → String
  | .kube _ => "Kube"
  | .pki _ => "Pki"
  | .bootstrap _ => "Bootstrap"
  | .decode .. => "Decode"
  | .encode .. => "Encode"
  | .recordGone .. => "RecordGone"
  | .conflict .. => "Conflict"
  | .provisioning .. => "Provisioning"
  | .operationPending .. => "OperationPending"
  | .validation _ => "Validation"
  | .serialization _ => "Serialization"

/-- The same pass may succeed if it is run again later. -/
def isRetryable : Error → Bool
  | conflict .. => true
  | operationPending .. => true
  | kube _ => true
  | provisioning .. => true
  | _ => false

end Error

end NodeProvisioner
