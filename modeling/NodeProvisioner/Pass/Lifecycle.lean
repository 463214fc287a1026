import NodeProvisioner.Compute.Blueprint
import NodeProvisioner.Pass.Metadata
import NodeProvisioner.Pass.Site

/-!
# The life of an instance

A pass creates the instance of a machine, deletes it, or moves it towards what the machine asks for
now. An instance of a worker is moved by making it anew; that of a machine which runs the control
plane is never moved. What a machine asked for when its instance was made is told by its snapshot.

Before an instance is deleted to be made anew, it is checked that a setup fits the machine as it is
wanted.
-/

namespace NodeProvisioner

/-- What a pass has done. -/
inductive Outcome where
  | created
  /-- The instance was there; only its snapshot has been taken. -/
  | alreadyExists
  | deleted
  /-- There was no instance to delete. -/
  | alreadyAbsent
  /-- The instance has been deleted and made anew. -/
  | recreated
  /-- An instance without a snapshot has got one. -/
  | statusRecorded
  /-- The machine asks for what its snapshot shows. -/
  | unchanged
deriving DecidableEq, Repr, Inhabited

/-- The name of an outcome. -/
def Outcome.name : Outcome → String
  | created => "Created"
  | alreadyExists => "AlreadyExists"
  | deleted => "Deleted"
  | alreadyAbsent => "AlreadyAbsent"
  | recreated => "Recreated"
  | statusRecorded => "StatusRecorded"
  | unchanged => "Unchanged"

/-- A machine asks for something else than it did: under another name, of the provider, or of the
software. -/
def Machine.differs (current goal : Machine) : Bool :=
  current.metadata.name ≠ goal.metadata.name || current.spec.providerSpec != goal.spec.providerSpec
    || current.spec.versions ≠ goal.spec.versions

namespace Provisions

variable (S : SignatureSystem) (p : Provisions) (o : Occasion) (c : Cluster)

/-- The instance that a machine asks for, with all that it boots from. -/
def blueprint (m : Machine) (site : Site) : Pass Blueprint := do
  let setup ← Pass.ofExcept ((p.setupFor m site.spec).mapError .bootstrap)
  let metadata ← ExceptT.adapt Error.bootstrap (p.bootMetadata S o c m site.project site.spec)
  return ⟨c, m, site.spec, setup.image, metadata⟩

/-- Makes the instance of a machine, unless it is there. -/
def ensure (m : Machine) (site : Site) : Pass Outcome := do
  if (← site.find).isSome then return .alreadyExists
  else
    let blueprint ← p.blueprint S o c m site
    let _ ← site.insert p.config.polling.backoff (blueprint.build p.config)
    return .created

/-- Creates the instance of a machine, and takes a snapshot in any case. -/
def create (m : Machine) : Pass Outcome := do
  let site ← Pass.ofExcept (Site.of c m)
  let outcome ← p.ensure S o c m site
  let _ ← Pass.record m
  return outcome

/-- Deletes the instance of a machine, if it is there. -/
def delete (m : Machine) : Pass Outcome := do
  let site ← Pass.ofExcept (Site.of c m)
  if (← site.find).isNone then return .alreadyAbsent
  else
    let _ ← site.delete p.config.polling.backoff
    return .deleted

/-- Takes a snapshot of a machine that has an instance but no snapshot. -/
def adopt (goal : Machine) : Pass Outcome := do
  if ← Pass.exists c goal then
    let _ ← Pass.record goal
    return .statusRecorded
  else
    throw (.validation
      s!"cannot retrieve current state to update machine {goal.identity}")

/-- The instance of a machine may be made anew: it is a worker's, and a setup fits what is
wanted. -/
def checkReplaceable (current goal : Machine) : Except Error Unit := do
  let currentSpec ← MachineProviderSpec.ofMachine current
  if currentSpec.isMaster then
    throw (.validation
      s!"updating control plane machine {goal.identity} in place is not supported")
  let goalSpec ← MachineProviderSpec.ofMachine goal
  let _ ← (p.setupFor goal goalSpec).mapError .bootstrap

/-- Makes the instance of a machine anew, if the machine asks for something else now. -/
def replace (current goal : Machine) : Pass Outcome := do
  if !current.differs goal then return .unchanged
  else
    Pass.ofExcept (p.checkReplaceable current goal)
    let _ ← p.delete c current
    let _ ← p.create S o c goal
    return .recreated

/-- Moves the instance of a machine towards what the machine asks for. -/
def update (goal : Machine) : Pass Outcome := do
  match ← Pass.ofExcept goal.snapshot? with
  | none => adopt c goal
  | some current => p.replace S o c current goal

/-- Deletes, creates or updates, whichever the machine is in need of. -/
def reconcile (m : Machine) : Pass Outcome := do
  if m.isTerminating then p.delete c m
  else
    match ← Pass.ofExcept m.snapshot? with
    | none => p.create S o c m
    | some _ => p.update S o c m

end Provisions

end NodeProvisioner
