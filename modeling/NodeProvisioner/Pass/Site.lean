import NodeProvisioner.Compute.Wait
import NodeProvisioner.Pass.Call
import NodeProvisioner.Provider.Spec

/-!
# Sites

The site of a machine is where its instance is to be found: in the project of the cluster, in the
zone that the machine asks for, under the machine's name.
-/

namespace NodeProvisioner

/-- Where the instance of a machine is, if it has one, and what the machine asks for. -/
structure Site where
  project : String
  spec : MachineProviderSpec
  name : String
  /-- The machine as messages call it. -/
  machine : String

namespace Site

/-- The site of a machine of a cluster. -/
def of (c : Cluster) (m : Machine) : Except Error Site := do
  let cluster ← ClusterProviderSpec.ofCluster c
  let spec ← MachineProviderSpec.ofMachine m
  return ⟨cluster.project, spec, m.metadata.nameOrStem, m.identity⟩

variable (s : Site)

/-- The instance at the site, if there is one. -/
def find : Pass (Option Instance) := Pass.getInstance s.machine s.project s.spec.zone s.name

/-- Inserts an instance and waits until it is there. -/
def insert (backoff : Backoff) (wanted : Instance) : Pass Operation := do
  let operation ← Pass.insertInstance s.machine s.project s.spec.zone wanted
  operation.wait backoff s.machine s.project s.spec.zone

/-- Deletes the instance and waits until it is gone. -/
def delete (backoff : Backoff) : Pass Operation := do
  let operation ← Pass.deleteInstance s.machine s.project s.spec.zone s.name
  operation.wait backoff s.machine s.project s.spec.zone

end Site

/-- An instance backs the machine. -/
def Pass.exists (c : Cluster) (m : Machine) : Pass Bool := do
  let site ← Pass.ofExcept (Site.of c m)
  return (← site.find).isSome

end NodeProvisioner
