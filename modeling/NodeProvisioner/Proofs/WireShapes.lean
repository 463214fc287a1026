import NodeProvisioner.Compute.Instance
import NodeProvisioner.Compute.Operation
import NodeProvisioner.Proofs.Codec.RoundTrips
import NodeProvisioner.Provider.Spec

/-!
# Shapes on the wire

What a machine asks for and where a cluster lives are written into records as opaque values, and
instances and operations are exchanged with the compute provider. Some members of them are not
written when they are empty, and then the value that counts in their absence is the empty one. So
everything comes back as it was: there are no exceptions, whatever lists and texts are empty.

What is invalid is read back all the same, but is refused then.

Main statement: `Codec.wireShapes_return`.
-/

namespace NodeProvisioner

theorem StringMap.eq_empty_of_isEmpty {α : Type} {m : StringMap α} (h : m.isEmpty = true) :
    m = .empty := by
  obtain ⟨entries, sorted⟩ := m
  obtain rfl : entries = [] := List.isEmpty_iff.mp h
  rfl

namespace Codec

open Member

/-! ## Provider specs -/

theorem roundTrips_role (d : Nat) (r : Role) : role.RoundTrips d r := by
  cases r <;> exact roundTrips_choice d rfl

theorem roundTrips_disk (k : Disk) : disk.RoundTrips 2 k := by
  have params : diskParams.RoundTrips 1 k.params := by
    refine roundTrips_record rfl rfl (by decide) rfl ?_
    exact ⟨roundTrips_required (roundTrips_int64 0 _), roundTrips_required (roundTrips_text 0 _),
      trivial⟩
  refine roundTrips_record rfl rfl (by decide) rfl ?_
  exact ⟨roundTrips_required params, trivial⟩

theorem roundTrips_machineProviderSpec (s : MachineProviderSpec) :
    machineProviderSpec.RoundTrips 4 s := by
  refine roundTrips_record rfl rfl (by decide) rfl ?_
  refine ⟨roundTrips_defaulted ?_, roundTrips_required (roundTrips_text 3 _),
    roundTrips_required (roundTrips_text 3 _), roundTrips_defaulted (roundTrips_text 3 _),
    roundTrips_omitted ?_ List.isEmpty_iff.mp,
    roundTrips_omitted (roundTrips_text 3 _) String.isEmpty_iff.mp, trivial⟩
  · exact roundTrips_list fun r _ => roundTrips_role 2 r
  · exact roundTrips_list fun k _ => roundTrips_disk k

theorem roundTrips_clusterProviderSpec (s : ClusterProviderSpec) :
    clusterProviderSpec.RoundTrips 1 s := by
  refine roundTrips_record rfl rfl (by decide) rfl ?_
  exact ⟨roundTrips_required (roundTrips_text 0 _),
    roundTrips_omitted (roundTrips_text 0 _) String.isEmpty_iff.mp, trivial⟩

/-! ## Instances -/

theorem roundTrips_texts (d : Nat) (texts : List String) : (list text).RoundTrips (d + 1) texts :=
  roundTrips_list fun s _ => roundTrips_text d s

theorem roundTrips_accessConfig (a : AccessConfig) : accessConfig.RoundTrips 1 a := by
  refine roundTrips_record rfl rfl (by decide) rfl ?_
  exact ⟨roundTrips_required (roundTrips_text 0 _), roundTrips_required (roundTrips_text 0 _),
    roundTrips_textOption _, trivial⟩

theorem roundTrips_networkInterface (i : NetworkInterface) : networkInterface.RoundTrips 3 i := by
  refine roundTrips_record rfl rfl (by decide) rfl ?_
  refine ⟨roundTrips_required (roundTrips_text 2 _), roundTrips_defaulted ?_,
    roundTrips_textOption _, trivial⟩
  exact roundTrips_list fun a _ => roundTrips_accessConfig a

theorem roundTrips_attachedDisk (k : AttachedDisk) : attachedDisk.RoundTrips 2 k := by
  refine roundTrips_record rfl rfl (by decide) rfl ?_
  refine ⟨roundTrips_required (roundTrips_bool 1 _), roundTrips_required (roundTrips_bool 1 _),
    roundTrips_optional fun p _ => ⟨?_, nofun⟩, trivial⟩
  refine roundTrips_record rfl rfl (by decide) rfl ?_
  exact ⟨roundTrips_required (roundTrips_int64 0 _), roundTrips_required (roundTrips_text 0 _),
    roundTrips_omitted (roundTrips_text 0 _) String.isEmpty_iff.mp, trivial⟩

theorem roundTrips_metadataEntry (e : MetadataEntry) : metadataEntry.RoundTrips 1 e := by
  refine roundTrips_record rfl rfl (by decide) rfl ?_
  exact ⟨roundTrips_required (roundTrips_text 0 _), roundTrips_textOption _, trivial⟩

theorem roundTrips_instanceMetadata (m : InstanceMetadata) : instanceMetadata.RoundTrips 3 m := by
  refine roundTrips_record rfl rfl (by decide) rfl ?_
  exact ⟨roundTrips_defaulted (roundTrips_list fun e _ => roundTrips_metadataEntry e), trivial⟩

theorem roundTrips_tags (t : Tags) : tags.RoundTrips 2 t := by
  refine roundTrips_record rfl rfl (by decide) rfl ?_
  exact ⟨roundTrips_defaulted (roundTrips_texts 0 _), trivial⟩

theorem roundTrips_serviceAccount (a : ServiceAccount) : serviceAccount.RoundTrips 2 a := by
  refine roundTrips_record rfl rfl (by decide) rfl ?_
  exact ⟨roundTrips_required (roundTrips_text 1 _), roundTrips_defaulted (roundTrips_texts 0 _),
    trivial⟩

theorem roundTrips_computeInstance (i : Instance) : computeInstance.RoundTrips 5 i := by
  refine roundTrips_record rfl rfl (by decide) rfl ?_
  refine ⟨roundTrips_required (roundTrips_text 4 _), roundTrips_required (roundTrips_text 4 _),
    roundTrips_defaulted (roundTrips_bool 4 _), roundTrips_defaulted ?_, roundTrips_defaulted ?_,
    roundTrips_optional fun m _ => ⟨?_, nofun⟩, roundTrips_optional fun t _ => ⟨?_, nofun⟩,
    roundTrips_omitted ?_ StringMap.eq_empty_of_isEmpty, roundTrips_defaulted ?_,
    roundTrips_textOption _, roundTrips_textOption _, trivial⟩
  · exact roundTrips_list fun n _ => roundTrips_networkInterface n
  · exact roundTrips_list fun k _ => (roundTrips_attachedDisk k).mono (by decide)
  · exact (roundTrips_instanceMetadata m).mono (by decide)
  · exact (roundTrips_tags t).mono (by decide)
  · exact roundTrips_dict fun e _ => roundTrips_text 3 e.2
  · exact roundTrips_list fun a _ => (roundTrips_serviceAccount a).mono (by decide)

/-! ## Operations -/

theorem roundTrips_operationFailures (f : OperationFailures) :
    operationFailures.RoundTrips 3 f := by
  refine roundTrips_record rfl rfl (by decide) rfl ⟨roundTrips_defaulted ?_, trivial⟩
  refine roundTrips_list fun e _ => ?_
  refine roundTrips_record rfl rfl (by decide) rfl ?_
  exact ⟨roundTrips_required (roundTrips_text 0 _), roundTrips_required (roundTrips_text 0 _),
    trivial⟩

theorem roundTrips_operation (o : Operation) : operation.RoundTrips 4 o := by
  refine roundTrips_record rfl rfl (by decide) rfl ?_
  exact ⟨roundTrips_required (roundTrips_text 3 _), roundTrips_required (roundTrips_text 3 _),
    roundTrips_defaulted (roundTrips_text 3 _), roundTrips_defaulted (roundTrips_text 3 _),
    roundTrips_optional fun f _ => ⟨roundTrips_operationFailures f, nofun⟩, trivial⟩

end Codec

/-! ## Values in records -/

/-- What a codec writes, as it is held in memory: with the members of all objects sorted. -/
def Codec.encoded {α : Type} (c : Codec α) (a : α) : Json := (c.write a).canonical

theorem ProviderSpec.decode_encoded {α : Type} {c : Codec α} {d : Nat} {a : α}
    (h : c.RoundTrips d a) {p : ProviderSpec} (value : p.value = some (c.encoded a))
    (owner : String) : p.decode c owner = .ok a := by
  rw [decode, value]
  exact mapError_eq_ok_iff.mpr h.reads

/-- What a machine asks for is read from its record as it was written, and refused if it is not
valid. -/
theorem MachineProviderSpec.ofMachine_encoded (s : MachineProviderSpec) {m : Machine}
    (value : m.spec.providerSpec.value = some (Codec.machineProviderSpec.encoded s)) :
    ofMachine m = (s.validate m.identity).map fun _ => s := by
  have decoded := ProviderSpec.decode_encoded (Codec.roundTrips_machineProviderSpec s) value
    s!"machine {m.identity}"
  unfold ofMachine
  simp only [decoded]
  change (s.validate m.identity >>= fun _ => .ok s) = _
  cases s.validate m.identity <;> rfl

/-- Whether what a machine asks for is valid does not depend on the machine's name. -/
theorem MachineProviderSpec.validate_congr {s : MachineProviderSpec} {identity : String}
    (valid : s.validate identity = .ok ()) (other : String) : s.validate other = .ok () := by
  unfold validate at valid ⊢
  split_ifs at valid ⊢
  rfl

/-- Where a cluster lives is read from its record as it was written, unless it has no project. -/
theorem ClusterProviderSpec.ofCluster_encoded {s : ClusterProviderSpec} (there : s.project ≠ "")
    {c : Cluster}
    (value : c.spec.providerSpec.value = some (Codec.clusterProviderSpec.encoded s)) :
    ofCluster c = .ok s := by
  have decoded := ProviderSpec.decode_encoded (Codec.roundTrips_clusterProviderSpec s) value
    s!"cluster {c.identity}"
  have there : ¬ s.project.isEmpty = true := fun empty => there (String.isEmpty_iff.mp empty)
  unfold ofCluster
  simp only [decoded]
  exact if_neg there

namespace Codec

/-- **What is written for the wire returns as it was.** What a machine asks for is read from the
record that holds it if it is valid, and where a cluster lives if there is a project. Instances and
operations are read from their values in memory and from their texts. -/
theorem wireShapes_return :
    (∀ (s : MachineProviderSpec) (identity : String), s.validate identity = .ok () →
      ∀ m : Machine, m.spec.providerSpec.value = some (machineProviderSpec.encoded s) →
        MachineProviderSpec.ofMachine m = .ok s) ∧
    (∀ s : ClusterProviderSpec, s.project ≠ "" →
      ∀ c : Cluster, c.spec.providerSpec.value = some (clusterProviderSpec.encoded s) →
        ClusterProviderSpec.ofCluster c = .ok s) ∧
    (∀ i : Instance, computeInstance.ofJson (computeInstance.encoded i) = .ok i ∧
      Json.readDocument computeInstance.read (computeInstance.write i).print = .ok i) ∧
    (∀ o : Operation, operation.ofJson (operation.encoded o) = .ok o ∧
      Json.readDocument operation.read (operation.write o).print = .ok o) := by
  refine ⟨fun s identity valid m value => ?_, fun s there c value => ?_, fun i => ?_, fun o => ?_⟩
  · rw [s.ofMachine_encoded value, MachineProviderSpec.validate_congr valid]
    rfl
  · exact ClusterProviderSpec.ofCluster_encoded there value
  · have returns := roundTrips_computeInstance i
    exact ⟨returns.reads, (returns.mono (by decide)).readDocument_print⟩
  · have returns := roundTrips_operation o
    exact ⟨returns.reads, (returns.mono (by decide)).readDocument_print⟩

/-- What a worker asks for, with a disk of no size and without an address. -/
def sparseWorker : MachineProviderSpec where
  roles := [.node]
  zone := "zone"
  machineType := "small"
  disks := [⟨⟨0, ""⟩⟩]

/-- An instance with a disk without parameters and one of negative size, an empty list of metadata,
and no tags at all. -/
def sparseInstance : Instance where
  name := "worker"
  machineType := ""
  disks := [{ autoDelete := true, boot := false },
    { autoDelete := false, boot := true, params := some { sizeGb := -1, diskType := "" } }]
  metadata := some {}
  networkInterfaces := [{ network := "", accessConfigs := [{ name := "", kind := "", natIp := some "" }] }]

/-- Empty parts come back, and are told from those that are absent. -/
theorem wireShapes_return_of_sparse :
    MachineProviderSpec.ofMachine { spec := { providerSpec :=
        ⟨some (machineProviderSpec.encoded sparseWorker)⟩ } } = .ok sparseWorker ∧
    ClusterProviderSpec.ofCluster { spec := { providerSpec :=
        ⟨some (clusterProviderSpec.encoded ⟨"project", ""⟩)⟩ } } = .ok ⟨"project", ""⟩ ∧
    Json.readDocument computeInstance.read (computeInstance.write sparseInstance).print
      = .ok sparseInstance ∧
    operation.ofJson (operation.encoded { name := "", status := "DONE", error := some {} })
      = .ok { name := "", status := "DONE", error := some {} } := by
  obtain ⟨machines, clusters, instances, operations⟩ := wireShapes_return
  refine ⟨machines sparseWorker "worker" rfl _ rfl, clusters ⟨"project", ""⟩ ?_ _ rfl,
    (instances sparseInstance).2, (operations _).1⟩
  have there : "project" ≠ "" := by decide
  exact there

end Codec

end NodeProvisioner
