import NodeProvisioner.Proofs.Snapshots.Writes

/-!
# The round trip of a machine through a snapshot

A machine can be stored if its text can be read back: its timestamps are of whole seconds and of
years of four digits, its opaque values are not `null` and have only integers for numbers, and the
document of the machine as a whole is not nested deeper than a reader follows. What is nested in it
is then nested less deep, so that such a machine is plain.

It takes less for a machine to be legible, so that what it asks for can be read back: what managers
have noted of the fields they have set may be `null`, and may hold floating-point numbers.

Main statement: `snapshot?_withSnapshot`.
-/

namespace NodeProvisioner

/-! ## Machines that can be stored -/

/-- The opaque values of the metadata. -/
def ObjectMeta.opaqueValues (m : ObjectMeta) : List Json :=
  (m.managedFields.getD []).filterMap (·.fields)

/-- The timestamps of the metadata. -/
def ObjectMeta.timestamps (m : ObjectMeta) : List Timestamp :=
  m.creationTimestamp.toList ++ m.deletionTimestamp.toList ++
    (m.managedFields.getD []).filterMap (·.time)

/-- The opaque values that a machine holds: what only the provider understands, and what managers
have noted of the fields they have set. -/
def Machine.opaqueValues (m : Machine) : List Json :=
  m.spec.providerSpec.value.toList ++ m.metadata.opaqueValues

/-- A machine that can be stored as a text. An opaque value is one held in memory, so the members of
its objects are sorted. -/
structure Machine.IsStorable (m : Machine) : Prop where
  sorted : ∀ j ∈ m.opaqueValues, j.IsNormal
  present : ∀ j ∈ m.opaqueValues, j ≠ .null
  integers : ∀ j ∈ m.opaqueValues, j.isPlain = true
  shallow : (Codec.machine.write m).depth ≤ Json.depthLimit
  whole : ∀ t ∈ m.metadata.timestamps, t.IsWhole

/-- A machine that can be read from its text, and what it asks for as it was. An integer held in
memory is one of sixty-four bits. -/
structure Machine.IsLegible (m : Machine) : Prop where
  sorted : ∀ j, m.spec.providerSpec.value = some j → j.IsNormal
  integers : ∀ j, m.spec.providerSpec.value = some j → j.isPlain = true
  bounded : ∀ j ∈ m.metadata.opaqueValues, j.isBounded = true
  shallow : (Codec.machine.write m).depth ≤ Json.depthLimit
  whole : ∀ t ∈ m.metadata.timestamps, t.IsWhole

namespace ObjectMeta

variable {m : ObjectMeta} {t : Timestamp}

theorem mem_timestamps_creation (eq : m.creationTimestamp = some t) : t ∈ m.timestamps := by
  refine List.mem_append_left _ (List.mem_append_left _ ?_)
  rw [eq]
  exact List.mem_singleton_self t

theorem mem_timestamps_deletion (eq : m.deletionTimestamp = some t) : t ∈ m.timestamps := by
  refine List.mem_append_left _ (List.mem_append_right _ ?_)
  rw [eq]
  exact List.mem_singleton_self t

section

variable {fs : List ManagedFields} {f : ManagedFields} (managed : m.managedFields = some fs)
  (mem : f ∈ fs)

include managed mem

theorem mem_timestamps_managed (eq : f.time = some t) : t ∈ m.timestamps := by
  refine List.mem_append_right _ (List.mem_filterMap.mpr ⟨f, ?_, eq⟩)
  rwa [managed]

theorem mem_opaqueValues {j : Json} (eq : f.fields = some j) : j ∈ m.opaqueValues := by
  refine List.mem_filterMap.mpr ⟨f, ?_, eq⟩
  rwa [managed]

end

end ObjectMeta

namespace Machine

open Codec Members

/-! ## What is nested in a machine -/

theorem depth_metadata (m : Machine) :
    (Codec.objectMeta.write m.metadata).depth < (Codec.machine.write m).depth := by
  refine depth_lt_record "metadata" ?_
  exact mem_write_head nofun

theorem depth_spec (m : Machine) :
    (Codec.machineSpec.write m.spec).depth < (Codec.machine.write m).depth := by
  refine depth_lt_record "spec" ?_
  exact mem_write_tail (mem_write_head nofun)

theorem depth_value {m : Machine} {j : Json} (eq : m.spec.providerSpec.value = some j) :
    j.depth + 3 ≤ (Codec.machine.write m).depth := by
  have own : j.depth < (Codec.providerSpec.write m.spec.providerSpec).depth := by
    refine depth_lt_record "value" ?_
    rw [eq]
    exact mem_write_head nofun
  have provider : (Codec.providerSpec.write m.spec.providerSpec).depth
      < (Codec.machineSpec.write m.spec).depth := by
    refine depth_lt_record "providerSpec" ?_
    exact mem_write_head nofun
  have spec := m.depth_spec
  omega

theorem depth_fields {m : Machine} {fs : List ManagedFields} {f : ManagedFields} {j : Json}
    (managed : m.metadata.managedFields = some fs) (mem : f ∈ fs) (eq : f.fields = some j) :
    j.depth + 4 ≤ (Codec.machine.write m).depth := by
  have own : j.depth < (Codec.managedFields.write f).depth := by
    refine depth_lt_record "fieldsV1" ?_
    rw [eq]
    exact mem_write_tail (mem_write_tail (mem_write_head nofun))
  have item : (Codec.managedFields.write f).depth
      < ((Codec.list Codec.managedFields).write fs).depth := depth_lt_list mem
  have list : ((Codec.list Codec.managedFields).write fs).depth
      < (Codec.objectMeta.write m.metadata).depth := by
    refine depth_lt_record "managedFields" ?_
    rw [managed]
    iterate 8 refine mem_write_tail ?_
    exact mem_write_head nofun
  have metadata := m.depth_metadata
  omega

/-! ## The round trip -/

/-- **A snapshot of what is nested too deep cannot be read.** It is written all the same. -/
theorem exists_error_of_deep {m last : Machine}
    (taken : m.metadata.annotation? snapshotKey = some (Snapshot.encode last)) {j : Json}
    (eq : last.spec.providerSpec.value = some j) (deep : 124 < j.depth) :
    ∃ e, m.snapshot? = .error e := by
  cases shown : m.snapshot? with
  | error e => exact ⟨e, rfl⟩
  | ok current =>
    cases current with
    | none => exact absurd shown (snapshot?_ne_none taken)
    | some current =>
      have shallow : (Codec.machine.write last.blanked).depth ≤ 127 :=
        Snapshot.depth_of_decode ((snapshot?_eq_some_iff taken).mp shown)
      have inner := depth_value (m := last.blanked) eq
      omega

theorem mem_opaqueValues_value {m : Machine} {j : Json} (eq : m.spec.providerSpec.value = some j) :
    j ∈ m.opaqueValues := by
  refine List.mem_append_left _ ?_
  rw [eq]
  exact List.mem_singleton_self j

theorem IsStorable.isPlain {m : Machine} (h : m.IsStorable) : m.IsPlain := by
  have shallow : (Codec.machine.write m).depth ≤ 127 := h.shallow
  have kept {j : Json} {d : Nat} (mem : j ∈ m.opaqueValues) (le : j.depth ≤ d) : j.IsKept d :=
    ⟨h.present j mem, h.sorted j mem, h.integers j mem, le⟩
  refine ⟨⟨fun t eq => h.whole t (ObjectMeta.mem_timestamps_creation eq),
    fun t eq => h.whole t (ObjectMeta.mem_timestamps_deletion eq), fun fs managed f mem =>
      ⟨fun j eq => ?_, fun t eq => h.whole t (ObjectMeta.mem_timestamps_managed managed mem eq)⟩⟩,
    fun j eq => ?_⟩
  · have deep := depth_fields managed mem eq
    exact kept (List.mem_append_right _ (ObjectMeta.mem_opaqueValues managed mem eq)) (by omega)
  · have deep := depth_value eq
    exact kept (mem_opaqueValues_value eq) (by omega)

theorem IsLegible.isReadable {m : Machine} (h : m.IsLegible) : m.IsReadable := by
  have shallow : (Codec.machine.write m).depth ≤ 127 := h.shallow
  refine ⟨⟨fun t eq => h.whole t (ObjectMeta.mem_timestamps_creation eq),
    fun t eq => h.whole t (ObjectMeta.mem_timestamps_deletion eq), fun fs managed f mem =>
      ⟨fun j eq => ?_, fun t eq => h.whole t (ObjectMeta.mem_timestamps_managed managed mem eq)⟩⟩,
    fun j eq => ?_⟩
  · have deep := depth_fields managed mem eq
    exact ⟨h.bounded j (ObjectMeta.mem_opaqueValues managed mem eq), by omega⟩
  · have deep := depth_value eq
    exact ⟨h.sorted j eq, h.integers j eq, by omega⟩

/-- **The round trip through a snapshot.** A machine that can be stored is read back from its
snapshot as it was, but for its own annotation for snapshots, which is there and empty. The machine
that carries the snapshot is otherwise as it was. -/
theorem snapshot?_withSnapshot (target : Machine) {m : Machine} (h : m.IsStorable) :
    (target.withSnapshot m).snapshot?
      = .ok (some { m with metadata := m.metadata.annotate snapshotKey "" }) ∧
    (m.metadata.annotate snapshotKey "").annotation? snapshotKey = some "" ∧
    m.SameButSnapshot { m with metadata := m.metadata.annotate snapshotKey "" } ∧
    target.SameButSnapshot (target.withSnapshot m) := by
  refine ⟨snapshot?_of_plain (target.annotation?_withSnapshot m) h.isPlain, ?_, .blanked m,
    .withSnapshot target m⟩
  exact (ObjectMeta.annotation?_annotate _ _ _ _).trans (if_pos rfl)

/-- A machine with an opaque value of each kind, timestamps and texts with all sorts of
characters. -/
def specimen : Machine where
  metadata :=
    { name := some "worker", creationTimestamp := some ⟨1700000000, 0⟩,
      annotations := some (.ofList [("größe", "\"5\"\n"), (snapshotKey, "not a snapshot")]),
      managedFields := some [{ fields := some (.obj [("f:spec", .obj [])]), time := some ⟨-1, 0⟩ }] }
  spec :=
    { providerSpec := ⟨some (.obj [("disks", .arr [.int 30]), ("zone", .str "zone-a")])⟩ }
  status := some { phase := some "Running" }

theorem isStorable_specimen : specimen.IsStorable where
  sorted := List.forall_mem_cons.mpr ⟨rfl, List.forall_mem_singleton.mpr rfl⟩
  present := List.forall_mem_cons.mpr ⟨nofun, List.forall_mem_singleton.mpr nofun⟩
  integers := List.forall_mem_cons.mpr ⟨rfl, List.forall_mem_singleton.mpr rfl⟩
  shallow := by decide
  whole := by decide

/-- So a machine shows itself as it was, with its own annotation emptied. -/
theorem snapshot?_withSnapshot_of_specimen :
    (specimen.withSnapshot specimen).snapshot?
      = .ok (some { specimen with metadata := specimen.metadata.annotate snapshotKey "" }) ∧
    (specimen.withSnapshot specimen).metadata.annotation? "größe" = some "\"5\"\n" := by
  obtain ⟨read, _, _, kept⟩ := snapshot?_withSnapshot specimen isStorable_specimen
  exact ⟨read, kept.annotations _ (by decide)⟩

end Machine

end NodeProvisioner
