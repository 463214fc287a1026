import NodeProvisioner.Proofs.Runs.Courses
import NodeProvisioner.Proofs.Snapshots.RoundTrip

/-!
# Plain workers

The simplest machine there is: a worker of which only the zone and the type are asked for. It is
plain, and it is buildable wherever a setup fits it and there is an endpoint to join.
-/

namespace NodeProvisioner

/-- A worker in a zone. -/
def Machine.worker (ns name zone kind kubelet : String) : Machine :=
  { metadata := { name := some name, namespaceName := some ns }
    spec :=
      { providerSpec := ⟨some (.obj
          [("machineType", .str kind), ("roles", .arr [.str "Node"]), ("zone", .str zone)])⟩
        versions := { kubelet } } }

namespace Machine

variable (ns name zone kind kubelet : String)

theorem isNamed_worker : (worker ns name zone kind kubelet).IsNamed ns name := ⟨rfl, rfl⟩

theorem isPlain_worker : (worker ns name zone kind kubelet).IsPlain where
  metadata := ⟨nofun, nofun, nofun⟩
  value j eq := by
    cases eq
    have names : ["machineType", "roles", "zone"].Pairwise (· < ·) := by decide
    refine ⟨nofun, Json.isNormal_obj names ?_, rfl, Nat.le_of_ble_eq_true rfl⟩
    simp [Json.IsNormal, Json.canonical, Json.canonicalItems]

theorem isLegible_worker : (worker ns name zone kind kubelet).IsLegible where
  sorted j eq := ((isPlain_worker ..).value j eq).normal
  integers j eq := ((isPlain_worker ..).value j eq).plain
  bounded := List.forall_mem_nil _
  shallow := (Codec.carries_machine (isPlain_worker ..)).shallow
  whole := List.forall_mem_nil _

/-- What a worker asks for. -/
theorem ofMachine_worker (zone_ne : zone ≠ "") (kind_ne : kind ≠ "") :
    MachineProviderSpec.ofMachine (worker ns name zone kind kubelet)
      = .ok { roles := [.node], zone, machineType := kind } := by
  refine MachineProviderSpec.ofMachine_eq_ok_iff.mpr ⟨_, rfl, ?_, ?_⟩
  · rfl
  · have zone_given : zone.isEmpty = false :=
      Bool.eq_false_iff.mpr fun empty => zone_ne (String.isEmpty_iff.mp empty)
    have kind_given : kind.isEmpty = false :=
      Bool.eq_false_iff.mpr fun empty => kind_ne (String.isEmpty_iff.mp empty)
    simp only [MachineProviderSpec.validate, zone_given, kind_given]
    rfl

end Machine

/-- A worker is buildable wherever a setup fits it and there is an endpoint to join. -/
theorem Provisions.isBuildable_worker {S : SignatureSystem} {p : Provisions} {c : Cluster}
    {k : ClusterProviderSpec} (cluster : ClusterProviderSpec.ofCluster c = .ok k)
    (endpoint : c.endpoints ≠ []) (ns name : String) {zone kind kubelet : String}
    (zone_ne : zone ≠ "") (kind_ne : kind ≠ "") (kubelet_ne : kubelet ≠ "") {setup : Setup}
    (fits : p.setups.resolve ⟨"", [.node], { kubelet }⟩ = .ok setup) :
    p.IsBuildable S c (.worker ns name zone kind kubelet)
      { roles := [.node], zone, machineType := kind } where
  cluster := ⟨k, cluster⟩
  machine := Machine.ofMachine_worker ns name zone kind kubelet zone_ne kind_ne
  setup := ⟨setup, fits⟩
  kubelet := kubelet_ne
  controlPlane := nofun
  endpoint _ := endpoint
  names := nofun
  authority := nofun

/-! ## Workers with a note -/

/-- Lists in lists, this many of them. -/
def Json.nested : Nat → Json
  | 0 => .arr []
  | n + 1 => .arr [nested n]

namespace Json

theorem isPlain_nested : ∀ n, (nested n).isPlain = true
  | 0 => rfl
  | n + 1 => by
    rw [nested, isPlain, itemsPlain, isPlain_nested n]
    rfl

theorem isNormal_nested : ∀ n, (nested n).IsNormal
  | 0 => rfl
  | n + 1 => by
    have inner : (nested n).canonical = nested n := isNormal_nested n
    rw [nested, IsNormal, canonical, canonicalItems, inner]
    rfl

theorem depth_nested : ∀ n, (nested n).depth = n + 1
  | 0 => rfl
  | n + 1 => by
    rw [nested, depth, itemsDepth, itemsDepth, depth_nested n, Nat.max_eq_left (Nat.zero_le _)]

end Json

namespace Machine

variable (ns name zone kind kubelet : String) (note : Json)

/-- What is asked of a worker, and a note that nobody reads. -/
def notedValue : Json :=
  .obj [("machineType", .str kind), ("note", note), ("roles", .arr [.str "Node"]),
    ("zone", .str zone)]

/-- A worker with a note. -/
def noted : Machine :=
  let m := worker ns name zone kind kubelet
  { m with spec := { m.spec with providerSpec := ⟨some (notedValue zone kind note)⟩ } }

/-- A worker asks for the same with a note. -/
theorem ofMachine_noted (zone_ne : zone ≠ "") (kind_ne : kind ≠ "") :
    MachineProviderSpec.ofMachine (noted ns name zone kind kubelet note)
      = .ok { roles := [.node], zone, machineType := kind } := by
  obtain ⟨_, value, read, valid⟩ := MachineProviderSpec.ofMachine_eq_ok_iff.mp
    (ofMachine_worker ns name zone kind kubelet zone_ne kind_ne)
  cases value
  refine MachineProviderSpec.ofMachine_eq_ok_iff.mpr ⟨_, rfl, ?_, valid⟩
  refine (Codec.ofJson_record_congr rfl (by decide) ?_ ?_ fun name known => ?_).mp read
  · show ["machineType", "roles", "zone"].Nodup
    decide
  · show ["machineType", "note", "roles", "zone"].Nodup
    decide
  · have other : name ≠ "note" := fun eq => absurd (eq ▸ known) (by decide)
    simp only [Members.among_cons, if_neg other]

variable {note}

theorem isNormal_noted (normal : note.IsNormal) :
    (noted ns name zone kind kubelet note).IsNormal := by
  intro j eq
  cases eq
  have names : ["machineType", "note", "roles", "zone"].Pairwise (· < ·) := by decide
  have inner : note.canonical = note := normal
  refine Json.isNormal_obj names ?_
  simp [Json.IsNormal, Json.canonical, Json.canonicalItems, inner]

theorem isPlain_notedValue (plain : note.isPlain = true) :
    (notedValue zone kind note).isPlain = true := by
  simp [notedValue, Json.isPlain, Json.membersPlain, Json.itemsPlain, plain]

/-- A snapshot of a worker with a note that is nested too deep cannot be read. -/
theorem exists_error_of_noted (deep : 123 < note.depth) (stored : Machine) :
    ∃ e, (Pass.recordOf stored (noted ns name zone kind kubelet note)).snapshot? = .error e := by
  refine exists_error_of_deep (annotation?_withSnapshot stored _) rfl ?_
  have mem : ("note", note) ∈ [("machineType", Json.str kind), ("note", note),
      ("roles", .arr [.str "Node"]), ("zone", .str zone)] :=
    List.mem_cons_of_mem _ List.mem_cons_self
  rw [notedValue, Json.depth]
  exact Nat.lt_succ_of_le (Nat.le_trans deep (Json.depth_le_membersDepth mem))

end Machine

/-! ## A setting for workers -/

/-- A cluster with an endpoint to join. -/
def Cluster.reachable (project : String) (endpoint : ApiEndpoint) : Cluster :=
  { spec := { providerSpec := ⟨some (.obj [("project", .str project)])⟩ }
    status := some { endpoints := [endpoint] } }

theorem ClusterProviderSpec.ofCluster_reachable {project : String} (given : project ≠ "")
    (endpoint : ApiEndpoint) :
    ClusterProviderSpec.ofCluster (.reachable project endpoint) = .ok { project } := by
  have given' : project.isEmpty = false :=
    Bool.eq_false_iff.mpr fun empty => given (String.isEmpty_iff.mp empty)
  refine bind_eq_ok_iff.mpr ⟨{ project }, ProviderSpec.decode_eq_ok_iff.mpr ⟨_, rfl, rfl⟩, ?_⟩
  simp only [given']
  rfl

/-- Provisions with one setup, for workers of one version. -/
def Provisions.ofWorkers (image kubelet : String) : Provisions :=
  { setups := ⟨[{ shapes := [⟨"", [.node], { kubelet }⟩], image }]⟩ }

theorem Provisions.resolve_ofWorkers (image kubelet : String) :
    (ofWorkers image kubelet).setups.resolve ⟨"", [.node], { kubelet }⟩
      = .ok { shapes := [⟨"", [.node], { kubelet }⟩], image } := by
  simp [ofWorkers, Setups.resolve, Setup.fits, MachineShape.agrees]

/-- A setting in which workers of one version are provisioned, for a cluster that can be joined. -/
def Setting.ofWorkers (project : String) (endpoint : ApiEndpoint) (image kubelet ns name : String) :
    Setting where
  system := .elliptic
  provisions := .ofWorkers image kubelet
  clusters c := c = .reachable project endpoint
  space := ns
  name := name

theorem Setting.isBuildable_ofWorkers {project zone kind kubelet : String}
    (project_ne : project ≠ "") (zone_ne : zone ≠ "") (kind_ne : kind ≠ "")
    (kubelet_ne : kubelet ≠ "") (endpoint : ApiEndpoint) (image ns name : String) {c : Cluster}
    (own : (ofWorkers project endpoint image kubelet ns name).clusters c) :
    (ofWorkers project endpoint image kubelet ns name).provisions.IsBuildable .elliptic c
      (.worker ns name zone kind kubelet) { roles := [.node], zone, machineType := kind } := by
  obtain rfl : c = .reachable project endpoint := own
  exact Provisions.isBuildable_worker (ClusterProviderSpec.ofCluster_reachable project_ne endpoint)
    (List.cons_ne_nil _ _) ns name zone_ne kind_ne kubelet_ne (Provisions.resolve_ofWorkers ..)

/-- A scene with one record and no instance. -/
def Scene.holding (m : Machine) : Scene :=
  ⟨{ records := StringMap.empty.insert (Memory.recordKey m) m }, [], false⟩

theorem Setting.record_holding {w : Setting} {m : Machine} (named : m.IsNamed w.space w.name) :
    w.record (.holding m) = some m := by
  have found := StringMap.get?_insert StringMap.empty (Memory.recordKey m) (Memory.recordKey m) m
  rw [if_pos rfl, Memory.recordKey, named.space, named.nameOrStem] at found
  rwa [Setting.record, Memory.readRecord, Scene.holding, Memory.recordKey, named.space,
    named.nameOrStem]

theorem Setting.fresh_holding {w : Setting} {m : Machine} (named : m.IsNamed w.space w.name)
    (normal : m.IsNormal) (blank : m.snapshot? = .ok none) : w.Fresh (.holding m) where
  record := ⟨m, record_holding named, named, normal, blank⟩
  empty _ := rfl
  log := rfl

/-- The first pass over a worker makes its instance and records it. -/
theorem Setting.created_ofWorkers (project : String) (endpoint : ApiEndpoint)
    (image ns name zone kind kubelet : String) (project_ne : project ≠ "") (zone_ne : zone ≠ "")
    (kind_ne : kind ≠ "") (kubelet_ne : kubelet ≠ "") :
    let w := ofWorkers project endpoint image kubelet ns name
    let m := Machine.worker ns name zone kind kubelet
    ∃ t made, w.PassEnds False (.holding m) (some .created) t ∧
      w.record t = some (Pass.recordOf m m) ∧
      t.log = [.recorded m (Pass.recordOf m m), .inserted zone m made] := by
  intro w m
  have fresh : w.Fresh (.holding m) := fresh_holding (Machine.isNamed_worker ..)
    (Machine.isPlain_worker ..).isNormal rfl
  have found : w.record (.holding m) = some m := record_holding (Machine.isNamed_worker ..)
  obtain ⟨r, t, ends⟩ := exists_passEnds (w := w) False rfl default found
  obtain ⟨rfl, recorded, made, log⟩ := fresh.created found rfl (fun _ own =>
    isBuildable_ofWorkers project_ne zone_ne kind_ne kubelet_ne endpoint image ns name own) ends
  exact ⟨t, made, ends, recorded, log⟩

end NodeProvisioner
