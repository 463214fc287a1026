import NodeProvisioner.Proofs.Metadata
import NodeProvisioner.Proofs.Text.Entries

/-!
# Shapes of instances

The instance of a machine says the same in several places: its disks are those of the provider spec,
its metadata is the map that was made for it, and the cloud configuration in this metadata speaks of
the tags and the network that the instance has.

A cloud configuration is a text, in which values stand as they are. Whoever reads it line by line
reads the values that were meant if and only if none of them has a line break in it.

Main statement: `Blueprint.build_agrees`.
-/

namespace NodeProvisioner

open Text (IsOneLine entries)

/-! ## Cloud configurations -/

/-- What a cloud configuration says. -/
def cloudSettings (project network subnetwork tag : String) : List (String × String) :=
  [("project-id", project), ("network-name", network), ("subnetwork-name", subnetwork),
    ("node-tags", tag)]

/-- The text of settings: each has a line of its own. -/
def settingsText (settings : List (String × String)) : String :=
  Text.ofLines ("[global]" :: settings.map fun entry => entry.1 ++ " = " ++ entry.2)

theorem cloudConfig_eq (project network subnetwork cluster : String) :
    cloudConfig project network subnetwork cluster
      = settingsText (cloudSettings project network subnetwork (workerTag cluster)) := by
  have first : "[global]\nproject-id = " = "[global]" ++ "\n" ++ "project-id" ++ " = " := by decide
  have second : "\nnetwork-name = " = "\n" ++ "network-name" ++ " = " := by decide
  have third : "subnetwork-name = " = "subnetwork-name" ++ " = " := by decide
  have fourth : "\nnode-tags = " = "\n" ++ "node-tags" ++ " = " := by decide
  change "[global]\nproject-id = " ++ project ++ "\nnetwork-name = " ++ network ++ "\n" ++
    ("subnetwork-name = " ++ subnetwork ++ "\nnode-tags = " ++ workerTag cluster ++ "\n") = _
  rw [first, second, third, fourth]
  simp only [settingsText, cloudSettings, List.map_cons, List.map_nil, Text.ofLines_cons,
    String.append_assoc]
  rfl

/-- **Settings are read line by line as they were meant if and only if there is no line break in
what they say**, as long as their names have neither blanks nor line breaks. -/
theorem entries_settingsText_iff {settings : List (String × String)}
    (names : ∀ entry ∈ settings, IsOneLine entry.1 ∧ ' ' ∉ entry.1.toList) :
    entries " = " (settingsText settings) = settings ↔
      ∀ entry ∈ settings, IsOneLine entry.2 := by
  refine ⟨fun same entry mem => Text.isOneLine_of_mem_entries (same ▸ mem), fun values => ?_⟩
  have each : ∀ line ∈ "[global]" :: settings.map fun entry => entry.1 ++ " = " ++ entry.2,
      IsOneLine line := by
    intro line mem
    obtain rfl | mem := List.mem_cons.mp mem
    · decide
    · obtain ⟨entry, own, rfl⟩ := List.mem_map.mp mem
      exact ((names entry own).1.append (by decide)).append (values entry own)
  have header : Text.assignment? " = " "[global]" = none := by decide
  have last : [""].filterMap (Text.assignment? " = ") = [] := by decide
  rw [entries, settingsText, Text.lines_ofLines each, List.cons_append,
    List.filterMap_cons_none header, List.filterMap_append, last, List.append_nil,
    List.filterMap_map]
  refine (List.filterMap_congr fun entry own => ?_).trans List.filterMap_some
  exact Text.assignment?_append rfl (names entry own).2 entry.2

theorem names_cloudSettings {project network subnetwork tag : String} :
    ∀ entry ∈ cloudSettings project network subnetwork tag,
      IsOneLine entry.1 ∧ ' ' ∉ entry.1.toList := by
  simp only [cloudSettings, List.forall_mem_cons]
  decide

/-! ## Instances -/

/-- Among the metadata of a map, a key has the value that it has in the map. -/
theorem InstanceMetadata.find?_ofMap (m : StringMap String) (key : String) :
    ((ofMap m).items.find? (·.key = key)).bind (·.value) = m.get? key := by
  rw [ofMap, StringMap.get?]
  induction m.entries with
  | nil => rfl
  | cons e rest ih =>
    obtain ⟨k, v⟩ := e
    rw [List.map_cons, List.find?_cons, StringMap.lookup_cons_ite]
    by_cases same : k = key
    · simp [same]
    · rw [if_neg (Ne.symm same), ← ih]
      simp [same]

namespace Blueprint

variable (b : Blueprint) (config : Config)

/-- The disk that is attached for one of the provider spec, by the place of this in the row: the
first boots from the image, and is as large as the configuration demands; the others are empty and
as large as they were asked for. -/
structure Attaches (index : Nat) (disk : Disk) (attached : AttachedDisk)
    (params : AttachedDiskParams) : Prop where
  created : attached.params = some params
  boots : attached.boot = true ↔ index = 0
  kind : params.diskType = s!"zones/{b.spec.zone}/diskTypes/{disk.params.diskType}"
  first : index = 0 → params.sourceImage = b.image ∧
    params.sizeGb.toInt = max disk.params.sizeGb.toInt config.minBootDiskSize.toInt
  other : index ≠ 0 → params.sourceImage = "" ∧ params.sizeGb = disk.params.sizeGb

theorem toInt_max (x y : Int64) : (max x y).toInt = max x.toInt y.toInt := by
  have le : x ≤ y ↔ x.toInt ≤ y.toInt := Int64.le_iff_toInt_le
  rw [Int.max_def, ← apply_ite Int64.toInt]
  simp only [← le]
  rfl

theorem exists_attaches (index : Nat) (disk : Disk) :
    ∃ params, b.Attaches config index disk (b.disk config disk index) params := by
  refine ⟨_, rfl, decide_eq_true_iff, rfl, fun first => ?_, fun other => ?_⟩
  · exact ⟨if_pos first, (congrArg Int64.toInt (if_pos first)).trans (toInt_max _ _)⟩
  · exact ⟨if_neg other, if_neg other⟩

theorem getElem?_disks (index : Nat) :
    (b.build config).disks[index]?
      = b.spec.disks[index]?.map fun disk => b.disk config disk index :=
  List.getElem?_mapIdx

theorem workerTag_mem_tags : workerTag b.cluster.nameText ∈ b.tags := by
  unfold tags
  simp only
  split <;> simp

end Blueprint

/-- Metadata that has been made has the cloud configuration in it. -/
theorem Provisions.get?_cloudConfigKey {S : SignatureSystem} {p : Provisions} {o : Occasion}
    {c : Cluster} {m : Machine} {project : String} {spec : MachineProviderSpec}
    {metadata : StringMap String} {σ : Type} {world : Program.World Call.Answer σ} {s : σ}
    (made : ((p.bootMetadata S o c m project spec).run.run world s).1 = some (.ok metadata)) :
    metadata.get? cloudConfigKey = some (p.cloudConfigFor c project) := by
  have result := Option.some.inj ((run_bootMetadata world s).symm.trans made)
  obtain ⟨_, -, result⟩ := bind_eq_ok_iff.mp result
  obtain ⟨setup, -, result⟩ := bind_eq_ok_iff.mp result
  obtain ⟨role, -, result⟩ := bind_eq_ok_iff.mp result
  rw [← Except.ok.inj result, StringMap.get?_insert, if_pos rfl]

namespace Blueprint

/-- **An instance agrees with what it is made from, and with its own metadata.** Its disks are those
of the provider spec, in order, the first as a boot disk. Its metadata is sorted by key, and has at
each key what the map has. If the map has been made for the cluster, with the same configuration,
the cloud configuration in it names the network that the instance is attached to, and a tag that the
instance has; and that is how it is read, line by line, if and only if no setting has a line break
in it. -/
theorem build_agrees (b : Blueprint) (config : Config) :
    let made := b.build config
    (made.disks.length = b.spec.disks.length ∧
      ∀ index disk, b.spec.disks[index]? = some disk →
        ∃ attached params, made.disks[index]? = some attached ∧
          b.Attaches config index disk attached params) ∧
    (∃ items, made.metadata = some ⟨items⟩ ∧ items.Pairwise (·.key < ·.key)) ∧
    (∀ key, made.metadataValue? key = b.metadata.get? key) ∧
    ∀ (S : SignatureSystem) (p : Provisions) (o : Occasion) (m : Machine) (project : String)
      (spec : MachineProviderSpec) (σ : Type) (world : Program.World Call.Answer σ) (s : σ),
      p.config = config →
      ((p.bootMetadata S o b.cluster m project spec).run.run world s).1 = some (.ok b.metadata) →
      let tag := workerTag b.cluster.nameText
      let settings := cloudSettings project config.network config.subnetwork tag
      made.metadataValue? cloudConfigKey = some (settingsText settings) ∧
        (∃ tags, made.tags = some tags ∧ tag ∈ tags.items) ∧
        (∃ interface, made.networkInterfaces = [interface] ∧
          interface.network = s!"global/networks/{config.network}") ∧
        (entries " = " (settingsText settings) = settings ↔
          ∀ entry ∈ settings, IsOneLine entry.2) := by
  intro made
  refine ⟨⟨List.length_mapIdx, fun index disk found => ?_⟩, ⟨_, rfl, ?_⟩,
    InstanceMetadata.find?_ofMap b.metadata, ?_⟩
  · obtain ⟨params, attaches⟩ := b.exists_attaches config index disk
    exact ⟨_, params, by rw [getElem?_disks, found, Option.map_some], attaches⟩
  · exact List.pairwise_map.mpr b.metadata.sorted
  · rintro S p o m project spec σ world s rfl metadata
    refine ⟨?_, ⟨_, rfl, b.workerTag_mem_tags⟩, ⟨_, rfl, rfl⟩,
      entries_settingsText_iff names_cloudSettings⟩
    calc made.metadataValue? cloudConfigKey
      _ = b.metadata.get? cloudConfigKey := InstanceMetadata.find?_ofMap b.metadata _
      _ = some (p.cloudConfigFor b.cluster project) := Provisions.get?_cloudConfigKey metadata
      _ = some (settingsText _) := congrArg some (cloudConfig_eq ..)

/-- An instance with two disks for a machine with all roles, in a cluster with a name. -/
theorem build_agrees_of_disks :
    let p := Provisions.ofAllRoles "image" "1.9.4"
    let c := { Cluster.reachable "project" ⟨"10.0.0.1", 443⟩ with metadata := { name := some "c" } }
    let m := Machine.allRoles "default" "master" "zone-a" "small" "1.9.4"
    let spec : MachineProviderSpec :=
      { roles := [.node, .master], zone := "zone-a", machineType := "small" }
    let disks : List Disk := [⟨10, "pd-ssd"⟩, ⟨10, "pd-standard"⟩]
    ∃ metadata, ((p.bootMetadata .transparent default c m "project" spec).run.run
        (fun call (s : Unit) => (call.welcome, s)) ()).1 = some (.ok metadata) ∧
      let made := (Blueprint.mk c m { spec with disks } "image" metadata).build p.config
      (∃ attached params, made.disks[0]? = some attached ∧ attached.boot = true ∧
        attached.params = some params ∧ params.sizeGb.toInt = 30 ∧ params.sourceImage = "image") ∧
      (∃ attached params, made.disks[1]? = some attached ∧ ¬ attached.boot = true ∧
        attached.params = some params ∧ params.sizeGb = 10 ∧ params.sourceImage = "") ∧
      ∃ text, made.metadataValue? cloudConfigKey = some text ∧
        (entries " = " text).lookup "node-tags" = some "c-worker" ∧
        ∃ tags, made.tags = some tags ∧ "c-worker" ∈ tags.items := by
  intro p c m spec disks
  have cluster : ClusterProviderSpec.ofCluster c = .ok { project := "project" } :=
    bind_eq_ok_iff.mpr ⟨_, ProviderSpec.decode_eq_ok_iff.mpr ⟨_, rfl, rfl⟩, rfl⟩
  obtain ⟨metadata, made⟩ := Provisions.made_ofAllRoles cluster "image" "default" "master"
    (show "zone-a" ≠ "" by decide) (show "small" ≠ "" by decide) (show "1.9.4" ≠ "" by decide)
    (by decide)
    (fun call (s : Unit) => (call.welcome, s)) default "project" ()
  have made := congrArg Prod.fst made
  let b : Blueprint := ⟨c, m, { spec with disks }, "image", metadata⟩
  obtain ⟨⟨-, each⟩, -, -, configured⟩ := build_agrees b p.config
  obtain ⟨boot, bootParams, bootFound, bootAttaches⟩ := each 0 ⟨10, "pd-ssd"⟩ rfl
  obtain ⟨data, dataParams, dataFound, dataAttaches⟩ := each 1 ⟨10, "pd-standard"⟩ rfl
  obtain ⟨found, tagged, -, reads⟩ :=
    configured .transparent p default m "project" spec Unit _ () rfl made
  have oneLine : ∀ entry ∈ cloudSettings "project" "default" "kubernetes" "c-worker",
      IsOneLine entry.2 := by decide
  refine ⟨metadata, made, ⟨boot, bootParams, bootFound, bootAttaches.boots.mpr rfl,
    bootAttaches.created, (bootAttaches.first rfl).2, (bootAttaches.first rfl).1⟩,
    ⟨data, dataParams, dataFound, dataAttaches.boots.not.mpr (by decide), dataAttaches.created,
      (dataAttaches.other (by decide)).2, (dataAttaches.other (by decide)).1⟩,
    _, found, congrArg (List.lookup "node-tags") (reads.mpr oneLine), tagged⟩

end Blueprint

end NodeProvisioner
