import NodeProvisioner.Proofs.Runs.Workers

/-!
# Removal

A pass over a machine that is to be removed deletes the instance where the machine asks for it now,
and nothing else. If the machine has been edited since its instance was made, this need not be where
the instance is; then the instance stays, though the pass ends well.

Main statement: `Provisions.removed_iff`.
-/

namespace NodeProvisioner

/-- What the machine asks for, whether it is valid or not. -/
def Machine.AsksFor (m : Machine) (spec : MachineProviderSpec) : Prop :=
  ∃ j, m.spec.providerSpec.value = some j ∧ Codec.machineProviderSpec.ofJson j = .ok spec

section

variable {fails : Prop} {S : SignatureSystem} {p : Provisions} {o : Occasion} {c : Cluster}
  {m : Machine} {site : Site} {s t : Scene} {outcome : Outcome}

/-- Deleting an instance leaves the others. -/
theorem Change.getInstance_deleted_iff {memory : Memory} {zone other name called : String} :
    ((deleted zone name).apply memory).getInstance other called = none ↔
      memory.getInstance other called = none ∨ Memory.key other called = Memory.key zone name := by
  rw [Memory.getInstance, apply, StringMap.get?_erase]
  split
  · rename_i same
    exact ⟨fun _ => .inr same, fun _ => rfl⟩
  · rename_i other
    exact ⟨.inl, fun h => h.resolve_right other⟩

/-- **Deleting well leaves no instance at the site of the machine, and all others.** -/
theorem Deletes.removes_own {changes : List Change} {memory : Memory}
    (h : Deletes fails c m memory changes (some outcome)) :
    ∃ spec, MachineProviderSpec.ofMachine m = .ok spec ∧ ∀ zone name,
      (changes.foldr Change.apply memory).getInstance zone name = none ↔
        memory.getInstance zone name = none ∨
          Memory.key zone name = Memory.key spec.zone m.metadata.nameOrStem := by
  cases h with
  | @absent spec asked absent =>
    refine ⟨spec, asked, fun zone name => ⟨.inl, ?_⟩⟩
    rintro (none | same)
    · exact none
    · rw [List.foldr_nil, Memory.getInstance, same]
      exact absent
  | deleted asked => exact ⟨_, asked, fun _ _ => Change.getInstance_deleted_iff⟩

/-- **What removing a machine removes.** Afterwards there is no instance where the machine asks for
it now; and there is none where its snapshot shows it if and only if there was none before, or it is
the same place. -/
theorem Provisions.removed_iff (ending : m.isTerminating = true)
    (h : (p.reconcile S o c m).Ends (Answers True m) s (some outcome) t) :
    ∃ spec, MachineProviderSpec.ofMachine m = .ok spec ∧
      t.memory.getInstance spec.zone m.metadata.nameOrStem = none ∧
      ∀ current old, m.snapshot? = .ok (some current) → current.AsksFor old →
        (t.memory.getInstance old.zone current.metadata.nameOrStem = none ↔
          s.memory.getInstance old.zone current.metadata.nameOrStem = none ∨
            Memory.key old.zone current.metadata.nameOrStem
              = Memory.key spec.zone m.metadata.nameOrStem) := by
  unfold reconcile at h
  rw [ending] at h
  obtain ⟨changes, lead, deletes⟩ := p.delete_ends h
  obtain ⟨spec, asked, left⟩ := deletes.removes_own
  rw [lead.memory]
  exact ⟨spec, asked, (left _ _).mpr (.inr rfl), fun _ _ _ _ => left _ _⟩

/-! ## Ends of a removal -/

theorem Site.find_truth (site : Site) : site.find.Ends (Answers fails m) s
    (some (s.memory.getInstance site.spec.zone site.name)) s :=
  Pass.ends_provider.mpr ⟨_, Program.ends_perform.mpr ⟨.ok _, ⟨rfl, .inl rfl⟩, rfl⟩, rfl⟩

/-- Where there is no instance, nothing is done. -/
theorem Provisions.reconcile_absent (ending : m.isTerminating = true)
    (sited : Site.of c m = .ok site)
    (absent : s.memory.getInstance site.spec.zone site.name = none) :
    (p.reconcile S o c m).Ends (Answers fails m) s (some .alreadyAbsent) s := by
  unfold reconcile
  rw [ending]
  refine Pass.ends_ofExcept_bind.mpr (.inl ⟨site, sited, ?_⟩)
  refine Pass.ends_bind.mpr (.inl ⟨_, s, site.find_truth, ?_⟩)
  rw [absent]
  exact Pass.ends_pure.mpr ⟨rfl, rfl⟩

/-- An instance that is there may be deleted at once. -/
theorem Provisions.reconcile_present (ending : m.isTerminating = true)
    (sited : Site.of c m = .ok site)
    (there : s.memory.getInstance site.spec.zone site.name ≠ none) :
    (p.reconcile S o c m).Ends (Answers fails m) s (some .deleted)
      (s.after (.deleted site.spec.zone site.name)) := by
  unfold reconcile
  rw [ending]
  refine Pass.ends_ofExcept_bind.mpr (.inl ⟨site, sited, ?_⟩)
  refine Pass.ends_bind.mpr (.inl ⟨_, s, site.find_truth, ?_⟩)
  obtain ⟨i, found⟩ := Option.ne_none_iff_exists'.mp there
  rw [found]
  obtain ⟨operation, done⟩ : ∃ operation : Operation, operation.HasSucceeded :=
    ⟨Memory.done "" "", rfl, rfl⟩
  refine Pass.ends_bind_pure.mpr ⟨some operation, ?_, rfl⟩
  refine Pass.ends_bind.mpr (.inl ⟨operation, s.after (.deleted site.spec.zone site.name), ?_, _,
    Operation.wait_succeeded done .., rfl⟩)
  exact Pass.ends_provider.mpr ⟨some (.ok operation), Program.ends_perform.mpr
    ⟨.ok operation, .inl ⟨there, rfl, .inl ⟨operation, rfl, done⟩⟩, rfl⟩, rfl⟩

end

/-! ## A worker that is removed -/

/-- The machine, to be removed. -/
def Machine.leaving (m : Machine) : Machine :=
  { m with metadata := { m.metadata with deletionTimestamp := some ⟨0, 0⟩ } }

/-- A scene with one instance, in a zone. -/
def Scene.hosting (zone name : String) : Scene :=
  ⟨{ instances := StringMap.empty.insert (Memory.key zone name) default }, [], false⟩

theorem Scene.getInstance_hosting (zone name other : String) :
    (hosting zone name).memory.getInstance other name
      = if other = zone then some default else none := by
  rw [Memory.getInstance, hosting, StringMap.get?_insert]
  simp only [Memory.key_inj]
  rfl

/-- The site of a worker that is to be removed. -/
theorem Site.exists_of_leaving (observed : Machine) {zone : String} (given : zone ≠ "") :
    ∃ site, Site.of (.reachable "project" ⟨"10.0.0.1", 443⟩) ((Machine.worker "default" "worker"
        zone "small" "1.9.4").withSnapshot observed).leaving = .ok site ∧
      site.spec.zone = zone ∧ site.name = "worker" := by
  have asked : MachineProviderSpec.ofMachine ((Machine.worker "default" "worker" zone "small"
      "1.9.4").withSnapshot observed).leaving
      = .ok { roles := [.node], zone, machineType := "small" } :=
    Machine.ofMachine_worker "default" "worker" zone "small" "1.9.4" given (by decide)
  obtain ⟨site, sited⟩ := Site.exists_of
    (ClusterProviderSpec.ofCluster_reachable (show "project" ≠ "" by decide) ⟨"10.0.0.1", 443⟩)
    asked
  obtain ⟨asked', called⟩ := Site.ofMachine_of_ok sited
  have own := Except.ok.inj (asked'.symm.trans asked)
  exact ⟨site, sited, congrArg MachineProviderSpec.zone own, called⟩

/-- The instance of a worker is removed. -/
theorem Provisions.removed_of_worker :
    let small := Machine.worker "default" "worker" "zone-a" "small" "1.9.4"
    let m := (small.withSnapshot small).leaving
    ∃ t spec, ((ofWorkers "image" "1.9.4").reconcile .elliptic default
          (.reachable "project" ⟨"10.0.0.1", 443⟩) m).Ends (Answers True m)
        (.hosting "zone-a" "worker") (some .deleted) t ∧
      MachineProviderSpec.ofMachine m = .ok spec ∧
      t.memory.getInstance spec.zone m.metadata.nameOrStem = none := by
  intro small m
  obtain ⟨site, sited, zone, name⟩ := Site.exists_of_leaving small (show "zone-a" ≠ "" by decide)
  have there : (Scene.hosting "zone-a" "worker").memory.getInstance site.spec.zone site.name
      ≠ none := by
    rw [zone, name, Scene.getInstance_hosting, if_pos rfl]
    exact Option.some_ne_none _
  have ends : ((ofWorkers "image" "1.9.4").reconcile .elliptic default
      (.reachable "project" ⟨"10.0.0.1", 443⟩) m).Ends (Answers True m)
      (.hosting "zone-a" "worker") (some .deleted) _ := reconcile_present rfl sited there
  obtain ⟨spec, asked, gone, _⟩ := removed_iff rfl ends
  exact ⟨_, spec, ends, asked, gone⟩

/-- A worker is moved to another zone and removed before its instance has been made anew: the pass
finds nothing to delete, and the instance stays where the snapshot shows it. No call fails. -/
theorem Provisions.left_by_worker :
    let small := Machine.worker "default" "worker" "zone-a" "small" "1.9.4"
    let moved := Machine.worker "default" "worker" "zone-b" "small" "1.9.4"
    let m := (moved.withSnapshot small).leaving
    let s := Scene.hosting "zone-a" "worker"
    ((ofWorkers "image" "1.9.4").reconcile .elliptic default
        (.reachable "project" ⟨"10.0.0.1", 443⟩) m).Ends (Answers False m) s
        (some .alreadyAbsent) s ∧
      ∃ current old, m.snapshot? = .ok (some current) ∧ current.AsksFor old ∧
        s.memory.getInstance old.zone current.metadata.nameOrStem ≠ none := by
  intro small moved m s
  obtain ⟨site, sited, zone, name⟩ := Site.exists_of_leaving small (show "zone-b" ≠ "" by decide)
  have absent : s.memory.getInstance site.spec.zone site.name = none := by
    rw [zone, name, Scene.getInstance_hosting]
    exact if_neg (by decide)
  refine ⟨reconcile_absent rfl sited absent, small.blanked,
    { roles := [.node], zone := "zone-a", machineType := "small" },
    Machine.snapshot?_of_plain (Machine.annotation?_withSnapshot moved small)
      (Machine.isPlain_worker ..), ⟨_, rfl, rfl⟩, ?_⟩
  have there := Scene.getInstance_hosting "zone-a" "worker" "zone-a"
  rw [if_pos rfl] at there
  exact there ▸ Option.some_ne_none _

end NodeProvisioner
