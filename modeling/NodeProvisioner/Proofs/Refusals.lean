import NodeProvisioner.Proofs.Calls.Passes

/-!
# Refusals

A pass that refuses what it is asked for has done nothing yet: it has at most looked for an
instance. Where an instance is to be made anew, all that is read of the machine, of its snapshot and
of the cluster has been found in order before the old instance is deleted; afterwards it is read
again, with the same result.

Main statement: `Provisions.carryOut_refusal`.
-/

namespace NodeProvisioner

variable {S : SignatureSystem} {p : Provisions} {o : Occasion} {c : Cluster}
  {m current : Machine} {site : Site} {past log : List Event} {e : Error}
  {r : Option (Except Error Outcome)}

theorem Records.not_refusal (h : Records m past log (.error e)) (raises : Raises log e) :
    ¬ e.IsRefusal := by
  rw [h.gone_of_raises raises]
  rintro ⟨⟩

theorem Provisions.Ensures.not_refusal (h : p.Ensures S o c m site past log (some (.error e))) :
    ¬ e.IsRefusal := by
  cases h with
  | unseen _ stops => exact stops.not_refusal
  | unmade drafts => cases drafts <;> rintro ⟨⟩
  | stopped _ _ stops => exact stops.not_refusal

/-- Creating refuses only a site that cannot be told, and that at once. -/
theorem Provisions.Creation.refuses (h : p.Creation S o c m past log (some (.error e)))
    (refusal : e.IsRefusal) (raises : Raises log e) : Site.of c m = .error e ∧ log = past := by
  generalize eq : some (Except.error e) = r at h
  cases h with
  | refused refused =>
    cases eq
    exact ⟨refused, rfl⟩
  | failed _ ensures =>
    cases eq
    exact absurd refusal ensures.not_refusal
  | @recorded _ _ _ _ answer _ _ records =>
    cases answer <;> cases eq
    exact absurd refusal (records.not_refusal raises)

/-- Deleting refuses only a site that cannot be told, and that at once. -/
theorem Deletion.refuses (h : Deletion c m past log (some (.error e))) (refusal : e.IsRefusal) :
    Site.of c m = .error e ∧ log = past := by
  cases h with
  | refused refused => exact ⟨refused, rfl⟩
  | unseen _ _ stops => exact absurd refusal stops.not_refusal
  | stopped _ _ stops => exact absurd refusal stops.not_refusal

/-- Deleting stops at once if the site cannot be told. -/
theorem Deletion.sited (h : Deletion c m past log r) :
    (∃ site, Site.of c m = .ok site) ∨ log = past ∧ ∃ e, r = some (.error e) := by
  cases h with
  | refused => exact .inr ⟨rfl, _, rfl⟩
  | unseen sited => exact .inl ⟨_, sited⟩
  | absent sited => exact .inl ⟨_, sited⟩
  | stopped sited => exact .inl ⟨_, sited⟩
  | deleted sited => exact .inl ⟨_, sited⟩

theorem Adoption.looks (h : Adoption c m [] log (some (.error e))) (refusal : e.IsRefusal)
    (raises : Raises log e) : ∀ event ∈ log, event.1.looks = true := by
  have looked (site : Site) (answer) : ∀ event ∈ [site.looked answer], event.1.looks = true :=
    List.forall_mem_singleton.mpr rfl
  generalize eq : some (Except.error e) = r at h
  cases h with
  | refused => exact List.forall_mem_nil _
  | unseen => exact looked _ _
  | absent => exact looked _ _
  | @recorded _ _ _ answer _ records =>
    cases answer <;> cases eq
    exact absurd refusal (records.not_refusal raises)

/-! ## Making an instance anew -/

/-- What is read of the cluster, of the snapshot and of the machine itself before an instance is
made anew is in order, and the snapshot shows a worker. -/
structure Sound (c : Cluster) (current m : Machine) : Prop where
  worker : ∃ site, Site.of c current = .ok site ∧ site.spec.isMaster = false
  sited : ∃ site, Site.of c m = .ok site

/-- **Once the old instance is dealt with, all is in order**: what is read of the machine afterwards
has been read before. -/
theorem Sound.of_checkReplaceable (may : p.checkReplaceable current m = .ok ())
    (sited : Site.of c current = .ok site) : Sound c current m := by
  obtain ⟨⟨old, asked, worker⟩, spec, asked', _⟩ := Provisions.checkReplaceable_eq_ok_iff.mp may
  obtain ⟨k, cluster, _⟩ := bind_eq_ok_iff.mp sited
  refine ⟨⟨site, sited, ?_⟩, Site.exists_of cluster asked'⟩
  obtain rfl := Except.ok.inj ((Site.ofMachine_of_ok sited).1.symm.trans asked)
  exact worker

theorem Provisions.Replacement.sound (h : p.Replacement S o c current m past log r)
    (other : current.differs m = true) :
    Sound c current m ∨ log = past ∧ ∃ e, r = some (.error e) := by
  cases h with
  | unchanged same =>
    rw [same] at other
    cases other
  | refused => exact .inr ⟨rfl, _, rfl⟩
  | kept _ may deletion =>
    exact deletion.sited.imp_left fun ⟨_, sited⟩ => .of_checkReplaceable may sited
  | replaced _ may deletion =>
    obtain ⟨site, sited⟩ | ⟨_, _, ⟨⟩⟩ := deletion.sited
    exact .inl (.of_checkReplaceable may sited)

theorem Provisions.Replacement.refuses
    (h : p.Replacement S o c current m past log (some (.error e))) (refusal : e.IsRefusal)
    (raises : Raises log e) : log = past := by
  have whole := h
  generalize eq : some (Except.error e) = r at h
  cases h with
  | unchanged => rfl
  | refused => rfl
  | kept _ _ deletion =>
    cases eq
    exact (deletion.refuses refusal).2
  | @replaced _ _ _ r other _ _ creation =>
    obtain _ | _ | _ := r <;> cases eq
    obtain ⟨failed, same⟩ := creation.refuses refusal raises
    obtain ⟨_, _, sited⟩ | ⟨same, _⟩ := whole.sound other
    · rw [failed] at sited
      cases sited
    · exact same

/-- **A pass that refuses has only looked**, unless the refusal has been handed to it. And where an
instance is to be made anew, what is not in order stops the pass before its first call. -/
theorem Provisions.carryOut_refusal {task : Task}
    (h : (p.carryOut S o c m task).run.Ends Program.logging [] r log) :
    (∀ e, r = some (.error e) → e.IsRefusal → Raises log e →
      ∀ event ∈ log, event.1.looks = true) ∧
    ∀ current, task.Updates m → m.snapshot? = .ok (some current) → current.differs m = true →
      ¬ Sound c current m → log = [] ∧ ∃ e, r = some (.error e) := by
  have course := carryOut_logs h
  constructor
  · rintro e rfl refusal raises
    have nothing (same : log = []) : ∀ event ∈ log, event.1.looks = true :=
      same ▸ List.forall_mem_nil _
    generalize task.move m = move at course
    cases move with
    | refuse e => exact nothing course.1
    | create => exact nothing (Creation.refuses course refusal raises).2
    | delete => exact nothing (Deletion.refuses course refusal).2
    | adopt => exact Adoption.looks course refusal raises
    | replace current => exact nothing (Replacement.refuses course refusal raises)
  · intro current updates shown other unsound
    rw [Task.move_of_updates updates shown] at course
    exact (Replacement.sound course other).resolve_left unsound

/-- Where no instance is found, there is nothing to take the first snapshot of. -/
theorem Provisions.adopt_absent (sited : Site.of c m = .ok site) :
    (adopt c m).run.Ends Program.logging past (some (.error (.validation
      s!"cannot retrieve current state to update machine {m.identity}")))
      (site.looked (.ok none) :: past) := by
  refine Program.ends_exceptBind.mpr (.inl ⟨false, _, ?_, rfl, rfl⟩)
  refine Pass.ends_run_ofExcept_bind.mpr (.inl ⟨site, sited, ?_⟩)
  exact Program.ends_exceptBind.mpr (.inl ⟨none, _, Site.find_answered none, rfl, rfl⟩)

/-- A worker without an instance cannot be updated; its instance has been looked for. -/
theorem Provisions.carryOut_refusal_of_worker :
    let p : Provisions := .ofWorkers "image" "1.9.4"
    let c : Cluster := .reachable "project" ⟨"10.0.0.1", 443⟩
    let m := Machine.worker "default" "worker" "zone-a" "small" "1.9.4"
    let e : Error := .validation
      s!"cannot retrieve current state to update machine {m.identity}"
    ∃ log, (p.carryOut .elliptic default c m .update).run.Ends Program.logging []
        (some (.error e)) log ∧ Raises log e ∧ log ≠ [] ∧
      ∀ event ∈ log, event.1.looks = true := by
  intro p c m e
  obtain ⟨site, sited⟩ := Site.exists_of
    (ClusterProviderSpec.ofCluster_reachable (show "project" ≠ "" by decide) ⟨"10.0.0.1", 443⟩)
    (Machine.ofMachine_worker "default" "worker" "zone-a" "small" "1.9.4" (by decide) (by decide))
  have ends : (p.carryOut .elliptic default c m .update).run.Ends Program.logging []
      (some (.error e)) [site.looked (.ok none)] := by
    rw [carryOut_eq_make]
    exact adopt_absent sited
  have raises : Raises [site.looked (.ok none)] e :=
    (Raises.nil e).cons fun handed => nomatch handed.kind.1
  exact ⟨_, ends, raises, List.cons_ne_nil _ _,
    (carryOut_refusal ends).1 e rfl (.invalid _) raises⟩

end NodeProvisioner
