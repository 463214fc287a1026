import NodeProvisioner.Proofs.Calls.Passes

/-!
# Teardown

Before an instance is deleted to be made anew it is checked that a setup fits the machine, so that
it stays where it cannot be made anew. The check does not look at all that an instance is made of:
a worker needs an endpoint to join, and a machine that runs the control plane needs a version and a
certificate. Where one of these is lacking, the old instance may be deleted all the same.

Main statement: `Provisions.sparesInstances_iff`.
-/

namespace NodeProvisioner

open Program (logging Rules)

/-! ## Errors of the inputs -/

section

variable {S : SignatureSystem} {p : Provisions} {o : Occasion} {c : Cluster}
  {m current : Machine} {site : Site} {past log : List Event} {e : BootstrapError}
  {r : Option (Except Error Outcome)}

theorem Records.not_bootstrap (h : Records m past log (.error (.bootstrap e)))
    (raises : Raises log (.bootstrap e)) : False := by
  cases h.gone_of_raises raises

theorem Deletion.not_bootstrap (h : Deletion c m past log (some (.error (.bootstrap e)))) :
    False := by
  cases h with
  | refused refused => cases Site.of_refuses refused
  | unseen _ _ stops => exact stops.not_bootstrap
  | stopped _ _ stops => exact stops.not_bootstrap

/-- Making sure of an instance fails for want of what it is made of, if the issuer has not failed
in the same way. -/
theorem Provisions.Ensures.lacks_inputs
    (h : p.Ensures S o c m site past log (some (.error (.bootstrap e))))
    (raises : Raises log (.bootstrap e)) : p.checkInputs S o c m site.spec = .error e := by
  cases h with
  | unseen _ stops => exact stops.not_bootstrap.elim
  | unmade drafts =>
    cases drafts with
    | lacking _ lacks => exact lacks
    | tokenless => exact absurd (.token e) (raises _ List.mem_cons_self)
  | stopped _ _ stops => exact stops.not_bootstrap.elim

theorem Provisions.Creation.lacks_inputs
    (h : p.Creation S o c m past log (some (.error (.bootstrap e))))
    (raises : Raises log (.bootstrap e)) :
    ∃ site, Site.of c m = .ok site ∧ p.checkInputs S o c m site.spec = .error e := by
  generalize eq : some (Except.error (Error.bootstrap e)) = r at h
  cases h with
  | refused refused =>
    cases eq
    cases Site.of_refuses refused
  | failed sited ensures =>
    cases eq
    exact ⟨_, sited, ensures.lacks_inputs raises⟩
  | @recorded _ _ _ _ answer _ _ records =>
    cases answer <;> cases eq
    exact (records.not_bootstrap raises).elim

/-- Nothing is deleted if whatever passes the check can be made. -/
theorem Provisions.Replacement.untouched
    (h : p.Replacement S o c current m past log (some (.error (.bootstrap e))))
    (raises : Raises log (.bootstrap e))
    (complete : ∀ spec, p.Replaces c current m spec → p.checkSupplies S o c m spec = .ok ()) :
    log = past := by
  generalize eq : some (Except.error (Error.bootstrap e)) = r at h
  cases h with
  | unchanged => rfl
  | refused => rfl
  | kept _ _ deletion =>
    cases eq
    exact deletion.not_bootstrap.elim
  | @replaced _ _ _ r other may _ creation =>
    obtain _ | _ | _ := r <;> cases eq
    obtain ⟨site, sited, lacks⟩ := creation.lacks_inputs raises
    obtain ⟨k, cluster, _⟩ := bind_eq_ok_iff.mp sited
    obtain ⟨asked, _⟩ := Site.ofMachine_of_ok sited
    obtain ⟨_, spec, asked', setup, fits⟩ := checkReplaceable_eq_ok_iff.mp may
    cases asked.symm.trans asked'
    rw [checkInputs_of_fits fits, complete _ ⟨other, ⟨k, cluster⟩, asked, setup, fits⟩] at lacks
    cases lacks

end

/-! ## Teardown -/

namespace Provisions

variable {S : SignatureSystem} {p : Provisions} {o : Occasion} {c : Cluster} {m current : Machine}
  {task : Task} {old spec : MachineProviderSpec}

/-- Whenever the pass fails for something that the inputs alone determine, nothing has been deleted,
and what only deletions put an end to has lasted. -/
def SparesInstances (S : SignatureSystem) (p : Provisions) (o : Occasion) (c : Cluster)
    (m : Machine) (task : Task) : Prop :=
  ∀ (σ : Type) (rules : Rules Call.Answer σ) (Lasting : σ → Prop),
    (∀ c s answer t, c.deletes = false → rules c s answer t → Lasting s → Lasting t) →
    ∀ (s t : σ) (log : List Event) (e : BootstrapError),
      (p.carryOut S o c m task).run.Ends rules.logged (s, []) (some (.error (.bootstrap e)))
        (t, log) →
      Raises log (.bootstrap e) → Lacks Call.deletes log ∧ (Lasting s → Lasting t)

/-- **An instance may be deleted and not be made anew**, where what passes the check lacks
something. -/
theorem may_tear_down (updates : task.Updates m) (shown : m.snapshot? = .ok (some current))
    (asked : MachineProviderSpec.ofMachine current = .ok old) (worker : old.isMaster = false)
    (replaces : p.Replaces c current m spec) {e : BootstrapError}
    (lacks : p.checkSupplies S o c m spec = .error e) :
    ∃ log, (p.carryOut S o c m task).run.Ends logging [] (some (.error (.bootstrap e))) log ∧
      Raises log (.bootstrap e) ∧ ∃ event ∈ log, event.1.deletes = true := by
  obtain ⟨operation, done⟩ : ∃ operation : Operation, operation.HasSucceeded :=
    ⟨Memory.done "" "", rfl, rfl⟩
  obtain ⟨site, site', sited, rfl, goesOn⟩ :=
    carryOut_of_create (S := S) (o := o) updates shown asked worker replaces done default
  rw [← replaces.checkInputs] at lacks
  obtain ⟨log, drawn, created⟩ := exists_create_lacking sited lacks
    [site.deleted (.ok operation), site.looked (.ok (some default))]
  have look (site : Site) (answer) : ¬ (site.looked answer).Hands (.bootstrap e) :=
    fun handed => nomatch handed.kind.1
  have remove (site : Site) (answer) : ¬ (site.deleted answer).Hands (.bootstrap e) :=
    fun handed => absurd handed.kind.2 Bool.noConfusion
  have raises : Raises [site'.looked (.ok none), site.deleted (.ok operation),
      site.looked (.ok (some default))] (.bootstrap e) :=
    (((Raises.nil _).cons (look _ _)).cons (remove _ _)).cons (look _ _)
  refine ⟨log, goesOn _ _ created, ?_, site.deleted (.ok operation), ?_, rfl⟩
  · obtain rfl | ⟨token, rfl⟩ := drawn
    · exact raises
    · exact raises.cons nofun
  · obtain rfl | ⟨token, rfl⟩ := drawn <;> simp

/-- **An instance is spared if and only if all that is lacking shows before it is deleted**: if
whatever passes the check has its versions, an endpoint to join and a certificate, as far as it
needs them. -/
theorem sparesInstances_iff (updates : task.Updates m) (shown : m.snapshot? = .ok (some current))
    (asked : MachineProviderSpec.ofMachine current = .ok old) (worker : old.isMaster = false) :
    SparesInstances S p o c m task ↔
      ∀ spec, p.Replaces c current m spec → p.checkSupplies S o c m spec = .ok () := by
  constructor
  · intro spares spec replaces
    cases lacks : p.checkSupplies S o c m spec with
    | ok _ => rfl
    | error e =>
      obtain ⟨log, ends, raises, event, mem, deletes⟩ :=
        may_tear_down updates shown asked worker replaces lacks
      -- whatever the world is like in which the calls are answered in this way
      have ends' : (p.carryOut S o c m task).run.Ends
          (Rules.logged fun _ (_ : Unit) _ _ => True) ((), []) (some (.error (.bootstrap e)))
          ((), log) :=
        ends.map (fun log => ((), log)) fun _ _ _ _ rule => ⟨trivial, rule⟩
      obtain ⟨never, _⟩ := spares Unit _ (fun _ => True) (fun _ _ _ _ _ _ h => h) () () log e ends'
        raises
      rw [never event mem] at deletes
      cases deletes
  · intro complete σ rules Lasting lasts s t log e ends raises
    have course := carryOut_logs ends.log
    rw [Task.move_of_updates updates shown] at course
    obtain rfl : log = [] := Replacement.untouched course raises complete
    refine ⟨.nil, fun now => ?_⟩
    exact ends.lasts (fun c s answer t other => lasts c s answer t (Bool.eq_false_iff.mpr other))
      (List.forall_mem_nil _) now

/-- A worker that can be made anew: its instance is spared. -/
theorem sparesInstances_of_worker :
    SparesInstances .elliptic (.ofWorkers "image" "1.9.4") default
      (.reachable "project" ⟨"10.0.0.1", 443⟩) .growing .update := by
  have updates : Task.update.Updates .growing := trivial
  refine (sparesInstances_iff updates Machine.snapshot?_growing Machine.ofMachine_grown rfl).mpr
    fun spec replaces => ?_
  have cluster := ClusterProviderSpec.ofCluster_reachable (show "project" ≠ "" by decide)
    ⟨"10.0.0.1", 443⟩
  cases replaces.asked.symm.trans (Machine.replaces_growing "image" cluster).asked
  exact Machine.checkSupplies_growing ..

/-- The cluster of a worker has no endpoint to join: its instance is deleted, and then cannot be
made anew. -/
theorem torn_down_worker :
    let c : Cluster := { Cluster.reachable "project" ⟨"10.0.0.1", 443⟩ with status := none }
    let e := BootstrapError.missingEndpoint c.identity
    ∃ log, ((ofWorkers "image" "1.9.4").carryOut .elliptic default c .growing .update).run.Ends
        logging [] (some (.error (.bootstrap e))) log ∧
      Raises log (.bootstrap e) ∧ ∃ event ∈ log, event.1.deletes = true := by
  intro c e
  have updates : Task.update.Updates .growing := trivial
  have cluster : ClusterProviderSpec.ofCluster c = .ok _ :=
    ClusterProviderSpec.ofCluster_reachable (show "project" ≠ "" by decide) ⟨"10.0.0.1", 443⟩
  exact may_tear_down updates Machine.snapshot?_growing Machine.ofMachine_grown rfl
    (Machine.replaces_growing "image" cluster) (Machine.checkSupplies_growing ..)

end Provisions

end NodeProvisioner
