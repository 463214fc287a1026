import NodeProvisioner.Proofs.Calls.Drafts
import NodeProvisioner.Proofs.Runs.Workers

/-!
# Calls of a pass

How each pass is logged and what it ends in, whatever its calls are answered with. A relation goes
with each part of a pass. It has one constructor for each way that the part may take, with the log
that this way leaves and with what the part ends in then.

Main statement: `Provisions.carryOut_logs`.
-/

namespace NodeProvisioner

open Program (logging)

/-! ## Refusals -/

section

variable {c : Cluster} {m : Machine} {e : Error}

theorem ProviderSpec.decode_refuses {α : Type} {spec : ProviderSpec} {codec : Codec α}
    {owner : String} (h : spec.decode codec owner = .error e) : e.IsRefusal := by
  unfold decode at h
  cases given : spec.value with
  | none =>
    rw [given] at h
    cases h
    exact .invalid _
  | some value =>
    simp only [given] at h
    cases read : codec.ofJson value with
    | error fault =>
      rw [read] at h
      cases h
      exact .invalid _
    | ok a =>
      rw [read] at h
      cases h

theorem MachineProviderSpec.validate_refuses {spec : MachineProviderSpec} {identity : String}
    (h : spec.validate identity = .error e) : e.IsRefusal := by
  unfold validate at h
  repeat' split at h
  all_goals cases h
  all_goals exact .invalid _

/-- A spec that is not valid is refused. -/
theorem MachineProviderSpec.ofMachine_refuses (h : ofMachine m = .error e) : e.IsRefusal := by
  obtain read | ⟨spec, _, rest⟩ := bind_eq_error_iff.mp h
  · exact ProviderSpec.decode_refuses read
  · obtain checked | ⟨_, _, ⟨⟩⟩ := bind_eq_error_iff.mp rest
    exact validate_refuses checked

theorem ClusterProviderSpec.ofCluster_refuses (h : ofCluster c = .error e) : e.IsRefusal := by
  obtain read | ⟨spec, _, rest⟩ := bind_eq_error_iff.mp h
  · exact ProviderSpec.decode_refuses read
  · split at rest <;> cases rest
    exact .invalid _

/-- A site that cannot be told is refused. -/
theorem Site.of_refuses (h : Site.of c m = .error e) : e.IsRefusal := by
  obtain cluster | ⟨k, _, rest⟩ := bind_eq_error_iff.mp h
  · exact ClusterProviderSpec.ofCluster_refuses cluster
  · obtain asked | ⟨_, _, ⟨⟩⟩ := bind_eq_error_iff.mp rest
    exact MachineProviderSpec.ofMachine_refuses asked

/-- **What may be made anew is in order**: its snapshot shows a worker, and a setup fits what it
asks for. -/
theorem Provisions.checkReplaceable_eq_ok_iff {p : Provisions} {current : Machine} :
    p.checkReplaceable current m = .ok () ↔
      (∃ old, MachineProviderSpec.ofMachine current = .ok old ∧ old.isMaster = false) ∧
        ∃ spec, MachineProviderSpec.ofMachine m = .ok spec ∧
          ∃ setup, p.setupFor m spec = .ok setup := by
  constructor
  · intro may
    obtain ⟨old, asked, rest⟩ := bind_eq_ok_iff.mp may
    split at rest
    · cases rest
    · rename_i worker
      obtain ⟨spec, asked', more⟩ := bind_eq_ok_iff.mp rest
      obtain ⟨setup, fits, _⟩ := bind_eq_ok_iff.mp more
      exact ⟨⟨old, asked, Bool.eq_false_iff.mpr worker⟩, spec, asked', setup,
        mapError_eq_ok_iff.mp fits⟩
  · rintro ⟨⟨old, asked, worker⟩, spec, asked', setup, fits⟩
    simp only [checkReplaceable, asked, worker, asked', fits, bind, Except.bind]
    rfl

/-- The check before the old instance is deleted finds nothing amiss with the machine, which asks
for this now. -/
structure Provisions.Replaces (p : Provisions) (c : Cluster) (current m : Machine)
    (spec : MachineProviderSpec) : Prop where
  other : current.differs m = true
  cluster : ∃ k, ClusterProviderSpec.ofCluster c = .ok k
  asked : MachineProviderSpec.ofMachine m = .ok spec
  fits : ∃ setup, p.setupFor m spec = .ok setup

theorem Provisions.Replaces.checkInputs {S : SignatureSystem} {p : Provisions} {o : Occasion}
    {current : Machine} {spec : MachineProviderSpec} (h : p.Replaces c current m spec) :
    p.checkInputs S o c m spec = p.checkSupplies S o c m spec := by
  obtain ⟨setup, fits⟩ := h.fits
  exact checkInputs_of_fits fits

end

/-! ## Parts -/

/-- How making sure that there is an instance is logged, and what it ends in. -/
inductive Provisions.Ensures (S : SignatureSystem) (p : Provisions) (o : Occasion) (c : Cluster)
    (m : Machine) (site : Site) (past : List Event) :
    List Event → Option (Except Error Outcome) → Prop
  | unseen (e : ComputeError) {r : Option (Except Error Outcome)} (stops : Stops r) :
    Ensures S p o c m site past (site.looked (.error e) :: past) r
  | found (i : Instance) : Ensures S p o c m site past (site.looked (.ok (some i)) :: past)
      (some (.ok .alreadyExists))
  | unmade {log : List Event} {e : Error}
    (drafts : p.Drafts S o c m site (site.looked (.ok none) :: past) log (some (.error e))) :
    Ensures S p o c m site past log (some (.error e))
  | stopped {b : Blueprint} {drawn log : List Event} {answer : Except ComputeError Operation}
    {r : Option (Except Error Outcome)}
    (drafts : p.Drafts S o c m site (site.looked (.ok none) :: past) drawn (some (.ok b)))
    (waited : Waited (site.inserted (b.build p.config) answer :: drawn) log) (stops : Stops r) :
    Ensures S p o c m site past log r
  | inserted {b : Blueprint} {drawn log : List Event} {operation : Operation}
    (drafts : p.Drafts S o c m site (site.looked (.ok none) :: past) drawn (some (.ok b)))
    (finishes : operation.Finishes site.project site.spec.zone
      (site.inserted (b.build p.config) (.ok operation) :: drawn) log) :
    Ensures S p o c m site past log (some (.ok .created))

/-- How creating the instance of a machine is logged, and what it ends in. -/
inductive Provisions.Creation (S : SignatureSystem) (p : Provisions) (o : Occasion) (c : Cluster)
    (m : Machine) (past : List Event) : List Event → Option (Except Error Outcome) → Prop
  | refused {e : Error} (refused : Site.of c m = .error e) :
    Creation S p o c m past past (some (.error e))
  | failed {site : Site} {log : List Event} {r : Option (Except Error Outcome)}
    (sited : Site.of c m = .ok site) (ensures : p.Ensures S o c m site past log r)
    (fails : ∀ outcome, r ≠ some (.ok outcome)) : Creation S p o c m past log r
  | recorded {site : Site} {outcome : Outcome} {between log : List Event}
    {answer : Except Error Machine} (sited : Site.of c m = .ok site)
    (ensures : p.Ensures S o c m site past between (some (.ok outcome)))
    (records : Records m between log answer) :
    Creation S p o c m past log (some (answer.map fun _ => outcome))

/-- How deleting the instance of a machine is logged, and what it ends in. -/
inductive Deletion (c : Cluster) (m : Machine) (past : List Event) :
    List Event → Option (Except Error Outcome) → Prop
  | refused {e : Error} (refused : Site.of c m = .error e) :
    Deletion c m past past (some (.error e))
  | unseen {site : Site} {r : Option (Except Error Outcome)} (sited : Site.of c m = .ok site)
    (e : ComputeError) (stops : Stops r) : Deletion c m past (site.looked (.error e) :: past) r
  | absent {site : Site} (sited : Site.of c m = .ok site) :
    Deletion c m past (site.looked (.ok none) :: past) (some (.ok .alreadyAbsent))
  | stopped {site : Site} {i : Instance} {answer : Except ComputeError Operation}
    {log : List Event} {r : Option (Except Error Outcome)} (sited : Site.of c m = .ok site)
    (waited : Waited (site.deleted answer :: site.looked (.ok (some i)) :: past) log)
    (stops : Stops r) : Deletion c m past log r
  | deleted {site : Site} {i : Instance} {operation : Operation} {log : List Event}
    (sited : Site.of c m = .ok site)
    (finishes : operation.Finishes site.project site.spec.zone
      (site.deleted (.ok operation) :: site.looked (.ok (some i)) :: past) log) :
    Deletion c m past log (some (.ok .deleted))

/-- How taking the first snapshot of a machine is logged, and what it ends in. -/
inductive Adoption (c : Cluster) (m : Machine) (past : List Event) :
    List Event → Option (Except Error Outcome) → Prop
  | refused {e : Error} (refused : Site.of c m = .error e) :
    Adoption c m past past (some (.error e))
  | unseen {site : Site} {r : Option (Except Error Outcome)} (sited : Site.of c m = .ok site)
    (e : ComputeError) (stops : Stops r) : Adoption c m past (site.looked (.error e) :: past) r
  | absent {site : Site} (sited : Site.of c m = .ok site) (message : String) :
    Adoption c m past (site.looked (.ok none) :: past) (some (.error (.validation message)))
  | recorded {site : Site} {i : Instance} {log : List Event} {answer : Except Error Machine}
    (sited : Site.of c m = .ok site)
    (records : Records m (site.looked (.ok (some i)) :: past) log answer) :
    Adoption c m past log (some (answer.map fun _ => .statusRecorded))

/-- How making the instance of a machine anew is logged, and what it ends in. -/
inductive Provisions.Replacement (S : SignatureSystem) (p : Provisions) (o : Occasion)
    (c : Cluster) (current goal : Machine) (past : List Event) :
    List Event → Option (Except Error Outcome) → Prop
  | unchanged (same : current.differs goal = false) :
    Replacement S p o c current goal past past (some (.ok .unchanged))
  | refused {e : Error} (other : current.differs goal = true)
    (refused : p.checkReplaceable current goal = .error e) :
    Replacement S p o c current goal past past (some (.error e))
  /-- The old instance has not been deleted for certain. -/
  | kept {log : List Event} {r : Option (Except Error Outcome)}
    (other : current.differs goal = true) (may : p.checkReplaceable current goal = .ok ())
    (deletion : Deletion c current past log r) (fails : ∀ outcome, r ≠ some (.ok outcome)) :
    Replacement S p o c current goal past log r
  /-- The old instance is gone. -/
  | replaced {outcome : Outcome} {between log : List Event} {r : Option (Except Error Outcome)}
    (other : current.differs goal = true) (may : p.checkReplaceable current goal = .ok ())
    (deletion : Deletion c current past between (some (.ok outcome)))
    (creation : p.Creation S o c goal between log r) :
    Replacement S p o c current goal past log (r.map (Except.map fun _ => .recreated))

section

variable {S : SignatureSystem} {p : Provisions} {o : Occasion} {c : Cluster} {m : Machine}
  {site : Site} {past log : List Event} {r : Option (Except Error Outcome)}

theorem Provisions.ensure_logs (h : (p.ensure S o c m site).run.Ends logging past r log) :
    p.Ensures S o c m site past log r := by
  obtain ⟨_ | i, rest⟩ | ⟨e, rfl, stops⟩ := Site.find_bind_logs h
  · obtain ⟨b, drawn, first, more⟩ | ⟨e, rfl, first⟩ | ⟨rfl, first⟩ :=
      Program.ends_exceptBind.mp rest <;> have drafts := p.blueprint_logs first
    · obtain ⟨r', put, rfl⟩ := Pass.ends_run_bind_pure.mp more
      obtain ⟨answer, waited, stops⟩ | ⟨operation, finishes, done, rfl⟩ := Site.insert_logs put
      · exact .stopped drafts waited (stops.map _)
      · exact .inserted drafts finishes
    · exact .unmade drafts
    · cases drafts
  · obtain ⟨rfl, rfl⟩ := rest
    exact .found i
  · exact .unseen e stops

theorem Pass.record_bind_logs {outcome : Outcome}
    (h : (Pass.record m >>= fun _ => pure outcome).run.Ends logging past r log) :
    ∃ answer, Records m past log answer ∧ r = some (answer.map fun _ => outcome) := by
  obtain ⟨_, taken, rfl⟩ := Pass.ends_run_bind_pure.mp h
  obtain ⟨answer, records, rfl⟩ := Pass.record_logs taken
  exact ⟨answer, records, rfl⟩

theorem Provisions.create_logs (h : (p.create S o c m).run.Ends logging past r log) :
    p.Creation S o c m past log r := by
  obtain ⟨site, sited, rest⟩ | ⟨e, refused, rfl, rfl⟩ := Pass.ends_run_ofExcept_bind.mp h
  · obtain ⟨outcome, between, first, more⟩ | ⟨e, rfl, first⟩ | ⟨rfl, first⟩ :=
      Program.ends_exceptBind.mp rest <;> have ensures := p.ensure_logs first
    · obtain ⟨answer, records, rfl⟩ := Pass.record_bind_logs more
      exact .recorded sited ensures records
    · exact .failed sited ensures nofun
    · exact .failed sited ensures nofun
  · exact .refused refused

theorem Provisions.delete_logs (h : (p.delete c m).run.Ends logging past r log) :
    Deletion c m past log r := by
  obtain ⟨site, sited, rest⟩ | ⟨e, refused, rfl, rfl⟩ := Pass.ends_run_ofExcept_bind.mp h
  · obtain ⟨_ | i, more⟩ | ⟨e, rfl, stops⟩ := Site.find_bind_logs rest
    · obtain ⟨rfl, rfl⟩ := more
      exact .absent sited
    · obtain ⟨r', removed, rfl⟩ := Pass.ends_run_bind_pure.mp more
      obtain ⟨answer, waited, stops⟩ | ⟨operation, finishes, done, rfl⟩ := Site.delete_logs removed
      · exact .stopped sited waited (stops.map _)
      · exact .deleted sited finishes
    · exact .unseen sited e stops
  · exact .refused refused

/-- An instance may be found, and be deleted at once. -/
theorem Provisions.delete_done {operation : Operation} (sited : Site.of c m = .ok site)
    (i : Instance) (done : operation.HasSucceeded) :
    (p.delete c m).run.Ends logging past (some (.ok .deleted))
      (site.deleted (.ok operation) :: site.looked (.ok (some i)) :: past) := by
  refine Pass.ends_run_ofExcept_bind.mpr (.inl ⟨site, sited, ?_⟩)
  refine Program.ends_exceptBind.mpr (.inl ⟨some i, _, Site.find_answered _, ?_⟩)
  exact Pass.ends_run_bind_pure.mpr ⟨_, Site.delete_done done _, rfl⟩

/-- Where no instance is found and a token is got, creating fails with what is lacking. -/
theorem Provisions.exists_create_lacking (sited : Site.of c m = .ok site) {e : BootstrapError}
    (lacks : p.checkInputs S o c m site.spec = .error e) (past : List Event) :
    ∃ log, Provisions.Drawn (site.looked (.ok none) :: past) log ∧
      (p.create S o c m).run.Ends logging past (some (.error (.bootstrap e))) log := by
  obtain ⟨log, _ | _, drawn, ⟨⟩, ends⟩ :=
    Provisions.exists_blueprint lacks (site.looked (.ok none) :: past)
  refine ⟨log, drawn, Pass.ends_run_ofExcept_bind.mpr (.inl ⟨site, sited, ?_⟩)⟩
  refine Program.ends_exceptBind.mpr (.inr (.inl ⟨_, rfl, ?_⟩))
  refine Program.ends_exceptBind.mpr (.inl ⟨none, _, Site.find_answered none, ?_⟩)
  exact Program.ends_exceptBind.mpr (.inr (.inl ⟨_, rfl, ends⟩))

/-- Where all calls go well, an instance is inserted, and its record is written. -/
theorem Provisions.exists_create_done (sited : Site.of c m = .ok site)
    (inOrder : p.checkInputs S o c m site.spec = .ok ()) {operation : Operation}
    (done : operation.HasSucceeded) (stored : Machine) (past : List Event) :
    ∃ drawn wanted, Provisions.Drawn (site.looked (.ok none) :: past) drawn ∧
      (p.create S o c m).run.Ends logging past (some (.ok .created))
      (⟨.writeRecord (stored.withSnapshot m), .ok stored⟩ ::
        ⟨.readRecord m.namespaceText m.metadata.nameOrStem, .ok (some stored)⟩ ::
          site.inserted wanted (.ok operation) :: drawn) := by
  obtain ⟨drawn, _ | b, own, ⟨⟩, ends⟩ :=
    Provisions.exists_blueprint inOrder (site.looked (.ok none) :: past)
  refine ⟨drawn, b.build p.config, own,
    Pass.ends_run_ofExcept_bind.mpr (.inl ⟨site, sited, ?_⟩)⟩
  refine Program.ends_exceptBind.mpr (.inl ⟨.created,
    site.inserted (b.build p.config) (.ok operation) :: drawn, ?_, ?_⟩)
  · refine Program.ends_exceptBind.mpr (.inl ⟨none, _, Site.find_answered none, ?_⟩)
    refine Program.ends_exceptBind.mpr (.inl ⟨b, drawn, ends, ?_⟩)
    exact Pass.ends_run_bind_pure.mpr ⟨_, Site.insert_done done _ _, rfl⟩
  · exact Pass.ends_run_bind_pure.mpr ⟨_, Pass.record_written .., rfl⟩

/-- Where the old instance is deleted at once, creating goes on from there. -/
theorem Provisions.replace_done {current : Machine} {operation : Operation} {i : Instance}
    (other : current.differs m = true) (may : p.checkReplaceable current m = .ok ())
    (sited : Site.of c current = .ok site) (done : operation.HasSucceeded)
    (created : (p.create S o c m).run.Ends logging
      (site.deleted (.ok operation) :: site.looked (.ok (some i)) :: past) r log) :
    (p.replace S o c current m).run.Ends logging past (r.map (Except.map fun _ => .recreated))
      log := by
  simp only [replace, other]
  refine Pass.ends_run_ofExcept_bind.mpr (.inl ⟨(), may, ?_⟩)
  refine Program.ends_exceptBind.mpr (.inl ⟨.deleted, _, p.delete_done sited i done, ?_⟩)
  exact Pass.ends_run_bind_pure.mpr ⟨_, created, rfl⟩

theorem Pass.exists_logs {r : Option (Except Error Bool)}
    (h : (Pass.exists c m).run.Ends logging past r log) :
    (∃ e, Site.of c m = .error e ∧ log = past ∧ r = some (.error e)) ∨
      ∃ site, Site.of c m = .ok site ∧
        ((∃ e, log = site.looked (.error e) :: past ∧ Stops r) ∨
          ∃ found, log = site.looked (.ok found) :: past ∧ r = some (.ok found.isSome)) := by
  obtain ⟨site, sited, rest⟩ | ⟨e, refused, rfl, rfl⟩ := Pass.ends_run_ofExcept_bind.mp h
  · obtain ⟨found, rfl, rfl⟩ | unseen := Site.find_bind_logs rest
    · exact .inr ⟨site, sited, .inr ⟨found, rfl, rfl⟩⟩
    · exact .inr ⟨site, sited, .inl unseen⟩
  · exact .inl ⟨e, refused, rfl, rfl⟩

theorem Provisions.adopt_logs (h : (adopt c m).run.Ends logging past r log) :
    Adoption c m past log r := by
  obtain ⟨there, u, first, rest⟩ | ⟨e, rfl, first⟩ | ⟨rfl, first⟩ :=
    Program.ends_exceptBind.mp h <;>
    obtain ⟨_, refused, rfl, eq⟩ | ⟨site, sited, ⟨e', rfl, stops⟩ | ⟨found, rfl, eq⟩⟩ :=
      Pass.exists_logs first
  · cases eq
  · cases stops
  · cases eq
    cases found with
    | none =>
      obtain ⟨rfl, rfl⟩ := rest
      exact .absent sited _
    | some i =>
      obtain ⟨answer, records, rfl⟩ := Pass.record_bind_logs rest
      exact .recorded sited records
  · cases eq
    exact .refused refused
  · exact .unseen sited e' stops.error
  · cases eq
  · cases eq
  · exact .unseen sited e' .aborted
  · cases eq

theorem Provisions.replace_logs {current : Machine}
    (h : (p.replace S o c current m).run.Ends logging past r log) :
    p.Replacement S o c current m past log r := by
  unfold replace at h
  cases other : current.differs m with
  | false =>
    rw [other] at h
    obtain ⟨rfl, rfl⟩ := h
    exact .unchanged other
  | true =>
    rw [other] at h
    obtain ⟨_, may, rest⟩ | ⟨e, refused, rfl, rfl⟩ := Pass.ends_run_ofExcept_bind.mp h
    · obtain ⟨outcome, between, first, more⟩ | ⟨e, rfl, first⟩ | ⟨rfl, first⟩ :=
        Program.ends_exceptBind.mp rest <;> have deletion := p.delete_logs first
      · obtain ⟨r', made, rfl⟩ := Pass.ends_run_bind_pure.mp more
        exact .replaced other may deletion (p.create_logs made)
      · exact .kept other may deletion nofun
      · exact .kept other may deletion nofun
    · exact .refused other refused

end

/-! ## Tasks -/

/-- What a pass may be asked for. -/
inductive Task where
  | create
  | delete
  | update
  | reconcile
deriving DecidableEq, Repr

/-- What a task comes to for a machine. -/
inductive Move where
  /-- The snapshot of the machine cannot be read. -/
  | refuse (e : Error)
  | create
  | delete
  | adopt
  | replace (current : Machine)

/-- What is to be done about a machine that is to stay, by its snapshot: something of one's own
choice if it has none. -/
def Machine.move (m : Machine) (unseen : Move) : Move :=
  match m.snapshot? with
  | .error e => .refuse e
  | .ok none => unseen
  | .ok (some current) => .replace current

/-- What the task comes to for the machine. -/
def Task.move (m : Machine) : Task → Move
  | create => .create
  | delete => .delete
  | update => m.move .adopt
  | reconcile => if m.isTerminating then .delete else m.move .create

/-- The task is to update the machine, or comes to that for want of a reason to delete it. -/
def Task.Updates (m : Machine) : Task → Prop
  | update => True
  | reconcile => m.isTerminating = false
  | _ => False

/-- A machine that is updated is moved from what its snapshot shows. -/
theorem Task.move_of_updates {task : Task} {m current : Machine} (updates : task.Updates m)
    (shown : m.snapshot? = .ok (some current)) : task.move m = .replace current := by
  cases task with
  | create => exact updates.elim
  | delete => exact updates.elim
  | update => simp only [move, Machine.move, shown]
  | reconcile =>
    have lasting : m.isTerminating = false := updates
    simp only [move, Machine.move, shown, lasting]
    rfl

theorem Machine.snapshot?_of_move {m current : Machine} {unseen : Move}
    (h : m.move unseen = .replace current) (other : unseen ≠ .replace current) :
    m.snapshot? = .ok (some current) := by
  unfold move at h
  rcases shown : m.snapshot? with e | _ | k <;> rw [shown] at h
  · cases h
  · exact absurd h other
  · cases h
    rfl

/-- An instance is made anew only from what the snapshot shows. -/
theorem Task.snapshot?_of_move {task : Task} {m current : Machine}
    (h : task.move m = .replace current) : m.snapshot? = .ok (some current) := by
  cases task with
  | create => cases h
  | delete => cases h
  | update =>
    refine Machine.snapshot?_of_move h ?_
    rintro ⟨⟩
  | reconcile =>
    change (if m.isTerminating then Move.delete else m.move .create) = _ at h
    split at h
    · cases h
    · refine Machine.snapshot?_of_move h ?_
      rintro ⟨⟩

namespace Provisions

variable (S : SignatureSystem) (p : Provisions) (o : Occasion) (c : Cluster) (m : Machine)

/-- The pass that carries a task out. -/
def carryOut : Task → Pass Outcome
  | .create => p.create S o c m
  | .delete => p.delete c m
  | .update => p.update S o c m
  | .reconcile => p.reconcile S o c m

/-- The part of a pass that makes a move. -/
def make : Move → Pass Outcome
  | .refuse e => throw e
  | .create => p.create S o c m
  | .delete => p.delete c m
  | .adopt => adopt c m
  | .replace current => p.replace S o c current m

/-- A task is carried out by the move that it comes to. -/
theorem carryOut_eq_make (task : Task) :
    p.carryOut S o c m task = p.make S o c m (task.move m) := by
  have moved : p.update S o c m = p.make S o c m (m.move .adopt) := by
    unfold update Machine.move
    obtain e | _ | current := m.snapshot? <;> rfl
  cases task with
  | create => rfl
  | delete => rfl
  | update => exact moved
  | reconcile =>
    unfold carryOut reconcile Task.move
    cases m.isTerminating with
    | true => rfl
    | false =>
      unfold update Machine.move
      -- the snapshot is read twice, with the same result
      rcases shown : m.snapshot? with e | _ | current <;> rfl

/-- How a move is logged, and what it ends in. -/
def Course (past log : List Event) (r : Option (Except Error Outcome)) : Move → Prop
  | .refuse e => log = past ∧ r = some (.error e)
  | .create => p.Creation S o c m past log r
  | .delete => Deletion c m past log r
  | .adopt => Adoption c m past log r
  | .replace current => p.Replacement S o c current m past log r

variable {S p o c m}

/-- **How carrying a task out is logged, and what it ends in.** -/
theorem carryOut_logs {task : Task} {past log : List Event} {r : Option (Except Error Outcome)}
    (h : (p.carryOut S o c m task).run.Ends logging past r log) :
    p.Course S o c m past log r (task.move m) := by
  rw [carryOut_eq_make] at h
  generalize task.move m = move at h ⊢
  cases move with
  | refuse e =>
    obtain ⟨rfl, rfl⟩ := h
    exact ⟨rfl, rfl⟩
  | create => exact p.create_logs h
  | delete => exact p.delete_logs h
  | adopt => exact adopt_logs h
  | replace current => exact p.replace_logs h

/-- **Where the old instance is deleted at once, the pass goes on as creating does.** -/
theorem carryOut_of_create {task : Task} {current : Machine} {old spec : MachineProviderSpec}
    (updates : task.Updates m) (shown : m.snapshot? = .ok (some current))
    (asked : MachineProviderSpec.ofMachine current = .ok old) (worker : old.isMaster = false)
    (replaces : p.Replaces c current m spec) {operation : Operation}
    (done : operation.HasSucceeded) (i : Instance) :
    ∃ (site site' : Site), Site.of c m = .ok site' ∧ site'.spec = spec ∧ ∀ r log,
      (p.create S o c m).run.Ends logging
        [site.deleted (.ok operation), site.looked (.ok (some i))] r log →
      (p.carryOut S o c m task).run.Ends logging [] (r.map (Except.map fun _ => .recreated))
        log := by
  obtain ⟨k, cluster⟩ := replaces.cluster
  obtain ⟨site, sited⟩ := Site.exists_of cluster asked
  obtain ⟨site', sited'⟩ := Site.exists_of cluster replaces.asked
  have own : site'.spec = spec :=
    Except.ok.inj ((Site.ofMachine_of_ok sited').1.symm.trans replaces.asked)
  have may : p.checkReplaceable current m = .ok () :=
    checkReplaceable_eq_ok_iff.mpr ⟨⟨old, asked, worker⟩, spec, replaces.asked, replaces.fits⟩
  refine ⟨site, site', sited', own, fun r log created => ?_⟩
  rw [carryOut_eq_make, Task.move_of_updates updates shown]
  exact replace_done replaces.other may sited done created

/-- Where all calls go well, an instance is deleted, another one is inserted, and the record is
written. -/
theorem exists_recreated {task : Task} {current : Machine} {old spec : MachineProviderSpec}
    (updates : task.Updates m) (shown : m.snapshot? = .ok (some current))
    (asked : MachineProviderSpec.ofMachine current = .ok old) (worker : old.isMaster = false)
    (replaces : p.Replaces c current m spec)
    (supplied : p.checkSupplies S o c m spec = .ok ()) :
    ∃ log, (p.carryOut S o c m task).run.Ends logging [] (some (.ok .recreated)) log ∧
      (∃ event ∈ log, event.1.deletes = true) ∧ (∃ event ∈ log, event.1.inserts = true) ∧
      ∃ event ∈ log, event.1.writes = true := by
  obtain ⟨operation, done⟩ : ∃ operation : Operation, operation.HasSucceeded :=
    ⟨Memory.done "" "", rfl, rfl⟩
  obtain ⟨site, site', sited, rfl, goesOn⟩ :=
    carryOut_of_create (S := S) (o := o) updates shown asked worker replaces done default
  rw [← replaces.checkInputs] at supplied
  obtain ⟨drawn, wanted, own, created⟩ := exists_create_done sited supplied done default
    [site.deleted (.ok operation), site.looked (.ok (some default))]
  refine ⟨_, goesOn _ _ created, ⟨site.deleted (.ok operation), ?_, rfl⟩,
    ⟨site'.inserted wanted (.ok operation), by simp, rfl⟩, ⟨_, List.mem_cons_self, rfl⟩⟩
  obtain rfl | ⟨token, rfl⟩ := own <;> simp

end Provisions

/-! ## A worker that grows -/

/-- A small worker that has been recorded, and is wanted large now. -/
def Machine.growing : Machine :=
  (worker "default" "worker" "zone-a" "large" "1.9.4").withSnapshot
    (worker "default" "worker" "zone-a" "small" "1.9.4")

namespace Machine

theorem snapshot?_growing :
    growing.snapshot? = .ok (some (worker "default" "worker" "zone-a" "small" "1.9.4").blanked) :=
  snapshot?_of_plain (annotation?_withSnapshot _ _) (isPlain_worker ..)

theorem ofMachine_grown :
    MachineProviderSpec.ofMachine (worker "default" "worker" "zone-a" "small" "1.9.4").blanked
      = .ok { roles := [.node], zone := "zone-a", machineType := "small" } :=
  ofMachine_worker "default" "worker" "zone-a" "small" "1.9.4" (by decide) (by decide)

theorem replaces_growing (image : String) {c : Cluster} {k : ClusterProviderSpec}
    (cluster : ClusterProviderSpec.ofCluster c = .ok k) :
    (Provisions.ofWorkers image "1.9.4").Replaces c
      (worker "default" "worker" "zone-a" "small" "1.9.4").blanked growing
      { roles := [.node], zone := "zone-a", machineType := "large" } where
  other := by decide
  cluster := ⟨k, cluster⟩
  asked := ofMachine_worker "default" "worker" "zone-a" "large" "1.9.4" (by decide) (by decide)
  fits := ⟨_, Provisions.resolve_ofWorkers image "1.9.4"⟩

/-- It can be made anew if there is an endpoint to join. -/
theorem checkSupplies_growing (S : SignatureSystem) (p : Provisions) (o : Occasion) (c : Cluster) :
    p.checkSupplies S o c growing { roles := [.node], zone := "zone-a", machineType := "large" }
      = if c.endpoints.isEmpty then .error (.missingEndpoint c.identity) else .ok () :=
  Provisions.checkSupplies_worker rfl (show "1.9.4" ≠ "" by decide)

end Machine

end NodeProvisioner
