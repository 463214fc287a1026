import NodeProvisioner.Pass.Lifecycle
import NodeProvisioner.Proofs.Calls.Passes
import NodeProvisioner.Proofs.Confinement.Reaches

/-!
# Reach of a machine

A machine reaches into the project of its cluster, to the place that it asks for now and to the one
that its snapshot shows, and to its own record. No pass over a machine goes beyond that.

Main statement: `Machine.confines_carryOut`.
-/

namespace NodeProvisioner

namespace Machine

/-- The machine asks for a place: for a zone, and for its own name there. -/
def AsksAt (m : Machine) (zone name : String) : Prop :=
  ∃ spec, MachineProviderSpec.ofMachine m = .ok spec ∧ spec.zone = zone ∧
    m.metadata.nameOrStem = name

/-- The machine asks for the place, or its snapshot does. -/
def Claims (m : Machine) (zone name : String) : Prop :=
  m.AsksAt zone name ∨ ∃ current, m.snapshot? = .ok (some current) ∧ current.AsksAt zone name

/-- What passes over a machine of the cluster may address. -/
def reach (m : Machine) (c : Cluster) : Reach where
  project project := ∃ k, ClusterProviderSpec.ofCluster c = .ok k ∧ k.project = project
  place := m.Claims
  space := m.namespaceText
  name := m.metadata.nameOrStem

end Machine

namespace Reach

variable {S : SignatureSystem} {p : Provisions} {o : Occasion} {c : Cluster} {m : Machine}
  {r : Reach} {site : Site}

theorem Holds.of_sited (sited : Site.of c m = .ok site)
    (project : ∀ k, ClusterProviderSpec.ofCluster c = .ok k → r.project k.project)
    (place : ∀ zone name, m.AsksAt zone name → r.place zone name) : r.Holds site := by
  obtain ⟨k, cluster, rest⟩ := bind_eq_ok_iff.mp sited
  obtain ⟨spec, asked, rest⟩ := bind_eq_ok_iff.mp rest
  obtain rfl := Except.ok.inj rest
  exact ⟨project k cluster, place _ _ ⟨spec, asked, rfl, rfl⟩⟩

/-! ## Parts of a pass -/

/-- Metadata takes no call but the one for a token. -/
theorem confines_bootMetadata {project : String} {spec : MachineProviderSpec} :
    r.Confines (p.bootMetadata S o c m project spec) fun _ => True := by
  have nothing {α : Type} (result : Except BootstrapError α) :
      r.Confines (MonadExcept.ofExcept result : Boot α) fun _ => True :=
    confines_ofExcept result fun _ _ => trivial
  have token : r.Confines (ExceptT.mk Pass.createToken : Boot String) fun _ => True :=
    Program.confined_perform trivial fun _ _ _ _ => trivial
  have role (items : List MetadataItem) :
      r.Confines (p.roleMetadata S o c m project spec items) fun _ => True := by
    unfold Provisions.roleMetadata
    split
    · exact (nothing _).bind fun _ _ => (nothing _).bind fun _ _ => nothing _
    · exact token.bind fun _ _ => nothing _
  exact (nothing _).bind fun _ _ => (nothing _).bind fun _ _ =>
    (role _).bind fun _ _ => confines_pure trivial

theorem confines_blueprint :
    r.Confines (p.blueprint S o c m site) fun b => b.machine = m := by
  have setup : r.Confines (Pass.ofExcept ((p.setupFor m site.spec).mapError .bootstrap))
      fun _ => True := confines_done _ fun _ _ => trivial
  exact setup.bind fun _ _ =>
    (confines_bootMetadata.adapt Error.bootstrap).bind fun _ _ => confines_pure rfl

theorem confines_ensure (h : r.Holds site) (named : m.metadata.name = some site.name) :
    r.Confines (p.ensure S o c m site) fun _ => True := by
  refine h.find.bind fun found _ => ?_
  cases found with
  | some i => exact confines_pure trivial
  | none =>
    refine confines_blueprint.bind fun b own => ?_
    have called : (b.build p.config).name = site.name := by
      rw [Blueprint.build, own, named]
      rfl
    exact (h.insert called).bind fun _ _ => confines_pure trivial

/-- A part that begins with telling a site is confined if it is where there is a site. -/
theorem confines_sited {α : Type} {f : Site → Pass α} {post : α → Prop}
    (h : ∀ site, Site.of c m = .ok site → r.Confines (f site) post) :
    r.Confines (Pass.ofExcept (Site.of c m) >>= f) post :=
  Confines.bind (confines_done _ fun _ sited => sited) h

theorem confines_create (holds : ∀ site, Site.of c m = .ok site → r.Holds site)
    (named : m.IsNamed r.space r.name) : r.Confines (p.create S o c m) fun _ => True := by
  refine confines_sited fun site sited => ?_
  have called : m.metadata.name = some site.name := by
    rw [(Site.ofMachine_of_ok sited).2, named.nameOrStem, named.name]
  exact (confines_ensure (holds site sited) called).bind fun _ _ =>
    (confines_record named.filed).bind fun _ _ => confines_pure trivial

theorem confines_delete (holds : ∀ site, Site.of c m = .ok site → r.Holds site) :
    r.Confines (p.delete c m) fun _ => True := by
  refine confines_sited fun site sited => (holds site sited).find.bind fun found _ => ?_
  cases found with
  | none => exact confines_pure trivial
  | some i => exact (holds site sited).delete.bind fun _ _ => confines_pure trivial

theorem confines_adopt (holds : ∀ site, Site.of c m = .ok site → r.Holds site)
    (named : m.IsNamed r.space r.name) :
    r.Confines (Provisions.adopt c m) fun _ => True := by
  have looks : r.Confines (Pass.exists c m) fun _ => True :=
    confines_sited fun site sited => (holds site sited).find.bind fun _ _ => confines_pure trivial
  refine looks.bind fun found _ => ?_
  cases found with
  | false => exact confines_throw
  | true =>
    exact (confines_record named.filed).bind fun _ _ => confines_pure trivial

theorem confines_replace {current : Machine}
    (holds : ∀ site, Site.of c m = .ok site → r.Holds site)
    (holds' : ∀ site, Site.of c current = .ok site → r.Holds site)
    (named : m.IsNamed r.space r.name) :
    r.Confines (p.replace S o c current m) fun _ => True := by
  have checks : r.Confines (Pass.ofExcept (p.checkReplaceable current m)) fun _ => True :=
    confines_done _ fun _ _ => trivial
  unfold Provisions.replace
  split
  · exact confines_pure trivial
  · exact checks.bind fun _ _ => (confines_delete holds').bind fun _ _ =>
      (confines_create holds named).bind fun _ _ => confines_pure trivial

end Reach

/-- **A pass over a machine stays within the machine's reach.** -/
theorem Machine.confines_carryOut (S : SignatureSystem) (p : Provisions) (o : Occasion)
    (c : Cluster) {m : Machine} (task : Task) {name : String}
    (named : m.metadata.name = some name) : (m.reach c).Confines (p.carryOut S o c m task) fun _ => True := by
  have own : m.IsNamed (m.reach c).space (m.reach c).name :=
    ⟨rfl, by rw [reach, ObjectMeta.nameOrStem, named]; rfl⟩
  have holds (site : Site) (sited : Site.of c m = .ok site) : (m.reach c).Holds site :=
    .of_sited sited (fun k cluster => ⟨k, cluster, rfl⟩) fun _ _ => .inl
  rw [Provisions.carryOut_eq_make]
  -- a move goes back to a former place only if the machine's snapshot shows it
  cases move : task.move m with
  | refuse e => exact Reach.confines_throw
  | create => exact Reach.confines_create holds own
  | delete => exact Reach.confines_delete holds
  | adopt => exact Reach.confines_adopt holds own
  | replace current =>
    have shown := Task.snapshot?_of_move move
    refine Reach.confines_replace holds (fun site sited => ?_) own
    exact .of_sited sited (fun k cluster => ⟨k, cluster, rfl⟩) fun _ _ asks =>
      .inr ⟨current, shown, asks⟩

end NodeProvisioner
