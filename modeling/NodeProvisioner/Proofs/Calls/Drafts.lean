import NodeProvisioner.Proofs.Calls.Parts
import NodeProvisioner.Proofs.Runs.Buildable

/-!
# Calls for a blueprint

The blueprint of an instance takes one call at most: a worker is given a token. Apart from that it
depends on the inputs alone. Whether these are in order could be checked before any call is made:
a setup fits, and what the metadata is made of is at hand.

Main statement: `blueprint_logs`.
-/

namespace NodeProvisioner

open Program (logging)

/-- How a call is answered where there is nothing yet and all goes well. -/
def Call.welcome : (c : Call) → c.Answer
  | getInstance .. => .ok none
  | insertInstance _ zone wanted => .ok (Memory.done "insert" (Memory.key zone wanted.name))
  | deleteInstance _ zone name => .ok (Memory.done "delete" (Memory.key zone name))
  | pollOperation _ _ operation => .ok { name := operation, status := "DONE" }
  | createToken => .ok ""
  | readRecord .. => .ok none
  | writeRecord machine => .ok machine
  | pause _ => ()

namespace Provisions

variable (S : SignatureSystem) (p : Provisions) (o : Occasion) (c : Cluster) (m : Machine)

/-- A certificate can be issued for a machine, if there is an authority. -/
def checkCertificate (spec : MachineProviderSpec) : Except BootstrapError Unit :=
  match p.authority with
  | none => .ok ()
  | some ca => ((p.serverCertificate S o ca c m spec).mapError .certificate).map fun _ => ()

/-- What the metadata of a machine is made of is at hand, apart from a setup and a token: its
versions; for a worker, an endpoint to join; for a machine that runs the control plane, a
certificate. -/
def checkSupplies (spec : MachineProviderSpec) : Except BootstrapError Unit := do
  requireVersion .kubelet m.spec.versions.kubelet
  if spec.isMaster then
    requireVersion .controlPlane m.spec.versions.controlPlane
    p.checkCertificate S o c m spec
  else if c.endpoints.isEmpty then throw (.missingEndpoint c.identity)

/-- An instance can be made for the machine as far as the inputs go. -/
def checkInputs (spec : MachineProviderSpec) : Except BootstrapError Unit := do
  let _ ← p.setupFor m spec
  p.checkSupplies S o c m spec

/-- Nothing has been called since, except that a token has been got. -/
def Drawn (past log : List Event) : Prop :=
  log = past ∨ ∃ token, log = ⟨.createToken, .ok token⟩ :: past

section

variable {S p o c m} {project : String} {spec : MachineProviderSpec} {items : List MetadataItem}
  {past log : List Event}

theorem requireVersion_cases (version : RequiredVersion) (text : String) :
    (text = "" ∧ requireVersion version text
      = .error (.invalidConfiguration (.missingVersion version))) ∨
      (text ≠ "" ∧ requireVersion version text = .ok ()) := by
  by_cases h : text = ""
  · subst h
    exact .inl ⟨rfl, rfl⟩
  · exact .inr ⟨h, requireVersion_ok h⟩

theorem run_ofExcept {α : Type} (result : Except BootstrapError α) :
    (MonadExcept.ofExcept result : Boot α).run = .done result := by
  cases result <;> rfl

/-- The metadata of a machine that runs the control plane takes no call. -/
theorem roleMetadata_master (master : spec.isMaster = true) :
    (p.roleMetadata S o c m project spec items).run = .done (do
      requireVersion .controlPlane m.spec.versions.controlPlane
      p.withCertificates S o c m spec (← masterMetadata c m project items)) := by
  unfold roleMetadata
  rw [if_pos master]
  cases requireVersion .controlPlane m.spec.versions.controlPlane with
  | error e => rfl
  | ok _ =>
    cases masterMetadata c m project items with
    | error e => rfl
    | ok metadata => exact run_ofExcept (p.withCertificates S o c m spec metadata)

theorem withCertificates_map (metadata : StringMap String) :
    (p.withCertificates S o c m spec metadata).map (fun _ => ())
      = p.checkCertificate S o c m spec := by
  unfold withCertificates checkCertificate
  cases p.authority with
  | none => rfl
  | some ca =>
    simp only
    cases p.serverCertificate S o ca c m spec <;> rfl

theorem checkSupplies_master (master : spec.isMaster = true)
    (kubelet : m.spec.versions.kubelet ≠ "") : p.checkSupplies S o c m spec = (do
      requireVersion .controlPlane m.spec.versions.controlPlane
      p.checkCertificate S o c m spec) := by
  simp only [checkSupplies, requireVersion_ok kubelet, master]
  rfl

theorem checkSupplies_worker (worker : spec.isMaster = false)
    (kubelet : m.spec.versions.kubelet ≠ "") : p.checkSupplies S o c m spec =
      if c.endpoints.isEmpty then .error (.missingEndpoint c.identity) else .ok () := by
  simp only [checkSupplies, requireVersion_ok kubelet, worker]
  rfl

theorem nodeMetadata_map (worker : spec.isMaster = false)
    (kubelet : m.spec.versions.kubelet ≠ "") (token : String) :
    (nodeMetadata token c m project items).map (fun _ => ()) = p.checkSupplies S o c m spec := by
  rw [checkSupplies_worker worker kubelet]
  cases endpoints : c.endpoints with
  | nil =>
    simp only [nodeMetadata, BootParams.forNode, endpoints]
    rfl
  | cons endpoint rest =>
    have given : c.endpoints ≠ [] := endpoints ▸ List.cons_ne_nil _ _
    obtain ⟨metadata, made⟩ := nodeMetadata_ok given token m project items
    rw [made]
    rfl

/-- The metadata of a role is made unless the supplies are short, or there is no token. -/
theorem roleMetadata_logs {r : Option (Except BootstrapError (StringMap String))}
    (kubelet : m.spec.versions.kubelet ≠ "")
    (h : (p.roleMetadata S o c m project spec items).run.Ends logging past r log) :
    (∃ e, log = ⟨.createToken, .error e⟩ :: past ∧ r = some (.error e)) ∨
      Drawn past log ∧ ∃ result, r = some result ∧
        result.map (fun _ => ()) = p.checkSupplies S o c m spec := by
  by_cases master : spec.isMaster = true
  · rw [roleMetadata_master master] at h
    obtain ⟨rfl, rfl⟩ := h
    refine .inr ⟨.inl rfl, _, rfl, ?_⟩
    rw [checkSupplies_master master kubelet]
    obtain ⟨_, missing⟩ | ⟨given, found⟩ :=
      requireVersion_cases .controlPlane m.spec.versions.controlPlane
    · rw [missing]
      rfl
    · obtain ⟨metadata, made⟩ := masterMetadata_ok given c project items
      rw [found, made]
      exact withCertificates_map metadata
  · have worker := Bool.eq_false_iff.mpr master
    unfold roleMetadata at h
    rw [if_neg master] at h
    obtain ⟨token, u, first, rest⟩ | ⟨e, rfl, first⟩ | ⟨_, first⟩ :=
      Program.ends_exceptBind.mp h <;>
      obtain ⟨answer, rfl, eq⟩ := Program.ends_perform.mp first <;> cases eq
    · obtain ⟨rfl, rfl⟩ := Program.ends_exceptOf.mp rest
      exact .inr ⟨.inr ⟨token, rfl⟩, _, rfl, nodeMetadata_map worker kubelet _⟩
    · exact .inl ⟨e, rfl, rfl⟩

/-- The metadata of a machine that a setup fits is made unless the supplies are short, or there is
no token. -/
theorem bootMetadata_logs {r : Option (Except BootstrapError (StringMap String))} {setup : Setup}
    (fits : p.setupFor m spec = .ok setup)
    (h : (p.bootMetadata S o c m project spec).run.Ends logging past r log) :
    (∃ e, log = ⟨.createToken, .error e⟩ :: past ∧ r = some (.error e)) ∨
      Drawn past log ∧ ∃ result, r = some result ∧
        result.map (fun _ => ()) = p.checkSupplies S o c m spec := by
  unfold bootMetadata at h
  obtain ⟨_, found, rest⟩ | ⟨e, missing, rfl, rfl⟩ := Program.ends_exceptOf_bind.mp h
  · have kubelet : m.spec.versions.kubelet ≠ "" := by
      intro empty
      rw [empty] at found
      cases found
    obtain ⟨_, _, more⟩ | ⟨e, unfit, _⟩ := Program.ends_exceptOf_bind.mp rest
    · obtain ⟨metadata, u, made, rfl, rfl⟩ | ⟨e, rfl, made⟩ | ⟨rfl, made⟩ :=
        Program.ends_exceptBind.mp more <;>
        obtain ⟨e', rfl, eq⟩ | ⟨drawn, result, eq, same⟩ := roleMetadata_logs kubelet made <;>
        cases eq
      · exact .inr ⟨drawn, _, rfl, same⟩
      · exact .inl ⟨e, rfl, rfl⟩
      · exact .inr ⟨drawn, _, rfl, same⟩
    · rw [fits] at unfit
      cases unfit
  · refine .inr ⟨.inl rfl, _, rfl, ?_⟩
    simp only [checkSupplies, missing]
    rfl

/-- What is made of metadata where an error of it becomes one of the pass has been made of it. -/
theorem ends_of_adapt {α : Type} {q : Boot α} {a : α}
    (h : (ExceptT.adapt Error.bootstrap q : Pass α).run.Ends logging past (some (.ok a)) log) :
    q.run.Ends logging past (some (.ok a)) log := by
  obtain ⟨own, w, first, eq, rfl⟩ | ⟨⟨⟩, _⟩ := (Program.ends_bind _ _).mp h
  cases own <;> cases eq
  exact first

/-- The same where an error of the metadata becomes one of the pass. -/
theorem adapt_logs {r : Option (Except Error (StringMap String))} {setup : Setup}
    (fits : p.setupFor m spec = .ok setup)
    (h : (ExceptT.adapt Error.bootstrap (p.bootMetadata S o c m project spec) : Pass _).run.Ends
      logging past r log) :
    (∃ e, log = ⟨.createToken, .error e⟩ :: past ∧ r = some (.error (.bootstrap e))) ∨
      Drawn past log ∧ ∃ result : Except BootstrapError (StringMap String),
        r = some (result.mapError .bootstrap) ∧
        result.map (fun _ => ()) = p.checkSupplies S o c m spec := by
  obtain ⟨own, w, first, rfl, rfl⟩ | ⟨rfl, first⟩ := (Program.ends_bind _ _).mp h <;>
    obtain ⟨e, rfl, eq⟩ | ⟨drawn, result, eq, same⟩ := bootMetadata_logs fits first <;>
    cases eq
  · exact .inl ⟨e, rfl, rfl⟩
  · exact .inr ⟨drawn, _, rfl, same⟩

end

/-- How making a blueprint is logged, and what it ends in. -/
inductive Drafts (site : Site) (past : List Event) :
    List Event → Option (Except Error Blueprint) → Prop
  | drafted {b : Blueprint} {log : List Event} (drawn : Drawn past log)
    (inOrder : p.checkInputs S o c m site.spec = .ok ()) (own : b.machine = m)
    (makes : Site.of c m = .ok site → p.Makes S c m (b.build p.config)) :
    Drafts site past log (some (.ok b))
  | lacking {e : BootstrapError} {log : List Event} (drawn : Drawn past log)
    (lacks : p.checkInputs S o c m site.spec = .error e) :
    Drafts site past log (some (.error (.bootstrap e)))
  | tokenless (e : BootstrapError) :
    Drafts site past (⟨.createToken, .error e⟩ :: past) (some (.error (.bootstrap e)))

section

variable {S p o c m} {site : Site} {past log : List Event}

theorem checkInputs_of_fits {spec : MachineProviderSpec} {setup : Setup}
    (fits : p.setupFor m spec = .ok setup) :
    p.checkInputs S o c m spec = p.checkSupplies S o c m spec := by
  rw [checkInputs, fits]
  rfl

/-- **A blueprint is made if the inputs are in order**, unless there is no token. -/
theorem blueprint_logs {r : Option (Except Error Blueprint)}
    (h : (p.blueprint S o c m site).run.Ends logging past r log) :
    Drafts S p o c m site past log r := by
  unfold Provisions.blueprint at h
  cases fits : p.setupFor m site.spec with
  | error e =>
    rw [fits] at h
    obtain ⟨_, ⟨⟩, _⟩ | ⟨_, ⟨⟩, rfl, rfl⟩ := Pass.ends_run_ofExcept_bind.mp h
    refine .lacking (.inl rfl) ?_
    rw [checkInputs, fits]
    rfl
  | ok setup =>
    rw [fits] at h
    obtain ⟨_, ⟨⟩, rest⟩ | ⟨_, ⟨⟩, _⟩ := Pass.ends_run_ofExcept_bind.mp h
    have inputs := checkInputs_of_fits (S := S) (o := o) (c := c) fits
    obtain ⟨metadata, u, first, rfl, rfl⟩ | ⟨e, rfl, first⟩ | ⟨rfl, first⟩ :=
      Program.ends_exceptBind.mp rest <;>
      obtain ⟨e', rfl, eq⟩ | ⟨drawn, result | result, eq, same⟩ := adapt_logs fits first <;>
      cases eq
    · refine .drafted drawn (inputs.trans same.symm) rfl fun sited => ?_
      exact ⟨o, site, setup, metadata, sited, fits, (ends_of_adapt first).forget, rfl⟩
    · exact .tokenless e'
    · exact .lacking drawn (inputs.trans same.symm)

/-- Where a token is got, it is the inputs alone that decide. -/
theorem exists_blueprint {inputs : Except BootstrapError Unit}
    (checked : p.checkInputs S o c m site.spec = inputs) (past : List Event) :
    ∃ (log : List Event) (result : Except BootstrapError Blueprint),
      Drawn past log ∧ result.map (fun _ => ()) = inputs ∧
      (p.blueprint S o c m site).run.Ends logging past (some (result.mapError .bootstrap)) log := by
  obtain ⟨r, events, ends, answered⟩ := Program.exists_ends_answered Call.welcome
    (p.blueprint S o c m site) past
  generalize eq : events ++ past = log at ends
  cases blueprint_logs ends with
  | @drafted b _ drawn inOrder => exact ⟨log, .ok b, drawn, inOrder.symm.trans checked, ends⟩
  | @lacking e _ drawn lacks => exact ⟨log, .error e, drawn, lacks.symm.trans checked, ends⟩
  | tokenless e =>
    obtain rfl : events = [⟨.createToken, .error e⟩] := List.append_cancel_right eq
    cases answered _ List.mem_cons_self

end

end Provisions

end NodeProvisioner
