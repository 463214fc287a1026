import NodeProvisioner.Pass.Lifecycle
import NodeProvisioner.Proofs.Runs.Parts

/-!
# Buildable machines

A machine is buildable if an instance can be made for it as long as all calls go well: its spec and
that of its cluster are valid, one setup fits it, its versions are given, a worker has an endpoint
to join, and what runs the control plane can be certified.
-/

namespace NodeProvisioner

/-- All characters of the text are in ASCII. -/
def IsAscii (s : String) : Prop := ∀ c ∈ s.toList, c.toNat < 128

theorem any_foreign_iff (s : String) :
    s.toList.any (·.toNat ≥ 128) = true ↔ ¬ IsAscii s := by
  simp [IsAscii]

/-- A certificate can hold names if all of them are in ASCII. -/
theorem AltNames.check_eq_ok_iff {names : AltNames} :
    names.check = .ok () ↔ ∀ name ∈ names.dnsNames, IsAscii name := by
  unfold check
  cases found : names.dnsNames.find? fun name => name.toList.any (·.toNat ≥ 128) with
  | none =>
    refine ⟨fun _ name mem => ?_, fun _ => rfl⟩
    exact Classical.byContradiction fun foreign =>
      List.find?_eq_none.mp found name mem ((any_foreign_iff name).mpr foreign)
  | some first =>
    refine ⟨nofun, fun ascii => ?_⟩
    have foreign := List.find?_some found
    exact absurd (ascii first (List.mem_of_find?_eq_some found)) ((any_foreign_iff first).mp foreign)

/-- Certificates can be issued in the authority's name: its key can be read and signs whatever it
is given, and new keys can be written down. -/
structure KeyPair.Issues (S : SignatureSystem) (ca : KeyPair) : Prop where
  signs : ∃ issuer kind, ca.issuer S = .ok issuer ∧ S.algorithm? issuer.key = some kind ∧
    ∀ nonce message, (S.sign? issuer.key nonce message).isSome = true
  makesKeys : ∀ seed, (S.publicInfo? (S.generate seed)).isSome = true ∧
    (S.write? (S.generate seed)).isSome = true

/-- What can be certified is certified. -/
theorem KeyPair.Issues.newServer {S : SignatureSystem} {ca : KeyPair} (h : ca.Issues S)
    (commonName : String) {names : AltNames} (valid : names.check = .ok ()) (o : Occasion) :
    ∃ pair, ca.newServer S commonName names o = .ok pair := by
  obtain ⟨issuer, kind, issues, algorithm, signs⟩ := h.signs
  obtain ⟨hasInfo, hasSecret⟩ := h.makesKeys o.keySeed
  obtain ⟨info, info_eq⟩ := Option.isSome_iff_exists.mp hasInfo
  obtain ⟨secret, secret_eq⟩ := Option.isSome_iff_exists.mp hasSecret
  have signed (r : CertificateRequest) : ∃ bytes, sign? S r o issuer info = some bytes := by
    obtain ⟨signature, eq⟩ := Option.isSome_iff_exists.mp
      (signs o.nonce (r.body o kind issuer.name info))
    simp only [sign?, algorithm, eq, bind, Option.bind]
    exact ⟨_, rfl⟩
  have issued (r : CertificateRequest) :
      ∃ pair, issue S r o issuer (S.generate o.keySeed) = .ok pair := by
    obtain ⟨bytes, eq⟩ := signed r
    simp only [issue, info_eq, secret_eq, eq, bind, Option.bind]
    exact ⟨_, rfl⟩
  simp only [KeyPair.newServer, valid, issues, bind, Except.bind]
  exact issued _

/-! ## Scripts -/

namespace Script

/-- A script is rendered if all of its lines are. -/
theorem renderLines_ok (s : Script) (p : BootParams) : ∀ (lines : List ScriptLine) (number : Nat),
    (∀ line ∈ lines, (line.render p).isSome = true) →
    ∃ text, s.renderLines p number lines = .ok text
  | [], _, _ => ⟨"", rfl⟩
  | line :: rest, number, h => by
    obtain ⟨text, eq⟩ := Option.isSome_iff_exists.mp (h line List.mem_cons_self)
    obtain ⟨more, eq'⟩ := renderLines_ok s p rest (number + 1)
      fun line mem => h line (List.mem_cons_of_mem _ mem)
    simp only [renderLines, eq, eq', bind, Except.bind]
    exact ⟨_, rfl⟩

end Script

/-- The script of a worker is rendered if it has an endpoint to join. -/
theorem nodeMetadata_ok {c : Cluster} (endpoint : c.endpoints ≠ []) (token : String) (m : Machine)
    (project : String) (items : List MetadataItem) :
    ∃ metadata, nodeMetadata token c m project items = .ok metadata := by
  obtain ⟨first, rest, eq⟩ := List.exists_cons_of_ne_nil endpoint
  have params : BootParams.forNode token c m project
    = .ok { BootParams.common c m project with
      token := some token, masterEndpoint := some first.address } := by
    rw [BootParams.forNode, eq]
  obtain ⟨text, rendered⟩ := Script.node.renderLines_ok { BootParams.common c m project with
      token := some token, masterEndpoint := some first.address } Script.node.lines 1 (by simp [
        Script.node, Script.always, ScriptLine.render])
  have rendered' : Script.node.render { BootParams.common c m project with
      token := some token, masterEndpoint := some first.address } = .ok text := rendered
  simp only [nodeMetadata, params, rendered', bind, Except.bind]
  exact ⟨_, rfl⟩

/-- The script of a machine that runs the control plane is rendered if its version is given. -/
theorem masterMetadata_ok {m : Machine} (version : m.spec.versions.controlPlane ≠ "") (c : Cluster)
    (project : String) (items : List MetadataItem) :
    ∃ metadata, masterMetadata c m project items = .ok metadata := by
  have given : m.spec.versions.controlPlane.isEmpty = false :=
    Bool.eq_false_iff.mpr fun empty => version (String.isEmpty_iff.mp empty)
  obtain ⟨text, rendered⟩ := Script.master.renderLines_ok (.forMaster c m project)
    Script.master.lines 1 (by simp [Script.master, Script.always, ScriptLine.render,
      BootParams.forMaster, given])
  have rendered' : Script.master.render (.forMaster c m project) = .ok text := rendered
  simp only [masterMetadata, rendered', bind, Except.bind]
  exact ⟨_, rfl⟩

/-! ## Sites -/

namespace Site

variable {c : Cluster} {m : Machine} {site : Site}

theorem ofMachine_of_ok (h : Site.of c m = .ok site) :
    MachineProviderSpec.ofMachine m = .ok site.spec ∧ site.name = m.metadata.nameOrStem := by
  unfold Site.of at h
  cases cluster : ClusterProviderSpec.ofCluster c with
  | error e =>
    rw [cluster] at h
    cases h
  | ok k =>
    cases asked : MachineProviderSpec.ofMachine m with
    | error e =>
      rw [cluster, asked] at h
      cases h
    | ok spec =>
      rw [cluster, asked] at h
      cases h
      exact ⟨rfl, rfl⟩

theorem exists_of {k : ClusterProviderSpec} (cluster : ClusterProviderSpec.ofCluster c = .ok k)
    {spec : MachineProviderSpec} (asked : MachineProviderSpec.ofMachine m = .ok spec) :
    ∃ site, Site.of c m = .ok site := by
  simp only [Site.of, cluster, asked, bind, Except.bind]
  exact ⟨_, rfl⟩

end Site

namespace Provisions

variable (S : SignatureSystem) (p : Provisions)

/-- All is there that an instance for the machine is made from. The machine asks for this. -/
structure IsComplete (c : Cluster) (m : Machine) (spec : MachineProviderSpec) : Prop where
  cluster : ∃ k, ClusterProviderSpec.ofCluster c = .ok k
  machine : MachineProviderSpec.ofMachine m = .ok spec
  setup : ∃ setup, p.setupFor m spec = .ok setup
  kubelet : m.spec.versions.kubelet ≠ ""
  controlPlane : spec.isMaster = true → m.spec.versions.controlPlane ≠ ""
  endpoint : spec.isMaster = false → c.endpoints ≠ []

/-- An instance can be made for the machine, which asks for this. -/
structure IsBuildable (c : Cluster) (m : Machine) (spec : MachineProviderSpec) : Prop
    extends p.IsComplete c m spec where
  /-- The names in a certificate are in ASCII. -/
  names : spec.isMaster = true → ∀ ca, p.authority = some ca →
    (p.serverNames c m spec).check = .ok ()
  authority : spec.isMaster = true → ∀ ca, p.authority = some ca → ca.Issues S

/-- Whether a machine is buildable depends on what it asks for, its versions and its name only. -/
theorem IsBuildable.of_same {S : SignatureSystem} {p : Provisions} {c : Cluster} {m m' : Machine}
    {spec : MachineProviderSpec} (h : p.IsBuildable S c m spec)
    (asked : MachineProviderSpec.ofMachine m' = .ok spec)
    (versions : m'.spec.versions = m.spec.versions)
    (name : m'.metadata.name = m.metadata.name) : p.IsBuildable S c m' spec where
  cluster := h.cluster
  machine := asked
  setup := by
    rw [setupFor, versions]
    exact h.setup
  kubelet := versions ▸ h.kubelet
  controlPlane := versions ▸ h.controlPlane
  endpoint := h.endpoint
  names := by
    unfold serverNames
    rw [name]
    exact h.names
  authority := h.authority

/-- The instance is one that a machine of the cluster may get: built from what the machine asks for,
the image of the setup that fits it, and metadata made for it on some occasion, with some token. -/
def Makes (c : Cluster) (m : Machine) (made : Instance) : Prop :=
  ∃ o site setup metadata, Site.of c m = .ok site ∧ p.setupFor m site.spec = .ok setup ∧
    (p.bootMetadata S o c m site.project site.spec).run.Ends (σ := Unit) (fun _ _ _ _ => True) ()
      (some (.ok metadata)) () ∧
    made = (⟨c, m, site.spec, setup.image, metadata⟩ : Blueprint).build p.config

theorem Makes.name {S : SignatureSystem} {p : Provisions} {c : Cluster} {m : Machine}
    {made : Instance} (h : p.Makes S c m made) : made.name = m.metadata.name.getD "" := by
  obtain ⟨_, _, _, _, _, _, _, rfl⟩ := h
  rfl

/-- An instance that is inserted for a machine is found by the machine's name. -/
theorem Makes.getInstance_inserted {S : SignatureSystem} {p : Provisions} {c : Cluster}
    {m : Machine} {made : Instance} (h : p.Makes S c m made) {ns name : String}
    (named : m.IsNamed ns name) (memory : Memory) (zone other : String) :
    ((Change.inserted zone m made).apply memory).getInstance other name
      = if other = zone then some made else memory.getInstance other name := by
  have called : made.name = name := by
    rw [h.name, named.name]
    rfl
  rw [← called]
  exact Change.getInstance_inserted made

/-! ## The metadata is made -/

section

variable {S p} {o : Occasion} {c : Cluster} {m observed : Machine} {project : String}
  {spec : MachineProviderSpec} {fails : Prop} {s t : Scene}

theorem requireVersion_ok {version : RequiredVersion} {text : String} (h : text ≠ "") :
    requireVersion version text = .ok () := by
  have given : text.isEmpty = false :=
    Bool.eq_false_iff.mpr fun empty => h (String.isEmpty_iff.mp empty)
  rw [requireVersion, given]
  rfl

theorem IsBuildable.withCertificates (h : p.IsBuildable S c m spec) (master : spec.isMaster = true)
    (o : Occasion) (metadata : StringMap String) :
    ∃ metadata', p.withCertificates S o c m spec metadata = .ok metadata' := by
  unfold Provisions.withCertificates
  cases authority : p.authority with
  | none => exact ⟨metadata, rfl⟩
  | some ca =>
    obtain ⟨pair, eq⟩ := (h.authority master ca authority).newServer p.config.apiServer.commonName
      (h.names master ca authority) o
    have eq' : p.serverCertificate S o ca c m spec = .ok pair := eq
    simp only [eq']
    exact ⟨_, rfl⟩

/-- The metadata of a role is made without a change. -/
theorem roleMetadata_ends {items : List MetadataItem} {r : Option (Except BootstrapError
      (StringMap String))} (h : (p.roleMetadata S o c m project spec items).run.Ends
      (Answers fails observed) s r t) :
    t = s ∧ ∃ result, r = some result ∧
      (p.IsBuildable S c m spec → ¬ fails → ∃ metadata, result = .ok metadata) := by
  unfold roleMetadata at h
  split at h
  · rename_i master
    obtain ⟨_, _, rest⟩ | ⟨e, failed, rfl, rfl⟩ := Program.ends_exceptOf_bind.mp h
    · obtain ⟨metadata, _, more⟩ | ⟨e, failed, rfl, rfl⟩ := Program.ends_exceptOf_bind.mp rest
      · obtain ⟨rfl, rfl⟩ := Program.ends_exceptOf.mp more
        exact ⟨rfl, _, rfl, fun can _ => can.withCertificates master o metadata⟩
      · refine ⟨rfl, _, rfl, fun can _ => ?_⟩
        obtain ⟨metadata, made⟩ := masterMetadata_ok (can.controlPlane master) c project items
        cases made.symm.trans failed
    · refine ⟨rfl, _, rfl, fun can _ => ?_⟩
      cases (requireVersion_ok (can.controlPlane master)).symm.trans failed
  · rename_i worker
    -- only a worker needs a call to be answered: that for a token
    obtain ⟨token, u, first, rest⟩ | ⟨e, rfl, first⟩ | ⟨_, first⟩ := Program.ends_exceptBind.mp h
    · obtain ⟨_, ⟨rfl, _⟩, _⟩ := Program.ends_perform.mp first
      obtain ⟨rfl, rfl⟩ := Program.ends_exceptOf.mp rest
      refine ⟨rfl, _, rfl, fun can _ => ?_⟩
      exact nodeMetadata_ok (can.endpoint (Bool.eq_false_iff.mpr worker)) _ m project items
    · obtain ⟨_, ⟨rfl, fine⟩, eq⟩ := Program.ends_perform.mp first
      refine ⟨rfl, _, rfl, fun _ never => ?_⟩
      obtain ⟨token, rfl⟩ := fine.resolve_left never
      cases eq
    · obtain ⟨_, _, eq⟩ := Program.ends_perform.mp first
      cases eq

theorem bootMetadata_ends {r : Option (Except BootstrapError (StringMap String))}
    (h : (p.bootMetadata S o c m project spec).run.Ends (Answers fails observed) s r t) :
    t = s ∧ ∃ result, r = some result ∧
      (p.IsBuildable S c m spec → ¬ fails → ∃ metadata, result = .ok metadata) := by
  unfold bootMetadata at h
  obtain ⟨_, _, rest⟩ | ⟨e, failed, rfl, rfl⟩ := Program.ends_exceptOf_bind.mp h
  · obtain ⟨setup, _, more⟩ | ⟨e, failed, rfl, rfl⟩ := Program.ends_exceptOf_bind.mp rest
    · obtain ⟨metadata, v, made, last⟩ | ⟨e, rfl, made⟩ | ⟨_, made⟩ :=
        Program.ends_exceptBind.mp more
      · obtain ⟨rfl, _⟩ := roleMetadata_ends made
        obtain ⟨rfl, rfl⟩ := last
        exact ⟨rfl, _, rfl, fun _ _ => ⟨_, rfl⟩⟩
      · obtain ⟨rfl, _, eq, well⟩ := roleMetadata_ends made
        refine ⟨rfl, _, rfl, fun can never => ?_⟩
        obtain ⟨metadata, rfl⟩ := well can never
        cases eq
      · obtain ⟨_, _, eq, _⟩ := roleMetadata_ends made
        cases eq
    · refine ⟨rfl, _, rfl, fun can _ => ?_⟩
      obtain ⟨setup, fits⟩ := can.setup
      cases fits.symm.trans failed
  · refine ⟨rfl, _, rfl, fun can _ => ?_⟩
    cases (requireVersion_ok can.kubelet).symm.trans failed

/-- **A blueprint is made without a change**, and for a buildable machine unless a call fails. -/
theorem blueprint_ends {site : Site} (sited : Site.of c m = .ok site) {r : Option Blueprint}
    (h : (p.blueprint S o c m site).Ends (Answers fails observed) s r t) :
    t = s ∧ ((∃ b, r = some b ∧ p.Makes S c m (b.build p.config)) ∨
      r = none ∧ (fails ∨ ¬ p.IsBuildable S c m site.spec)) := by
  obtain ⟨setup, eq, rest⟩ | ⟨⟨e, eq⟩, rfl, rfl⟩ := Pass.ends_ofExcept_bind.mp h
  · have fits : p.setupFor m site.spec = .ok setup := by
      cases result : p.setupFor m site.spec <;> rw [result] at eq <;> cases eq
      rfl
    obtain ⟨metadata, v, ⟨result, second, eq'⟩, made⟩ | ⟨rfl, result, second, eq'⟩ :=
      Pass.ends_bind.mp rest
    · obtain ⟨own, w, third, rfl, rfl⟩ | ⟨rfl, _⟩ := (Program.ends_bind _ _).mp second
      · obtain ⟨rfl, _⟩ := bootMetadata_ends third
        obtain ⟨rfl, rfl⟩ := Pass.ends_pure.mp made
        match own, eq' with
        | .ok _, rfl =>
          exact ⟨rfl, .inl ⟨_, rfl, o, site, setup, metadata, sited, fits, third.forget, rfl⟩⟩
      · cases eq'
    · obtain ⟨own, w, third, rfl, rfl⟩ | ⟨_, third⟩ := (Program.ends_bind _ _).mp second
      · obtain ⟨rfl, _, eq, made⟩ := bootMetadata_ends third
        refine ⟨rfl, .inr ⟨rfl, ?_⟩⟩
        by_cases may : fails
        · exact .inl may
        · refine .inr fun can => ?_
          cases eq
          obtain ⟨metadata, rfl⟩ := made can may
          cases eq'
      · obtain ⟨_, _, eq, _⟩ := bootMetadata_ends third
        cases eq
  · refine ⟨rfl, .inr ⟨rfl, .inr fun can => ?_⟩⟩
    obtain ⟨setup, fits⟩ := can.setup
    rw [fits] at eq
    cases eq

end

end Provisions

end NodeProvisioner
