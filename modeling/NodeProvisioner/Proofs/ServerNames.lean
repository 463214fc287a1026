import NodeProvisioner.Proofs.Runs.ControlPlanes

/-!
# Names of API servers

A worker joins its cluster at the host of the first API endpoint. It can trust what it finds there
only if the certificate of the API server covers that host. A host that is an address is covered, as
all endpoints go into the certificate as addresses; a host with a name is not, unless it happens to
be a name that the certificate has anyway.

Main statement: `Provisions.endpoint_covered_iff`.
-/

namespace NodeProvisioner

/-! ## Lines of scripts -/

/-- The text has a line. -/
def HasLine (text line : String) : Prop :=
  ∃ before after, text = before ++ line ++ "\n" ++ after ∧
    (before = "" ∨ ∃ start, before = start ++ "\n")

theorem HasLine.append {text line : String} (h : HasLine text line) (more : String) :
    HasLine (text ++ more) line := by
  obtain ⟨before, after, rfl, starts⟩ := h
  exact ⟨before, after ++ more, String.append_assoc .., starts⟩

/-- A text that goes on after a line has the lines that come there. -/
theorem HasLine.after {text line : String} (h : HasLine text line) (first : String) :
    HasLine (first ++ "\n" ++ text) line := by
  obtain ⟨before, after, rfl, starts⟩ := h
  refine ⟨first ++ "\n" ++ before, after, by simp only [String.append_assoc], .inr ?_⟩
  obtain rfl | ⟨start, rfl⟩ := starts
  · exact ⟨first, String.append_empty⟩
  · exact ⟨first ++ "\n" ++ start, by simp only [String.append_assoc]⟩

namespace Script

/-- Every line of a script is a line of what it is rendered to. -/
theorem hasLine_of_renderLines {s : Script} {p : BootParams} :
    ∀ {lines : List ScriptLine} {number : Nat} {text : String},
      s.renderLines p number lines = .ok text → ∀ {line value}, line ∈ lines →
      line.render p = some value → HasLine text value
  | first :: rest, number, text, rendered, line, value, mem, eq => by
    unfold renderLines at rendered
    cases start : first.render p with
    | none =>
      rw [start] at rendered
      cases rendered
    | some shown =>
      rw [start] at rendered
      obtain ⟨more, following, eq'⟩ := bind_eq_ok_iff.mp rendered
      obtain rfl := Except.ok.inj eq'
      obtain rfl | mem := List.mem_cons.mp mem
      · obtain rfl := Option.some.inj (start.symm.trans eq)
        exact ⟨"", more, by rw [String.empty_append], .inl rfl⟩
      · exact (hasLine_of_renderLines following mem eq).after shown

end Script

/-- Items are appended to the script, if they go there at all. -/
theorem get?_appendedItems (script : String) : ∀ (items : List MetadataItem)
    {metadata : StringMap String} (more : String),
    metadata.get? scriptKey = some (script ++ more) →
    ∃ more, (items.foldl (fun m item =>
      m.insert item.name ((m.get? item.name).getD "" ++ item.value)) metadata).get? scriptKey
        = some (script ++ more)
  | [], _, more, found => ⟨more, found⟩
  | item :: rest, metadata, more, found => by
    by_cases named : scriptKey = item.name
    · refine get?_appendedItems script rest (more ++ item.value) ?_
      rw [StringMap.get?_insert, if_pos named, ← named, found, Option.getD_some,
        String.append_assoc]
    · refine get?_appendedItems script rest more ?_
      rw [StringMap.get?_insert, if_neg named, found]

/-- The script of a worker says where the first endpoint of its cluster is. -/
theorem hasLine_nodeMetadata {c : Cluster} {endpoint : ApiEndpoint} {rest : List ApiEndpoint}
    (endpoints : c.endpoints = endpoint :: rest) {token project : String} {m : Machine}
    {items : List MetadataItem} {metadata : StringMap String}
    (made : nodeMetadata token c m project items = .ok metadata) :
    ∃ script, metadata.get? scriptKey = some script ∧
      HasLine script s!"MASTER={endpoint.host}:{endpoint.port.toInt}" := by
  obtain ⟨params, given, made⟩ := bind_eq_ok_iff.mp made
  obtain ⟨script, rendered, made⟩ := bind_eq_ok_iff.mp made
  obtain rfl := Except.ok.inj made
  rw [BootParams.forNode, endpoints] at given
  obtain rfl := Except.ok.inj given
  have joins : ScriptLine.assign "MASTER" (·.masterEndpoint) ∈ Script.node.lines := by
    simp [Script.node]
  have line := Script.hasLine_of_renderLines rendered joins rfl
  have first : (StringMap.empty.insert scriptKey script).get? scriptKey = some (script ++ "") := by
    rw [StringMap.get?_insert, if_pos rfl, String.append_empty]
  obtain ⟨more, found⟩ := get?_appendedItems script items "" first
  refine ⟨_, found, ?_⟩
  have same : "MASTER" ++ "=" ++ endpoint.address
      = s!"MASTER={endpoint.host}:{endpoint.port.toInt}" := by
    change "MASTER" ++ "=" ++ (endpoint.host ++ ":" ++ toString endpoint.port.toInt)
      = "MASTER" ++ "=" ++ endpoint.host ++ ":" ++ toString endpoint.port.toInt
    simp only [String.append_assoc]
  exact same ▸ line.append more

/-! ## Names of certificates -/

/-- The names are good for a host: by its address, if the host is one, else by its name. -/
def AltNames.Covers (names : AltNames) (host : String) : Prop :=
  match IpAddress.parse host with
  | some address => address ∈ names.addresses
  | none => host ∈ names.dnsNames

namespace Provisions

variable {S : SignatureSystem} {p : Provisions} {o : Occasion} {c : Cluster} {m : Machine}
  {project : String} {spec : MachineProviderSpec}

/-- The host of an endpoint is covered if it is an address, or a name of the machine or of the
service. -/
theorem covers_serverNames_iff {endpoint : ApiEndpoint} (mem : endpoint ∈ c.endpoints) :
    (p.serverNames c m spec).Covers endpoint.host ↔
      (IpAddress.parse endpoint.host).isSome = true ∨ m.metadata.name = some endpoint.host ∨
      endpoint.host ∈ serviceNames p.config.apiServer.serviceName
        p.config.apiServer.serviceNamespace (p.domainOf c) := by
  unfold AltNames.Covers
  cases parsed : IpAddress.parse endpoint.host with
  | some address =>
    have covered : address ∈ (p.serverNames c m spec).addresses :=
      List.mem_filterMap.mpr ⟨endpoint.host, by
        simp only [List.mem_append]
        exact .inl (.inl (List.mem_map_of_mem mem)), parsed⟩
    exact ⟨fun _ => .inl rfl, fun _ => covered⟩
  | none =>
    change endpoint.host ∈ m.metadata.name.toList ++ serviceNames _ _ _ ↔ _
    rw [List.mem_append, Option.mem_toList, Option.isSome_none]
    exact ⟨.inr, fun h => h.resolve_left nofun⟩

theorem get?_withPairs_certificate (metadata : StringMap String) (ca server : KeyPair) :
    (withPairs metadata ca server).get? serverCertificateKey
      = some (Base64.encodeText server.certificate) := by
  simp only [withPairs, List.foldl_cons, List.foldl_nil, StringMap.get?_insert, if_true]
  rw [if_neg (by decide)]

/-- The certificate in the metadata of a machine that runs the control plane is the one issued for
its API server. -/
theorem get?_serverCertificate {ca : KeyPair} (authority : p.authority = some ca)
    {metadata : StringMap String}
    (made : p.controlPlaneMetadata S o c m project spec = .ok metadata) :
    ∃ server, p.serverCertificate S o ca c m spec = .ok server ∧
      metadata.get? serverCertificateKey = some (Base64.encodeText server.certificate) := by
  obtain ⟨_, -, made⟩ := bind_eq_ok_iff.mp made
  obtain ⟨setup, -, made⟩ := bind_eq_ok_iff.mp made
  obtain ⟨certified, role, made⟩ := bind_eq_ok_iff.mp made
  obtain ⟨_, -, role⟩ := bind_eq_ok_iff.mp role
  obtain ⟨plain, -, role⟩ := bind_eq_ok_iff.mp role
  rw [withCertificates, authority] at role
  obtain ⟨server, issued, role⟩ := bind_eq_ok_iff.mp role
  obtain rfl := Except.ok.inj role
  obtain rfl := Except.ok.inj made
  refine ⟨server, ?_, ?_⟩
  · exact mapError_eq_ok_iff.mp issued
  · rw [StringMap.get?_insert, if_neg (by decide)]
    exact get?_withPairs_certificate plain ca server

/-- **A worker can trust the endpoint that it joins** if and only if the endpoint's host is an
address, or has a name that the certificate of the API server has anyway: the machine's, or one of
the service's. -/
theorem endpoint_covered_iff {ca : KeyPair} {endpoint : ApiEndpoint} {rest : List ApiEndpoint}
    {metadata : StringMap String} {σ : Type} {world : Program.World Call.Answer σ} {s t : σ}
    {calls : List Call} (endpoints : c.endpoints = endpoint :: rest)
    (authority : p.authority = some ca) (master : Role.master ∈ spec.roles)
    (made : (p.bootMetadata S o c m project spec).run.run world s
      = (some (.ok metadata), calls, t)) :
    (∀ {token project worker items metadata},
      nodeMetadata token c worker project items = .ok metadata →
      ∃ script, metadata.get? scriptKey = some script ∧
        HasLine script s!"MASTER={endpoint.host}:{endpoint.port.toInt}") ∧
    (∃ server, ca.newServer S p.config.apiServer.commonName (p.serverNames c m spec) o
        = .ok server ∧
      metadata.get? serverCertificateKey = some (Base64.encodeText server.certificate)) ∧
    ((p.serverNames c m spec).Covers endpoint.host ↔
      (IpAddress.parse endpoint.host).isSome = true ∨ m.metadata.name = some endpoint.host ∨
      endpoint.host ∈ serviceNames p.config.apiServer.serviceName
        p.config.apiServer.serviceNamespace (p.domainOf c)) := by
  have master : spec.isMaster = true := by simpa [MachineProviderSpec.isMaster] using master
  rw [bootMetadata_master master] at made
  have made := Option.some.inj (congrArg Prod.fst made)
  exact ⟨hasLine_nodeMetadata endpoints, get?_serverCertificate authority made,
    covers_serverNames_iff (endpoints ▸ List.mem_cons_self)⟩

/-- The certificate of a machine covers an endpoint that is given by its address. -/
theorem endpoint_covered_of_address :
    let p := Provisions.ofAllRoles "image" "1.9.4"
    let c := Cluster.reachable "project" ⟨"10.0.0.1", 443⟩
    let m := Machine.allRoles "default" "master" "zone-a" "small" "1.9.4"
    let spec : MachineProviderSpec :=
      { roles := [.node, .master], zone := "zone-a", machineType := "small" }
    ∃ metadata, (p.bootMetadata .transparent default c m "project" spec).run.run
        (fun call (s : Unit) => (call.welcome, s)) () = (some (.ok metadata), [], ()) ∧
      (metadata.get? serverCertificateKey).isSome = true ∧
      (p.serverNames c m spec).Covers "10.0.0.1" := by
  intro p c m spec
  have cluster := ClusterProviderSpec.ofCluster_reachable (show "project" ≠ "" by decide)
    ⟨"10.0.0.1", 443⟩
  obtain ⟨metadata, made⟩ := made_ofAllRoles cluster "image" "default" "master"
    (show "zone-a" ≠ "" by decide) (show "small" ≠ "" by decide) (show "1.9.4" ≠ "" by decide) rfl
    (fun call (s : Unit) => (call.welcome, s)) default "project" ()
  have master : Role.master ∈ spec.roles := by decide
  obtain ⟨-, ⟨server, -, found⟩, covered⟩ := endpoint_covered_iff rfl rfl master made
  exact ⟨metadata, made, found ▸ rfl, covered.mpr (.inl (by decide))⟩

/-- The certificate of a machine does not cover an endpoint that is given by its name. -/
theorem endpoint_uncovered :
    let p := Provisions.ofAllRoles "image" "1.9.4"
    let c := Cluster.reachable "project" ⟨"api.example.com", 443⟩
    let m := Machine.allRoles "default" "master" "zone-a" "small" "1.9.4"
    let spec : MachineProviderSpec :=
      { roles := [.node, .master], zone := "zone-a", machineType := "small" }
    (∃ metadata, (p.bootMetadata .transparent default c m "project" spec).run.run
        (fun call (s : Unit) => (call.welcome, s)) () = (some (.ok metadata), [], ())) ∧
      ¬ (p.serverNames c m spec).Covers "api.example.com" := by
  intro p c m spec
  have cluster := ClusterProviderSpec.ofCluster_reachable (show "project" ≠ "" by decide)
    ⟨"api.example.com", 443⟩
  refine ⟨made_ofAllRoles cluster "image" "default" "master" (by decide) (by decide) (by decide) rfl
    _ default "project" (), fun covered => ?_⟩
  have mem : (⟨"api.example.com", 443⟩ : ApiEndpoint) ∈ c.endpoints := List.mem_singleton_self _
  have names := (covers_serverNames_iff mem).mp covered
  revert names
  decide

end Provisions

end NodeProvisioner
