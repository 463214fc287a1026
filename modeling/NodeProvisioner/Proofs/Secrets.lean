import NodeProvisioner.Proofs.Crypto.Ecdsa
import NodeProvisioner.Proofs.Runs.ControlPlanes

/-!
# Secrets

Two secrets go into metadata: the private key of the authority and tokens to join with. Which of
them a machine gets is up to its roles. What is made for a worker does not depend on the authority;
it takes one token, which is asked for when nothing that could be known before is left to fail it.
What is made for a machine that runs the control plane takes no token, and depends on nothing but
the inputs, apart from the server's key and certificate, which are new each time. That they can be
made is no matter of chance, with the signatures in use (`IsSteady.elliptic`).

Main statement: `Provisions.bootMetadata_secrets`.
-/

namespace NodeProvisioner

/-- Whether keys can be made, written down and signed with does not depend on random bytes, nor on
what is signed. -/
structure SignatureSystem.IsSteady (S : SignatureSystem) : Prop where
  publishes : ∀ seed seed', (S.publicInfo? (S.generate seed)).isSome
    = (S.publicInfo? (S.generate seed')).isSome
  writes : ∀ seed seed', (S.write? (S.generate seed)).isSome
    = (S.write? (S.generate seed')).isSome
  signs : ∀ key nonce nonce' message message', (S.sign? key nonce message).isSome
    = (S.sign? key nonce' message').isSome

theorem SignatureSystem.IsSteady.transparent : SignatureSystem.transparent.IsSteady :=
  ⟨fun _ _ => rfl, fun _ _ => rfl, fun _ _ _ _ _ => rfl⟩

/-- The signatures in use are steady: where a number that is drawn is of no use, there is another
that is. -/
theorem SignatureSystem.IsSteady.elliptic : SignatureSystem.elliptic.IsSteady where
  publishes seed seed' := (PrivateKey.isSome_publicInfo?_generate seed).trans
    (PrivateKey.isSome_publicInfo?_generate seed').symm
  writes seed seed' := (PrivateKey.isSome_encode?_generate seed).trans
    (PrivateKey.isSome_encode?_generate seed').symm
  signs key nonce nonce' message message' := Bool.eq_iff_iff.mpr
    ((isSome_signMessage?_iff key nonce message).trans
      (isSome_signMessage?_iff key nonce' message').symm)

/-- The metadata is the same, except that each may have a key and a certificate of its own for the
server; both have them, or none does. -/
def SameButServer (a b : StringMap String) : Prop :=
  ∀ key, a.get? key = b.get? key ∨
    (key = serverCertificateKey ∨ key = serverPrivateKey) ∧
      (a.get? key).isSome = true ∧ (b.get? key).isSome = true

/-- Making metadata has failed in the same way, or has made the same but for the server. -/
def SameResult : Except BootstrapError (StringMap String) →
    Except BootstrapError (StringMap String) → Prop
  | .ok a, .ok b => SameButServer a b
  | .error e, .error e' => e = e'
  | _, _ => False

theorem SameResult.refl : ∀ r : Except BootstrapError (StringMap String), SameResult r r
  | .ok _ => fun _ => .inl rfl
  | .error _ => rfl

/-- What goes on alike from the same result ends alike. -/
theorem SameResult.bind {α : Type} (r : Except BootstrapError α)
    {f g : α → Except BootstrapError (StringMap String)} (h : ∀ a, SameResult (f a) (g a)) :
    SameResult (r >>= f) (r >>= g) := by
  cases r with
  | ok a => exact h a
  | error e => exact SameResult.refl (.error e)

/-- What keeps metadata alike keeps results alike. -/
theorem SameResult.map {f : StringMap String → StringMap String}
    (h : ∀ a b, SameButServer a b → SameButServer (f a) (f b)) :
    ∀ {r r' : Except BootstrapError (StringMap String)}, SameResult r r' →
      SameResult (do return f (← r)) (do return f (← r'))
  | .ok a, .ok b, same => h a b same
  | .error _, .error _, same => same
  | .ok _, .error _, same => same
  | .error _, .ok _, same => same

theorem SameButServer.insert {a b : StringMap String} (h : SameButServer a b)
    (key value : String) : SameButServer (a.insert key value) (b.insert key value) := by
  intro k
  rw [StringMap.get?_insert, StringMap.get?_insert]
  split
  · exact .inl rfl
  · exact h k

/-! ## The server's certificate -/

/-- Two computations that go on alike both have a result if both have a first one. -/
theorem isSome_bind_congr {α β γ : Type} {x : Option α} {y : Option β} {f : α → Option γ}
    {g : β → Option γ} (first : x.isSome = y.isSome)
    (rest : ∀ a b, (f a).isSome = (g b).isSome) : (x >>= f).isSome = (y >>= g).isSome := by
  match x, y, first with
  | none, none, _ => rfl
  | some a, some b, _ => exact rest a b

namespace KeyPair

variable {S : SignatureSystem} {ca : KeyPair}

theorem isSome_sign? (steady : S.IsSteady) (r : CertificateRequest) (o o' : Occasion)
    (i : Issuer S) (info info' : List UInt8) :
    (sign? S r o i info).isSome = (sign? S r o' i info').isSome := by
  unfold sign?
  cases S.algorithm? i.key with
  | none => rfl
  | some kind =>
    change (S.sign? i.key o.nonce _ >>= _).isSome = (S.sign? i.key o'.nonce _ >>= _).isSome
    exact isSome_bind_congr (steady.signs i.key o.nonce o'.nonce _ _) fun _ _ => rfl

/-- The certificate and the key that are issued, unless one of the steps on the way fails. -/
def issued? (S : SignatureSystem) (r : CertificateRequest) (o : Occasion) (i : Issuer S)
    (key : S.Key) : Option KeyPair := do
  let bytes ← sign? S r o i (← S.publicInfo? key)
  let secret ← S.write? key
  return ⟨Pem.encode "CERTIFICATE" bytes, Pem.encode "PRIVATE KEY" secret⟩

theorem issue_eq (r : CertificateRequest) (o : Occasion) (i : Issuer S) (key : S.Key) :
    issue S r o i key = (issued? S r o i key).elim
      (.error (.signing (.other "unable to sign the certificate"))) .ok := by
  simp only [issue, issued?]
  split
  · rename_i pair made
    rw [made]
    rfl
  · rename_i failed
    rw [failed]
    rfl

/-- Whether a certificate can be issued does not depend on the occasion. -/
theorem issue_steady (steady : S.IsSteady) (r : CertificateRequest) (o o' : Occasion)
    (i : Issuer S) : (issue S r o i (S.generate o.keySeed)).map (fun _ => ())
      = (issue S r o' i (S.generate o'.keySeed)).map (fun _ => ()) := by
  have issued (x y : Option KeyPair) (e : PkiError) : x.isSome = y.isSome →
      (x.elim (.error e) .ok : Except PkiError KeyPair).map (fun _ => ())
        = (y.elim (.error e) .ok : Except PkiError KeyPair).map (fun _ => ()) := by
    cases x <;> cases y <;> intro same <;> first | rfl | cases same
  rw [issue_eq, issue_eq]
  refine issued _ _ _ (isSome_bind_congr (steady.publishes o.keySeed o'.keySeed)
    fun info info' => ?_)
  refine isSome_bind_congr (isSome_sign? steady r o o' i info info') fun _ _ => ?_
  exact isSome_bind_congr (steady.writes o.keySeed o'.keySeed) fun _ _ => rfl

theorem newServer_steady (steady : S.IsSteady) (commonName : String) (names : AltNames)
    (o o' : Occasion) : (ca.newServer S commonName names o).map (fun _ => ())
      = (ca.newServer S commonName names o').map (fun _ => ()) := by
  unfold newServer
  cases names.check with
  | error e => rfl
  | ok _ =>
    cases ca.issuer S with
    | error e => rfl
    | ok issuer => exact issue_steady steady _ o o' issuer

end KeyPair

namespace Provisions

variable {S : SignatureSystem} {p : Provisions} {o o' : Occasion} {c : Cluster} {m : Machine}
  {project : String} {spec : MachineProviderSpec}

theorem sameButServer_withPairs (metadata : StringMap String) (ca server server' : KeyPair) :
    SameButServer (withPairs metadata ca server) (withPairs metadata ca server') := by
  intro key
  simp only [withPairs, List.foldl_cons, List.foldl_nil, StringMap.get?_insert]
  by_cases secret : key = serverPrivateKey
  · rw [if_pos secret, if_pos secret]
    exact .inr ⟨.inr secret, rfl, rfl⟩
  · rw [if_neg secret, if_neg secret]
    by_cases certificate : key = serverCertificateKey
    · rw [if_pos certificate, if_pos certificate]
      exact .inr ⟨.inl certificate, rfl, rfl⟩
    · rw [if_neg certificate, if_neg certificate]
      exact .inl rfl

/-- What the authority adds is the same on all occasions, but for the server. -/
theorem sameResult_withCertificates (steady : S.IsSteady) (metadata : StringMap String) :
    SameResult (p.withCertificates S o c m spec metadata)
      (p.withCertificates S o' c m spec metadata) := by
  unfold withCertificates
  cases p.authority with
  | none => exact .refl _
  | some ca =>
    have same : (p.serverCertificate S o ca c m spec).map (fun _ => ())
        = (p.serverCertificate S o' ca c m spec).map (fun _ => ()) :=
      KeyPair.newServer_steady steady _ _ o o'
    simp only
    cases first : p.serverCertificate S o ca c m spec <;>
      cases second : p.serverCertificate S o' ca c m spec <;>
      rw [first, second] at same <;> cases same
    · exact SameResult.refl (.error _)
    · exact sameButServer_withPairs metadata ca _ _

theorem sameResult_controlPlaneMetadata (steady : S.IsSteady) :
    SameResult (p.controlPlaneMetadata S o c m project spec)
      (p.controlPlaneMetadata S o' c m project spec) := by
  refine .bind _ fun _ => .bind _ fun setup => ?_
  have certified : SameResult (p.certifiedMetadata S o c m project spec setup.items)
      (p.certifiedMetadata S o' c m project spec setup.items) :=
    .bind _ fun _ => .bind _ fun plain => sameResult_withCertificates steady plain
  exact .map (fun a b same => same.insert _ _) certified

/-! ## Workers -/

theorem bootMetadata_worker (worker : spec.isMaster = false) (S' : SignatureSystem)
    (o' : Occasion) (authority : Option KeyPair) :
    ({ p with authority } : Provisions).bootMetadata S' o' c m project spec
      = p.bootMetadata S o c m project spec := by
  simp only [bootMetadata, roleMetadata, worker]
  rfl

theorem create_of_refused {e : Error} (refused : Site.of c m = .error e) :
    p.create S o c m = Pass.ofExcept (.error e) := by
  unfold create
  rw [refused]
  rfl

theorem create_of_sited {site : Site} (sited : Site.of c m = .ok site) :
    p.create S o c m = (do
      let outcome ← p.ensure S o c m site
      let _ ← Pass.record m
      return outcome) := by
  unfold create
  rw [sited]
  rfl

/-- The instance of a worker is made with no regard to the authority. -/
theorem create_worker (asked : MachineProviderSpec.ofMachine m = .ok spec)
    (worker : spec.isMaster = false) (S' : SignatureSystem) (o' : Occasion)
    (authority : Option KeyPair) :
    ({ p with authority } : Provisions).create S' o' c m = p.create S o c m := by
  cases sited : Site.of c m with
  | error e => rw [create_of_refused sited, create_of_refused sited]
  | ok site =>
    obtain rfl : spec = site.spec :=
      Except.ok.inj (asked.symm.trans (Site.ofMachine_of_ok sited).1)
    have blueprint : ({ p with authority } : Provisions).blueprint S' o' c m site
        = p.blueprint S o c m site := by
      simp only [Provisions.blueprint, setupFor,
        bootMetadata_worker (S := S) (o := o) worker S' o' authority]
    have ensure : ({ p with authority } : Provisions).ensure S' o' c m site
        = p.ensure S o c m site := by
      simp only [Provisions.ensure, blueprint]
    rw [create_of_sited sited, create_of_sited sited, ensure]

variable (p m spec) in
theorem setupFor_cases : (∃ setup, p.setupFor m spec = .ok setup ∧
      (p.setups.all.filter (·.fits (.ofMachine spec m.spec.versions))).length = 1) ∨
    (∃ e, p.setupFor m spec = .error e) ∧
      (p.setups.all.filter (·.fits (.ofMachine spec m.spec.versions))).length ≠ 1 := by
  unfold setupFor Setups.resolve
  generalize p.setups.all.filter _ = fitting
  match fitting with
  | [] => exact .inr ⟨⟨_, rfl⟩, nofun⟩
  | [setup] => exact .inl ⟨setup, rfl, rfl⟩
  | _ :: _ :: _ => exact .inr ⟨⟨_, rfl⟩, nofun⟩

/-- What the role of a worker calls for takes one call, for a token. -/
theorem roleMetadata_worker (worker : spec.isMaster = false) (items : List MetadataItem) :
    (p.roleMetadata S o c m project spec items).run = .call .createToken fun answer =>
      .done (Except.bind answer fun token => nodeMetadata (Text.trim token) c m project items) := by
  simp only [roleMetadata, worker]
  refine congrArg (Program.call Call.createToken) (funext fun answer => ?_)
  cases answer with
  | error e => rfl
  | ok token => exact run_ofExcept (nodeMetadata (Text.trim token) c m project items)

/-- A token is asked for once, if the version is given and one setup fits, and nothing else. -/
theorem calls_worker (worker : spec.isMaster = false) {σ : Type}
    (world : Program.World Call.Answer σ) (s : σ) :
    ((p.bootMetadata S o c m project spec).run.run world s).2.1 =
      if m.spec.versions.kubelet ≠ "" ∧
        (p.setups.all.filter (·.fits (.ofMachine spec m.spec.versions))).length = 1
      then [.createToken] else [] := by
  unfold bootMetadata
  obtain ⟨missing, eq⟩ | ⟨given, eq⟩ := requireVersion_cases .kubelet m.spec.versions.kubelet
  · rw [eq, if_neg fun both => both.1 missing]
    rfl
  · rw [eq]
    obtain ⟨setup, fits, one⟩ | ⟨⟨e, unfit⟩, other⟩ := setupFor_cases p m spec
    · rw [fits, if_pos ⟨given, one⟩]
      change (((p.roleMetadata S o c m project spec setup.items).run.bind _).run world s).2.1 = _
      rw [Program.run_bind, roleMetadata_worker worker]
      simp only [Program.run]
      cases Except.bind (world .createToken s).1 fun token =>
        nodeMetadata (Text.trim token) c m project setup.items <;> rfl
    · rw [unfit, if_neg fun both => other both.2]
      rfl

/-- **Secrets follow the roles.** What is made for a worker is the same for all authorities, and
takes one token if the version of its software is given and one setup fits it, and none otherwise.
What is made for a machine that runs the control plane takes no token, so it does not depend on who
issues them; from one occasion to another it is the same but for the server's key and
certificate. -/
theorem bootMetadata_secrets (S : SignatureSystem) (p : Provisions) (o : Occasion) (c : Cluster)
    (m : Machine) (project : String) (spec : MachineProviderSpec) :
    (Role.master ∉ spec.roles →
      (∀ S' o' authority,
        ({ p with authority } : Provisions).bootMetadata S' o' c m project spec
          = p.bootMetadata S o c m project spec ∧
        (MachineProviderSpec.ofMachine m = .ok spec →
          ({ p with authority } : Provisions).create S' o' c m = p.create S o c m)) ∧
      ∀ {σ : Type} (world : Program.World Call.Answer σ) (s : σ),
        ((p.bootMetadata S o c m project spec).run.run world s).2.1 =
          if m.spec.versions.kubelet ≠ "" ∧
            (p.setups.all.filter (·.fits (.ofMachine spec m.spec.versions))).length = 1
          then [.createToken] else []) ∧
    (Role.master ∈ spec.roles →
      ∃ result : Occasion → Except BootstrapError (StringMap String),
        (∀ o {σ : Type} (world : Program.World Call.Answer σ) (s : σ),
          (p.bootMetadata S o c m project spec).run.run world s = (some (result o), [], s)) ∧
        (p.authority = none → ∀ o o', result o = result o') ∧
        (S.IsSteady → ∀ o o', SameResult (result o) (result o'))) := by
  constructor
  · intro worker
    have worker : spec.isMaster = false := by simpa [MachineProviderSpec.isMaster] using worker
    exact ⟨fun S' o' authority => ⟨bootMetadata_worker worker S' o' authority,
      fun asked => create_worker asked worker S' o' authority⟩, calls_worker worker⟩
  · intro master
    have master : spec.isMaster = true := by simpa [MachineProviderSpec.isMaster] using master
    refine ⟨fun o => p.controlPlaneMetadata S o c m project spec, fun o _ world s => ?_,
      fun none o o' => ?_, fun steady o o' => sameResult_controlPlaneMetadata steady⟩
    · rw [bootMetadata_master master]
      rfl
    · simp only [controlPlaneMetadata, certifiedMetadata, withCertificates, none]

/-- A worker whose cluster has got an authority, and a machine with all roles on two occasions. -/
theorem bootMetadata_secrets_of_worker_and_master :
    let c := Cluster.reachable "project" ⟨"10.0.0.1", 443⟩
    let worker := Machine.worker "default" "worker" "zone-a" "small" "1.9.4"
    let master := Machine.allRoles "default" "master" "zone-a" "small" "1.9.4"
    let spec : MachineProviderSpec :=
      { roles := [.node, .master], zone := "zone-a", machineType := "small" }
    let workers := Provisions.ofWorkers "image" "1.9.4"
    let masters := Provisions.ofAllRoles "image" "1.9.4"
    ({ workers with authority := some .simpleAuthority } : Provisions).create .transparent default
        c worker = workers.create .elliptic default c worker ∧
      (∀ {σ : Type} (world : Program.World Call.Answer σ) (s : σ),
        ((workers.bootMetadata .elliptic default c worker "project"
          { roles := [.node], zone := "zone-a", machineType := "small" }).run.run world s).2.1
          = [.createToken]) ∧
      ∀ o o', ∃ a b, SameButServer a b ∧ ∀ {σ : Type} (world : Program.World Call.Answer σ) (s : σ),
        (masters.bootMetadata .transparent o c master "project" spec).run.run world s
          = (some (.ok a), [], s) ∧
        (masters.bootMetadata .transparent o' c master "project" spec).run.run world s
          = (some (.ok b), [], s) := by
  intro c worker master spec workers masters
  have cluster := ClusterProviderSpec.ofCluster_reachable (show "project" ≠ "" by decide)
    ⟨"10.0.0.1", 443⟩
  obtain ⟨same, calls⟩ := (bootMetadata_secrets .elliptic workers default c worker "project"
    { roles := [.node], zone := "zone-a", machineType := "small" }).1 (by decide)
  have asked := Machine.ofMachine_worker "default" "worker" "zone-a" "small" "1.9.4"
    (by decide) (by decide)
  refine ⟨(same .transparent default (some .simpleAuthority)).2 asked, fun world s => ?_, ?_⟩
  · rw [calls world s, if_pos ⟨by decide, by decide⟩]
  · obtain ⟨result, eq, -, alike⟩ := (bootMetadata_secrets .transparent masters default c master
      "project" spec).2 (by decide)
    have made (o : Occasion) : ∃ metadata, result o = .ok metadata := by
      obtain ⟨metadata, made⟩ := made_ofAllRoles cluster "image" "default" "master"
        (show "zone-a" ≠ "" by decide) (show "small" ≠ "" by decide) (show "1.9.4" ≠ "" by decide)
        rfl (fun call (s : Unit) => (call.welcome, s)) o "project" ()
      exact ⟨metadata, Option.some.inj (congrArg Prod.fst ((eq o _ ()).symm.trans made))⟩
    intro o o'
    obtain ⟨a, first⟩ := made o
    obtain ⟨b, second⟩ := made o'
    have same := alike .transparent o o'
    rw [first, second] at same
    exact ⟨a, b, same, fun world s => ⟨first ▸ eq o world s, second ▸ eq o' world s⟩⟩

end Provisions

end NodeProvisioner
