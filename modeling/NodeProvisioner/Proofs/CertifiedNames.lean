import NodeProvisioner.Proofs.Runs.Buildable
import NodeProvisioner.Proofs.Signing

/-!
# Names on server certificates

A server certificate is asked for with texts that should be addresses and with names. On the way to
whoever reads the certificate they are filtered, written into an extension and read back. What
arrives are the addresses among the texts and all of the names, in the order in which they were
given. A text that is no address is left out on the way; a name that cannot be written stops the
certificate from being issued.

Main statement: `KeyPair.newServer_ofService`.
-/

namespace NodeProvisioner

open Der

/-! ## Texts and names as bytes -/

theorem toList_loop_eq (bytes : ByteArray) (i : Nat) (before : List UInt8) :
    ByteArray.toList.loop bytes i before = before.reverse ++ bytes.data.toList.drop i := by
  fun_induction ByteArray.toList.loop bytes i before with
  | case1 i before inside ih =>
    have next : bytes.get! i = bytes.data.toList.get ⟨i, inside⟩ := getElem!_pos bytes.data i inside
    rw [ih, next, List.reverse_cons, List.append_assoc, List.singleton_append, List.get_eq_getElem,
      List.getElem_cons_drop]
  | case2 i before outside =>
    rw [List.drop_eq_nil_of_le (Nat.le_of_not_lt outside), List.append_nil]

/-- A text is read from its bytes. -/
theorem textOf?_toUTF8 (s : String) : textOf? s.toUTF8.toList = some s := by
  have bytes : s.toUTF8.toList = s.toUTF8.data.toList := toList_loop_eq s.toUTF8 0 []
  rw [textOf?, bytes, Array.toArray_toList]
  exact dif_pos s.isValidUTF8

namespace Certificate

theorem reads_generalName_address (bytes : List UInt8) :
    Reads generalName (taggedBytes 7 bytes) (.address bytes) := by
  intro fits rest
  have read : any.run (taggedBytes 7 bytes ++ rest) = some (⟨0x87, 7, bytes⟩, rest) :=
    reads_any (by decide) bytes fits rest
  simp only [generalName, StateT.run] at read ⊢
  simp [read]

theorem reads_generalName_dns {bytes : List UInt8} {s : String} (text : textOf? bytes = some s) :
    Reads generalName (taggedBytes 2 bytes) (.dns s) := by
  intro fits rest
  have read : any.run (taggedBytes 2 bytes ++ rest) = some (⟨0x82, 2, bytes⟩, rest) :=
    reads_any (by decide) bytes fits rest
  simp only [generalName, StateT.run] at read ⊢
  simp [read, text]

/-- The names of a server as they come to stand in its certificate: each with its bytes. -/
def written (names : AltNames) : List (List UInt8 × GeneralName) :=
  names.addresses.map (fun a => (taggedBytes 7 a.octets, .address a.octets)) ++
    names.dnsNames.map fun s => (taggedBytes 2 s.toUTF8.toList, .dns s)

/-- **Names are read back as they were written.** -/
theorem reads_generalNames (names : AltNames) :
    Reads generalNames (CertificateRequest.encodeNames names) ((written names).map (·.2)) := by
  have bytes : CertificateRequest.encodeNames names = sequenceOf ((written names).map (·.1)) := by
    simp [CertificateRequest.encodeNames, written, Function.comp_def]
  have each : ∀ item ∈ written names, Reads generalName item.1 item.2 ∧ item.1 ≠ [] := by
    rw [written, List.forall_mem_append, List.forall_mem_map, List.forall_mem_map]
    exact ⟨fun _ _ => ⟨reads_generalName_address _, encode_ne_nil _ _⟩,
      fun s _ => ⟨reads_generalName_dns (textOf?_toUTF8 s), encode_ne_nil _ _⟩⟩
  rw [bytes]
  exact reads_exactSequence
    (readsAll_row (fun item mem => (each item mem).1) fun item mem => (each item mem).2)

/-- All addresses arrive, as they are of the right length. -/
theorem addresses_dnsNames_of_altNames {c : Certificate} {names : AltNames}
    (read : c.altNames = (written names).map (·.2)) :
    c.addresses = names.addresses ∧ c.dnsNames = names.dnsNames := by
  simp [addresses, dnsNames, read, written, List.filterMap_map, Function.comp_def]

/-! ## Extensions -/

theorem filter_kind_eq_nil {extensions : List Extension} {kind : ObjectId}
    (absent : kind ∉ extensions.map (·.kind)) : extensions.filter (·.kind = kind) = [] := by
  rw [List.filter_eq_nil_iff]
  exact fun e mem same => absent (of_decide_eq_true same ▸ List.mem_map_of_mem mem)

/-- Where no two extensions are of one kind, the kind picks out the extension. -/
theorem filter_kind_of_mem {extensions : List Extension} {e : Extension}
    (distinct : (extensions.map (·.kind)).Nodup) (mem : e ∈ extensions) :
    extensions.filter (·.kind = e.kind) = [e] := by
  induction extensions with
  | nil => cases mem
  | cons first rest ih =>
    rw [List.map_cons, List.nodup_cons] at distinct
    obtain ⟨new, distinct⟩ := distinct
    obtain rfl | mem := List.mem_cons.mp mem
    · rw [List.filter_cons, if_pos (decide_eq_true rfl), filter_kind_eq_nil new]
    · have other : first.kind ≠ e.kind := fun same => new (same ▸ List.mem_map_of_mem mem)
      rw [List.filter_cons, if_neg (by simpa using other), ih distinct mem]

section
variable {c : Certificate} {α : Type} {r : Reader α}

/-- An extension is read for what it was written with. -/
theorem view?_eq_some {e : Extension} {a : α} (distinct : (c.extensions.map (·.kind)).Nodup)
    (mem : e ∈ c.extensions) (fits : e.value.length < 2 ^ 64) (read : Reads r e.value a) :
    c.view? e.kind r = some a := by
  simp [view?, extension?, filter_kind_of_mem distinct mem, read.all fits]

theorem view?_eq_none {kind : ObjectId} (absent : kind ∉ c.extensions.map (·.kind)) :
    c.view? kind r = none := by
  simp [view?, extension?, filter_kind_eq_nil absent]

end

/-- The extensions that a certificate for a server is asked for with: one for its names, if there
are any, and two that are always there. -/
theorem requested_serverRequest (commonName : String) (names : AltNames) :
    (KeyPair.serverRequest commonName names).requested =
      (if names.addresses.isEmpty && names.dnsNames.isEmpty then []
        else [⟨.subjectAltName, false, CertificateRequest.encodeNames names⟩]) ++
      [⟨.keyUsage, true, CertificateRequest.encodeUses [.digitalSignature, .keyEncipherment]⟩,
        ⟨.extendedKeyUsage, false, sequenceOf [identifier ObjectId.serverAuth]⟩] := by
  simp [CertificateRequest.requested, KeyPair.serverRequest]

theorem kinds_requested (commonName : String) (names : AltNames) :
    ((KeyPair.serverRequest commonName names).requested.map (·.kind)).Nodup ∧
      ObjectId.basicConstraints ∉
        (KeyPair.serverRequest commonName names).requested.map (·.kind) := by
  have distinct : [ObjectId.subjectAltName, .keyUsage, .extendedKeyUsage].Nodup ∧
      ObjectId.basicConstraints ∉ [ObjectId.subjectAltName, .keyUsage, .extendedKeyUsage] := by
    decide +kernel
  have kinds : ((KeyPair.serverRequest commonName names).requested.map (·.kind)).Sublist
      [ObjectId.subjectAltName, .keyUsage, .extendedKeyUsage] := by
    rw [requested_serverRequest]
    split
    · exact List.sublist_cons_self _ _
    · exact List.Sublist.refl _
  exact ⟨distinct.1.sublist kinds, fun mem => distinct.2 (kinds.subset mem)⟩

section
variable {c : Certificate} {commonName : String} {names : AltNames}
  (requested : c.extensions = (KeyPair.serverRequest commonName names).requested)
include requested

/-- Without any names there is no extension for them, and none are read. -/
theorem altNames_of_requested (fits : ∀ e ∈ c.extensions, e.value.length < 2 ^ 64) :
    c.altNames = (written names).map (·.2) := by
  have distinct := requested ▸ (kinds_requested commonName names).1
  have extensions := requested.trans (requested_serverRequest commonName names)
  by_cases empty : (names.addresses.isEmpty && names.dnsNames.isEmpty) = true
  · rw [if_pos empty] at extensions
    have absent : ObjectId.subjectAltName ∉ c.extensions.map (·.kind) := by
      rw [extensions]
      decide +kernel
    rw [Bool.and_eq_true, List.isEmpty_iff, List.isEmpty_iff] at empty
    rw [altNames, view?_eq_none absent, written, empty.1, empty.2]
    rfl
  · rw [if_neg empty] at extensions
    have mem : ⟨.subjectAltName, false, CertificateRequest.encodeNames names⟩ ∈ c.extensions := by
      rw [extensions]
      exact List.mem_cons_self
    rw [altNames, view?_eq_some distinct mem (fits _ mem) (reads_generalNames names),
      Option.getD_some]

theorem purposes_of_requested (fits : ∀ e ∈ c.extensions, e.value.length < 2 ^ 64) :
    c.purposes = [.serverAuth] := by
  have distinct := requested ▸ (kinds_requested commonName names).1
  have mem : ⟨.extendedKeyUsage, false, sequenceOf [identifier ObjectId.serverAuth]⟩
      ∈ c.extensions := by
    rw [requested, requested_serverRequest]
    simp
  have row : ReadsAll (row (content objectIdentifier))
      ([ObjectId.serverAuth].map identifier).flatten ([ObjectId.serverAuth].map id) :=
    readsAll_row (fun kind _ => reads_identifier kind) fun _ _ => encode_ne_nil _ _
  rw [purposes, view?_eq_some distinct mem (fits _ mem) (reads_exactSequence row),
    Option.getD_some, List.map_id]

theorem isAuthority_of_requested : c.isAuthority = false := by
  have absent := requested ▸ (kinds_requested commonName names).2
  rw [isAuthority, view?_eq_none absent, Option.getD_none]

end

end Certificate

/-! ## The size of an extension -/

theorem Der.length_le_sequenceOf {part : List UInt8} {parts : List (List UInt8)}
    (mem : part ∈ parts) : part.length ≤ (sequenceOf parts).length :=
  (List.sublist_flatten_of_mem mem).length_le.trans (length_le_encode _ _)

theorem Extension.length_value_le (e : Extension) : e.value.length ≤ e.encode.length := by
  have part : octets e.value ∈ [identifier e.kind] ++ (if e.critical then [truth true] else []) ++
      [octets e.value] := by simp
  exact (length_le_encode _ e.value).trans (length_le_sequenceOf part)

theorem CertificateRequest.length_value_le {r : CertificateRequest} {e : Extension}
    (mem : e ∈ r.requested) (o : Occasion) (kind : ObjectId) (issuer : DistinguishedName)
    (publicInfo : List UInt8) : e.value.length ≤ (r.body o kind issuer publicInfo).length := by
  have listed : e.encode ∈ r.extensions := r.extensions_eq ▸ List.mem_map_of_mem mem
  have wrapped : (sequenceOf r.extensions).length
      ≤ (tagged 3 [sequenceOf r.extensions]).length := by
    rw [tagged, List.flatten_singleton]
    exact length_le_encode _ _
  have last : tagged 3 [sequenceOf r.extensions] ∈ [tagged 0 [natural 2],
      natural (serialNumber o.serial), sequenceOf [identifier kind], issuer.encode,
      sequenceOf [encodeTime o.now.seconds, encodeTime (o.now.seconds + r.days * 86400)],
      (DistinguishedName.ofCommonName r.commonName).encode, publicInfo,
      tagged 3 [sequenceOf r.extensions]] := by simp
  calc e.value.length
    _ ≤ e.encode.length := e.length_value_le
    _ ≤ (sequenceOf r.extensions).length := length_le_sequenceOf listed
    _ ≤ (tagged 3 [sequenceOf r.extensions]).length := wrapped
    _ ≤ (r.body o kind issuer publicInfo).length := length_le_sequenceOf last

/-! ## Names that cannot be written -/

theorem AltNames.exists_check_of_not_isAscii {names : AltNames} {name : String}
    (mem : name ∈ names.dnsNames) (foreign : ¬IsAscii name) :
    ∃ first ∈ names.dnsNames, ¬IsAscii first ∧
      names.check = .error (.signing (.dnsName first)) := by
  cases found : names.dnsNames.find? fun name => name.toList.any (·.toNat ≥ 128) with
  | none =>
    exact absurd ((any_foreign_iff name).mpr foreign) (List.find?_eq_none.mp found name mem)
  | some first =>
    obtain ⟨cannot, -⟩ := List.find?_eq_some_iff_append.mp found
    exact ⟨first, List.mem_of_find?_eq_some found, (any_foreign_iff first).mp cannot,
      by rw [check, found]⟩

/-! ## Certificates of servers -/

/-- The public keys of the system are read as public keys. -/
def SignatureSystem.ShowsKeys (S : SignatureSystem) : Prop :=
  ∀ key bytes, S.publicInfo? key = some bytes →
    ∃ info, Reads Certificate.publicKeyInfo bytes info

theorem SignatureSystem.showsKeys_elliptic : elliptic.ShowsKeys := fun _ _ shown =>
  (exists_reads_elliptic shown).imp fun _ => And.left

theorem SignatureSystem.Exact.showsKeys {S : SignatureSystem}
    {Matches : S.Key → PublicKeyInfo → Prop} (exact : S.Exact Matches) : S.ShowsKeys :=
  fun _ _ shown => (exact.own shown).imp fun _ => And.left

namespace KeyPair

variable {S : SignatureSystem} {o : Occasion} {ca server pair : KeyPair} {names : AltNames}
  {commonName : String}

/-- The text of a certificate is longer than what any of its extensions holds. -/
theorem length_value_le_of_issue {r : CertificateRequest} {i : Issuer S} {key : S.Key}
    (issued : issue S r o i key = .ok pair) {e : Extension} (mem : e ∈ r.requested) :
    e.value.length ≤ pair.certificate.length := by
  obtain ⟨publicInfo, bytes, _, _, signed, _, rfl⟩ := exists_of_issue issued
  have text := Pem.length_le_length_encode "CERTIFICATE" bytes
  simp only [sign?, Option.bind_eq_bind, Option.bind_eq_some_iff, Option.pure_def,
    Option.some.injEq] at signed
  obtain ⟨kind, _, signature, _, rfl⟩ := signed
  have first : r.body o kind i.name publicInfo ∈ [r.body o kind i.name publicInfo,
      sequenceOf [identifier kind], bits signature] := List.mem_cons_self
  exact (CertificateRequest.length_value_le mem o kind i.name publicInfo).trans
    ((length_le_sequenceOf first).trans text)

/-- **The certificate of a server is read with the names it was asked for with**, and as one for
servers only. -/
theorem exists_names_of_newServer (shows : S.ShowsKeys)
    (issued : ca.newServer S commonName names o = .ok server)
    (fits : server.certificate.length < 2 ^ 64) :
    ∃ c, Certificate.ofPem server.certificate = .ok c ∧ c.addresses = names.addresses ∧
      c.dnsNames = names.dnsNames ∧ c.isAuthority = false ∧ c.isForServers = true ∧
      c.isForClients = false := by
  obtain ⟨_, i, _, issued⟩ := newServer_eq_ok_iff.mp issued
  have shows : ∀ {bytes}, S.publicInfo? (S.generate o.keySeed) = some bytes →
      ∃ info, Reads Certificate.publicKeyInfo bytes info ∧ True := fun shown =>
    (shows _ _ shown).imp fun _ read => ⟨read, trivial⟩
  obtain ⟨c, read, _, _, _, requested⟩ := exists_certificate_of_issue shows issued fits
  have short : ∀ e ∈ c.extensions, e.value.length < 2 ^ 64 := fun e mem =>
    Nat.lt_of_le_of_lt (length_value_le_of_issue issued (requested ▸ mem)) fits
  have altNames := Certificate.altNames_of_requested requested short
  have purposes := Certificate.purposes_of_requested requested short
  obtain ⟨addresses, dnsNames⟩ := Certificate.addresses_dnsNames_of_altNames altNames
  refine ⟨c, read _, addresses, dnsNames, Certificate.isAuthority_of_requested requested, ?_, ?_⟩
  · rw [Certificate.isForServers, purposes]
    decide +kernel
  · rw [Certificate.isForClients, purposes]
    decide +kernel

/-- **The names on a server certificate** are the addresses among the texts that are given for
addresses, and the names of the hosts before those of the service. A text that is no address changes
nothing; with a name that is not in ASCII there is no certificate. -/
theorem newServer_ofService (shows : S.ShowsKeys) (ca : KeyPair)
    (commonName service namespaceName domain : String) (addresses hosts : List String)
    (o : Occasion) :
    let certify (addresses : List String) := ca.newServer S commonName
      (.ofService service namespaceName domain addresses hosts) o
    let long := service ++ "." ++ namespaceName
    let dnsNames := hosts ++ [service, long, long ++ ".svc", long ++ ".svc." ++ domain]
    (∀ server, certify addresses = .ok server → server.certificate.length < 2 ^ 64 →
      ∃ c, Certificate.ofPem server.certificate = .ok c ∧
        c.addresses = addresses.filterMap IpAddress.parse ∧ c.dnsNames = dnsNames ∧
        c.isAuthority = false ∧ c.isForServers = true ∧ c.isForClients = false) ∧
    (∀ before text after, addresses = before ++ text :: after → IpAddress.parse text = none →
      certify addresses = certify (before ++ after)) ∧
    (∀ name ∈ dnsNames, ¬IsAscii name → ∃ first ∈ dnsNames, ¬IsAscii first ∧
      certify addresses = .error (.signing (.dnsName first)) ∧
      (PkiError.signing (.dnsName first)).kind = "CertificateSigningFailed") := by
  intro certify long dnsNames
  have dnsNames_eq : (AltNames.ofService service namespaceName domain addresses hosts).dnsNames
      = dnsNames := rfl
  refine ⟨?certified, ?dropped, ?foreign⟩
  case certified =>
    intro server issued fits
    exact exists_names_of_newServer shows issued fits
  case dropped =>
    rintro before text after rfl bad
    have same : AltNames.ofService service namespaceName domain (before ++ text :: after) hosts
        = .ofService service namespaceName domain (before ++ after) hosts := by
      simp [AltNames.ofService, bad]
    exact congrArg (ca.newServer S commonName · o) same
  case foreign =>
    intro name mem foreign
    obtain ⟨first, first_mem, first_foreign, check⟩ :=
      AltNames.exists_check_of_not_isAscii (dnsNames_eq ▸ mem) foreign
    refine ⟨first, first_mem, first_foreign, ?_, rfl⟩
    simp [certify, newServer, check, bind, Except.bind]

/-- Five texts, of which three are addresses and two are the same. -/
def mixedTexts : List String :=
  ["10.0.0.1", "not-an-ip", "::ffff:1.2.3.4", "300.1.1.1", "10.0.0.1"]

theorem exists_newServer_mixedTexts : ∃ server,
    (rootWith 1).newServer .plain "server"
      (.ofService "kubernetes" "default" "cluster.local" mixedTexts ["master-0"]) default
        = .ok server ∧ server.certificate.length < 2 ^ 64 := by
  refine exists_newServer_rootWith_of_lt 1 ?valid ?few
  case valid => decide +kernel
  case few => decide +kernel

/-- The addresses among five texts. With a host that has a foreign name there is no certificate. -/
theorem newServer_ofService_rootWith :
    let certify (addresses hosts : List String) := (rootWith 1).newServer .plain "server"
      (.ofService "kubernetes" "default" "cluster.local" addresses hosts) default
    (∃ server, certify mixedTexts ["master-0"] = .ok server ∧
      certify ["10.0.0.1", "::ffff:1.2.3.4", "300.1.1.1", "10.0.0.1"] ["master-0"] = .ok server ∧
      server.certificate.length < 2 ^ 64 ∧
      ∃ c, Certificate.ofPem server.certificate = .ok c ∧
        c.addresses.map IpAddress.print = ["10.0.0.1", "::ffff:1.2.3.4", "10.0.0.1"] ∧
        c.dnsNames = ["master-0", "kubernetes", "kubernetes.default", "kubernetes.default.svc",
          "kubernetes.default.svc.cluster.local"] ∧
        c.isAuthority = false ∧ c.isForServers = true ∧ c.isForClients = false) ∧
    ∃ e, certify [] ["k\u00f6ln"] = .error e ∧ e.kind = "CertificateSigningFailed" := by
  intro certify
  have shows := SignatureSystem.exact_plain.showsKeys
  constructor
  · obtain ⟨server, issued, fits⟩ := exists_newServer_mixedTexts
    obtain ⟨certified, dropped, -⟩ := newServer_ofService shows (rootWith 1) "server" "kubernetes"
      "default" "cluster.local" mixedTexts ["master-0"] default
    obtain ⟨c, read, addresses, dnsNames, uses⟩ := certified server issued fits
    have same := dropped ["10.0.0.1"] "not-an-ip" ["::ffff:1.2.3.4", "300.1.1.1", "10.0.0.1"] rfl
      (by decide +kernel)
    refine ⟨server, issued, same.symm.trans issued, fits, c, read, ?_, dnsNames.trans ?_, uses⟩
    · rw [addresses]
      decide +kernel
    · decide +kernel
  · obtain ⟨-, -, foreign⟩ := newServer_ofService shows (rootWith 1) "server" "kubernetes" "default"
      "cluster.local" [] ["k\u00f6ln"] default
    obtain ⟨first, -, -, refused, kind⟩ := foreign "k\u00f6ln" (by simp) (by simp [IsAscii])
    exact ⟨_, refused, kind⟩

end KeyPair

end NodeProvisioner
