import NodeProvisioner.Proofs.Crypto.Ecdsa
import NodeProvisioner.Proofs.Encoding.Pem
import NodeProvisioner.Proofs.Pki.Certificates
import NodeProvisioner.Proofs.Runs.ControlPlanes

/-!
# Signatures of authorities

A server certificate is signed with the private key of an authority, and verified with the public
key in the authority's certificate. An authority that is loaded comes in two files, each of which is
only checked to be readable, so the two keys need not belong together: then the authority goes on
issuing certificates that do not verify under its own.

How signatures work is left open. They are taken to verify under the public keys that match the
private key they were made with, and under no others.

Main statement: `KeyPair.hasSigned_newServer`, for every pair that a server certificate can be
issued with. A pair that has been made here does belong together
(`hasSigned_newServer_of_newAuthority`).
-/

namespace NodeProvisioner

open Der (Reads)

/-! ## Systems of signatures -/

namespace SignatureSystem

/-- A signature verifies under exactly the public keys that match the private key it was made with,
and the public key of a private key is one of them. -/
structure Exact (S : SignatureSystem) (Matches : S.Key → PublicKeyInfo → Prop) : Prop where
  own : ∀ {key bytes}, S.publicInfo? key = some bytes →
    ∃ info, Reads Certificate.publicKeyInfo bytes info ∧ Matches key info
  verifies_iff : ∀ {key kind nonce message signature}, S.algorithm? key = some kind →
    S.sign? key nonce message = some signature → ∀ info,
    (S.verifies info kind message signature = true ↔ Matches key info)

/-- The public keys of the signatures in use are read as they were written. -/
theorem exists_reads_elliptic {key : PrivateKey} {bytes : List UInt8}
    (shown : elliptic.publicInfo? key = some bytes) :
    ∃ info, Reads Certificate.publicKeyInfo bytes info ∧ info.raw = bytes := by
  cases key with
  | elliptic c secret =>
    obtain ⟨point, _, rfl⟩ := Option.map_eq_some_iff.mp shown
    have kind := Certificate.reads_algorithm_of .ellipticKey (PrivateKey.curveId c)
    exact ⟨_, Certificate.reads_publicKeyInfo kind (Ecdsa.encodePoint c point), rfl⟩
  | rsa | edwards => cases shown

end SignatureSystem

/-! ## Issued certificates -/

namespace KeyPair

variable {S : SignatureSystem} {Matches : S.Key → PublicKeyInfo → Prop} {o : Occasion}
  {pair ca server : KeyPair}

theorem decode?_certificate (bytes : List UInt8) :
    Pem.decode? (Pem.encode "CERTIFICATE" bytes) = some bytes :=
  Pem.decode?_encode (by decide) (by simp) bytes

theorem decode?_privateKey (bytes : List UInt8) :
    Pem.decode? (Pem.encode "PRIVATE KEY" bytes) = some bytes :=
  Pem.decode?_encode (by decide) (by simp) bytes

theorem ofPem_of_read {text : String} {bytes : List UInt8} {c : Certificate}
    (pem : Pem.decode? text = some bytes) (read : Certificate.ofDer? bytes = some c)
    (fault : ParseFault) : Certificate.ofPem text fault = .ok c := by
  simp [Certificate.ofPem, readPem, pem, Certificate.ofDer, read, bind, Except.bind]

/-- What has been issued: the text of a signed certificate, and the key it is for. -/
theorem exists_of_issue {r : CertificateRequest} {i : Issuer S} {key : S.Key}
    (issued : issue S r o i key = .ok pair) : ∃ publicInfo bytes secret,
      S.publicInfo? key = some publicInfo ∧ sign? S r o i publicInfo = some bytes ∧
      S.write? key = some secret ∧
      pair = ⟨Pem.encode "CERTIFICATE" bytes, Pem.encode "PRIVATE KEY" secret⟩ := by
  simp only [issue] at issued
  split at issued
  · next made =>
    simp only [Option.bind_eq_bind, Option.bind_eq_some_iff, Option.pure_def,
      Option.some.injEq] at made
    obtain ⟨publicInfo, shown, bytes, signed, secret, written, rfl⟩ := made
    exact ⟨publicInfo, bytes, secret, shown, signed, written, (Except.ok.inj issued).symm⟩
  · cases issued

/-- An issuer signs with the key of the pair, whose certificate can be read. -/
theorem exists_of_issuer {i : Issuer S} (h : ca.issuer S = .ok i) :
    readKey? S ca.key = some i.key ∧
      ∃ c, ∀ fault, Certificate.ofPem ca.certificate fault = .ok c := by
  unfold issuer at h
  split at h
  · cases h
  · next key read =>
    split at h
    · cases h
    · next c decoded =>
      obtain ⟨bytes, pem, der⟩ := Option.bind_eq_some_iff.mp decoded
      refine ⟨?_, c, ofPem_of_read pem der⟩
      have name_only (name : DistinguishedName) (eq : (⟨name, key⟩ : Issuer S) = i) :
          readKey? S ca.key = some i.key := eq ▸ read
      split at h
      · exact name_only _ (Except.ok.inj h)
      · split at h
        · exact name_only _ (Except.ok.inj h)
        · cases h
      · cases h

/-- With the signatures in use an authority can issue certificates exactly if its key and its
certificate can be read, and the key is of a kind that can be signed with. -/
theorem issues_elliptic_iff : ca.Issues .elliptic ↔
    ∃ i, ca.issuer .elliptic = .ok i ∧ (SignatureSystem.kindOf? i.key).isSome = true := by
  constructor
  · rintro ⟨⟨i, kind, issues, algorithm, -⟩, -⟩
    exact ⟨i, issues, Option.isSome_iff_exists.mpr ⟨kind, algorithm⟩⟩
  · rintro ⟨i, issues, signs⟩
    obtain ⟨kind, algorithm⟩ := Option.isSome_iff_exists.mp signs
    obtain ⟨bytes, _, read⟩ := Option.bind_eq_some_iff.mp (exists_of_issuer issues).1
    have whole : i.key.IsWhole := PrivateKey.isWhole_of_ofDer? read
    exact
      { signs := ⟨i, kind, issues, algorithm, fun nonce message =>
          (SignatureSystem.isSome_signMessage?_iff i.key nonce message).mpr ⟨signs, whole⟩⟩
        makesKeys := fun seed => ⟨PrivateKey.isSome_publicInfo?_generate seed,
          PrivateKey.isSome_encode?_generate seed⟩ }

/-- A certificate that restricts the use of its key to uses that can be read is good for an
issuer. -/
theorem issuer_of_read {key : S.Key} {bytes value : List UInt8} {c : Certificate}
    {name : DistinguishedName} (key_read : readKey? S ca.key = some key)
    (pem : Pem.decode? ca.certificate = some bytes) (read : Certificate.ofDer? bytes = some c)
    (name_eq : c.subject.asIssuer? = some name)
    (use : c.extension? .keyUsage = .ok (some value))
    (bits : (Der.bitRow.run value).isSome = true) : ca.issuer S = .ok ⟨name, key⟩ := by
  simp [issuer, key_read, pem, read, name_eq, use, bits]

/-- An authority is loaded if both of its files can be read, each by itself. -/
theorem load_of_read {files : Files} {directory : String} {key : S.Key} {bytes : List UInt8}
    {c : Certificate}
    (certificate : files.readText (joinPath directory certificateFile) = .ok ca.certificate)
    (key_text : files.readText (joinPath directory keyFile) = .ok ca.key)
    (key_read : readKey? S ca.key = some key) (pem : Pem.decode? ca.certificate = some bytes)
    (read : Certificate.ofDer? bytes = some c) (authority : c.isAuthority = true) :
    load S files directory = .ok ca := by
  have certificate_read := ofPem_of_read pem read
  have accepted : ofPem S ca.certificate ca.key = .ok ca := by
    simp [ofPem, key_read, certificate_read, bind, Except.bind, pure, Except.pure]
  simp [load, certificate, key_text, accepted, certificate_read, authority, bind, Except.bind,
    Except.mapError, pure, Except.pure]

/-- **An issued certificate is read with a signature of its issuer** and with the extensions that
were asked for, as long as its text is one that a machine can hold. What holds of the public key as
it was written holds of the public key of the certificate. -/
theorem exists_certificate_of_issue {P : PublicKeyInfo → Prop} {r : CertificateRequest}
    {i : Issuer S} {key : S.Key}
    (shows : ∀ {bytes}, S.publicInfo? key = some bytes →
      ∃ info, Reads Certificate.publicKeyInfo bytes info ∧ P info)
    (issued : issue S r o i key = .ok pair) (fits : pair.certificate.length < 2 ^ 64) :
    ∃ c, (∀ fault, Certificate.ofPem pair.certificate fault = .ok c) ∧
      S.algorithm? i.key = some c.signatureAlgorithm ∧
      S.sign? i.key o.nonce c.body = some c.signature ∧ P c.publicKey ∧
      c.extensions = r.requested := by
  obtain ⟨publicInfo, bytes, secret, shown, signed, _, rfl⟩ := exists_of_issue issued
  obtain ⟨info, reads, own⟩ := shows shown
  have short : bytes.length < 2 ^ 64 :=
    Nat.lt_of_le_of_lt (Pem.length_le_length_encode "CERTIFICATE" bytes) fits
  obtain ⟨c, read, algorithm, signs, rfl, extensions⟩ := exists_certificate signed reads short
  exact ⟨c, ofPem_of_read (decode?_certificate bytes) read, algorithm, signs, own, extensions⟩

/-! ## Authorities -/

/-- What the certificate of a server is to say. -/
def serverRequest (commonName : String) (names : AltNames) : CertificateRequest :=
  { commonName, days := 365, isForServers := true, names,
    uses := [.digitalSignature, .keyEncipherment] }

theorem newServer_eq_ok_iff {commonName : String} {names : AltNames} :
    ca.newServer S commonName names o = .ok server ↔
      names.check = .ok () ∧ ∃ i, ca.issuer S = .ok i ∧
        issue S (serverRequest commonName names) o i (S.generate o.keySeed) = .ok server := by
  refine bind_eq_ok_iff.trans ⟨?_, ?_⟩
  · rintro ⟨⟨⟩, valid, rest⟩
    exact ⟨valid, bind_eq_ok_iff.mp rest⟩
  · rintro ⟨valid, rest⟩
    exact ⟨(), valid, bind_eq_ok_iff.mpr rest⟩

/-- A server certificate verifies under a certificate, of this authority or of another, exactly if
that is for a public key that matches the key of this authority. -/
theorem hasSigned_of_newServer (exact : S.Exact Matches) {commonName : String} {names : AltNames}
    (issued : ca.newServer S commonName names o = .ok server)
    (fits : server.certificate.length < 2 ^ 64) :
    ∃ key, readKey? S ca.key = some key ∧ ∀ {other : KeyPair} {c : Certificate},
      Certificate.ofPem other.certificate .caCertificate = .ok c →
      ∃ verified, other.hasSigned S server.certificate = .ok verified ∧
        (verified = true ↔ Matches key c.publicKey) := by
  obtain ⟨_, i, issues, issued⟩ := newServer_eq_ok_iff.mp issued
  obtain ⟨read, _⟩ := exists_of_issuer issues
  obtain ⟨s, server_read, algorithm, signs, _⟩ :=
    exists_certificate_of_issue exact.own issued fits
  refine ⟨i.key, read, fun {other c} other_read => ?_⟩
  refine ⟨_, ?_, exact.verifies_iff algorithm signs c.publicKey⟩
  simp [hasSigned, server_read, other_read, bind, Except.bind, pure, Except.pure]

/-- **A server certificate verifies under an authority that has been made here**, if keys are read as
they were written. -/
theorem hasSigned_newServer_of_newAuthority (exact : S.Exact Matches)
    (keeps : ∀ {key bytes}, S.write? key = some bytes → S.read? bytes = some key)
    {caName commonName : String} {names : AltNames} {first : Occasion}
    (made : newAuthority S caName first = .ok ca)
    (issued : ca.newServer S commonName names o = .ok server)
    (ca_fits : ca.certificate.length < 2 ^ 64) (fits : server.certificate.length < 2 ^ 64) :
    ca.hasSigned S server.certificate = .ok true := by
  obtain ⟨key, read, verifies⟩ := hasSigned_of_newServer exact issued fits
  obtain ⟨c, certificate_read, _, _, own, _⟩ :=
    exists_certificate_of_issue exact.own made ca_fits
  obtain ⟨verified, answer, iff⟩ := verifies (certificate_read _)
  obtain ⟨_, _, secret, _, _, written, rfl⟩ := exists_of_issue made
  have same : S.generate first.keySeed = key := by
    rw [readKey?, decode?_privateKey, Option.bind_some, keeps written] at read
    exact Option.some.inj read
  rw [answer, iff.mpr (same ▸ own)]

end KeyPair

/-! ## Keys of one byte -/

/-- A system of signatures in which a key is a byte, and a signature shows key and message. -/
def SignatureSystem.plain : SignatureSystem where
  Key := UInt8
  read? bytes := bytes.head?
  write? key := some [key]
  generate seed := seed.headD 0
  publicInfo? key :=
    some (Der.sequenceOf [Der.sequenceOf [Der.identifier ObjectId.ellipticKey], Der.bits [key]])
  algorithm? _ := some .ecdsaWithSha256
  sign? key _ message := some (key :: message)
  verifies info _ message signature := signature == info.bits ++ message

theorem SignatureSystem.verifies_plain_iff (key : UInt8) (info : PublicKeyInfo) (kind : ObjectId)
    (message : List UInt8) :
    plain.verifies info kind message (key :: message) = true ↔ info.bits = [key] := by
  have front : key :: message = [key] ++ message := rfl
  rw [plain, beq_iff_eq, front, List.append_cancel_right_eq]
  exact eq_comm

theorem SignatureSystem.exact_plain : plain.Exact fun key info => info.bits = [key] where
  own := by
    rintro key _ ⟨⟩
    exact ⟨_, Certificate.reads_publicKeyInfo (Certificate.reads_algorithm _) [key], rfl⟩
  verifies_iff := by
    rintro key kind nonce message _ _ ⟨⟩ info
    exact verifies_plain_iff key info kind message

namespace KeyPair

/-- The certificate that an authority with the key 1 has signed for itself. -/
def rootCertificate : List UInt8 :=
  (sign? .plain
    { commonName := "ca", days := 3650, isAuthority := true, uses := [.certificateSigning] }
    default ⟨.ofCommonName "ca", (1 : UInt8)⟩
    ((SignatureSystem.plain.publicInfo? (1 : UInt8)).getD [])).getD []

/-- That certificate and a key, which need not be its own. -/
def rootWith (key : UInt8) : KeyPair :=
  ⟨Pem.encode "CERTIFICATE" rootCertificate, Pem.encode "PRIVATE KEY" [key]⟩

theorem exists_rootCertificate : ∃ c, Certificate.ofDer? rootCertificate = some c ∧
    c.isAuthority = true ∧ c.publicKey.bits = [1] ∧
    c.subject.asIssuer? = some (.ofCommonName "ca") ∧
    c.extension? .keyUsage = .ok (some [3, 2, 2, 4]) := by
  have read : (Certificate.ofDer? rootCertificate).any (fun c => c.isAuthority = true ∧
      c.publicKey.bits = [1] ∧ c.subject.asIssuer? = some (.ofCommonName "ca") ∧
      c.extension? .keyUsage = .ok (some [3, 2, 2, 4])) = true := by
    decide +kernel
  obtain ⟨c, eq, properties⟩ := (Option.any_eq_true _ _).mp read
  exact ⟨c, eq, of_decide_eq_true properties⟩

section
variable (key : UInt8)

theorem readKey?_rootWith : readKey? .plain (rootWith key).key = some key := by
  rw [readKey?, rootWith, decode?_privateKey]
  rfl

theorem decode?_rootWith : Pem.decode? (rootWith key).certificate = some rootCertificate :=
  decode?_certificate rootCertificate

theorem issuer_rootWith : (rootWith key).issuer .plain = .ok ⟨.ofCommonName "ca", key⟩ := by
  obtain ⟨c, read, _, _, name, use⟩ := exists_rootCertificate
  exact issuer_of_read (readKey?_rootWith key) (decode?_rootWith key) read name use (by decide)

theorem issues_rootWith : (rootWith key).Issues .plain where
  signs := ⟨_, _, issuer_rootWith key, rfl, fun _ _ => rfl⟩
  makesKeys _ := ⟨rfl, rfl⟩

/-- The files of an authority. -/
def files (ca : KeyPair) : Files :=
  .inDirectory "/pki" [(certificateFile, ca.certificate.toUTF8), (keyFile, ca.key.toUTF8)]

theorem readText_files (ca : KeyPair) :
    ca.files.readText (joinPath "/pki" certificateFile) = .ok ca.certificate ∧
      ca.files.readText (joinPath "/pki" keyFile) = .ok ca.key := by
  have text (s : String) : String.fromUTF8? s.toUTF8 = some s := dif_pos s.isValidUTF8
  have certificate : pathNames (joinPath "/pki" certificateFile) = ["pki", "ca.crt"] := by
    decide +kernel
  have key : pathNames (joinPath "/pki" keyFile) = ["pki", "ca.key"] := by decide +kernel
  have not_directory : (joinPath "/pki" certificateFile).endsWith "/" = false ∧
      (joinPath "/pki" keyFile).endsWith "/" = false := by decide +kernel
  have bytes : ca.files.read (joinPath "/pki" certificateFile) = .ok ca.certificate.toUTF8 ∧
      ca.files.read (joinPath "/pki" keyFile) = .ok ca.key.toUTF8 := by
    simp [files, Files.inDirectory, Files.read, certificate, key, not_directory, List.lookup_cons]
  simp only [Files.readText, bytes, bind, Except.bind, text]
  exact ⟨rfl, rfl⟩

theorem load_rootWith : load .plain (rootWith key).files "/pki" = .ok (rootWith key) := by
  obtain ⟨certificate, key_text⟩ := readText_files (rootWith key)
  obtain ⟨c, read, authority, _⟩ := exists_rootCertificate
  exact load_of_read certificate key_text (readKey?_rootWith key) (decode?_rootWith key) read
    authority

/-- A server certificate is issued, and is a small one if the bytes that are signed are few. -/
theorem exists_newServer_rootWith_of_lt {names : AltNames} (valid : names.check = .ok ())
    (few : ((SignatureSystem.plain.publicInfo?
      (SignatureSystem.plain.generate (default : Occasion).keySeed)).bind
      (sign? .plain (serverRequest "server" names) default ⟨.ofCommonName "ca", key⟩)).any
      (·.length < 1000) = true) :
    ∃ server, (rootWith key).newServer .plain "server" names default = .ok server ∧
      server.certificate.length < 2 ^ 64 := by
  obtain ⟨server, issued⟩ := (issues_rootWith key).newServer "server" valid default
  refine ⟨server, issued, ?_⟩
  obtain ⟨_, i, issuer, made⟩ := newServer_eq_ok_iff.mp issued
  obtain rfl := Except.ok.inj ((issuer_rootWith key).symm.trans issuer)
  obtain ⟨publicInfo, bytes, _, shown, signed, _, rfl⟩ := exists_of_issue made
  rw [shown, Option.bind_some, signed, Option.any_some, decide_eq_true_eq] at few
  have label : "CERTIFICATE".length = 11 := by decide
  rw [Pem.length_encode, label]
  omega

/-- Whichever of two keys it is, a server certificate is issued with it. -/
theorem exists_newServer_rootWith (either : key ∈ [1, 2]) :
    ∃ server, (rootWith key).newServer .plain "server" {} default = .ok server ∧
      server.certificate.length < 2 ^ 64 := by
  have few : ∀ k ∈ [(1 : UInt8), 2], ((SignatureSystem.plain.publicInfo?
      (SignatureSystem.plain.generate (default : Occasion).keySeed)).bind
      (sign? .plain (serverRequest "server" {}) default ⟨.ofCommonName "ca", k⟩)).any
      (·.length < 1000) = true := by
    decide +kernel
  exact exists_newServer_rootWith_of_lt key rfl (few key either)

end

/-! ## The keys of an authority -/

/-- **A server certificate verifies under the authority that issued it exactly if the key of the
authority matches its certificate.** Both can be read, as has been checked when the authority was
loaded; that they match has not. -/
theorem hasSigned_newServer {S : SignatureSystem} {Matches : S.Key → PublicKeyInfo → Prop}
    (exact : S.Exact Matches) {ca server : KeyPair} {commonName : String} {names : AltNames}
    {o : Occasion} (issued : ca.newServer S commonName names o = .ok server)
    (fits : server.certificate.length < 2 ^ 64) :
    ∃ key c verified, readKey? S ca.key = some key ∧
      Certificate.ofPem ca.certificate = .ok c ∧
      ca.hasSigned S server.certificate = .ok verified ∧
      (verified = true ↔ Matches key c.publicKey) := by
  obtain ⟨key, read, verifies⟩ := hasSigned_of_newServer exact issued fits
  obtain ⟨_, i, issues, _⟩ := newServer_eq_ok_iff.mp issued
  obtain ⟨_, c, certificate_read⟩ := exists_of_issuer issues
  obtain ⟨verified, answer, iff⟩ := verifies (certificate_read _)
  exact ⟨key, c, verified, read, certificate_read _, answer, iff⟩

/-- An authority with its own key. -/
theorem hasSigned_newServer_rootWith : ∃ server,
    (rootWith 1).newServer .plain "server" {} default = .ok server ∧
      server.certificate.length < 2 ^ 64 ∧ ∃ key c verified,
        readKey? .plain (rootWith 1).key = some key ∧
        Certificate.ofPem (rootWith 1).certificate = .ok c ∧
        (rootWith 1).hasSigned .plain server.certificate = .ok verified ∧
        (verified = true ↔ c.publicKey.bits = [key]) := by
  obtain ⟨server, issued, fits⟩ := exists_newServer_rootWith 1 (by decide)
  exact ⟨server, issued, fits, hasSigned_newServer SignatureSystem.exact_plain issued fits⟩

/-- **Not every authority that is accepted can issue**: its key may be that of another
certificate. -/
theorem not_hasSigned_newServer : ¬∀ (S : SignatureSystem)
    (Matches : S.Key → PublicKeyInfo → Prop), S.Exact Matches →
    ∀ (files : Files) (directory : String) (ca : KeyPair), load S files directory = .ok ca →
    ∀ (commonName : String) (names : AltNames) (o : Occasion) (server : KeyPair),
      ca.newServer S commonName names o = .ok server → server.certificate.length < 2 ^ 64 →
      ca.hasSigned S server.certificate = .ok true := by
  intro claim
  obtain ⟨server, issued, fits⟩ := exists_newServer_rootWith 2 (by decide)
  have verified := claim .plain _ SignatureSystem.exact_plain _ _ _ (load_rootWith 2) _ _ _ _ issued
    fits
  obtain ⟨key, read, verifies⟩ := hasSigned_of_newServer SignatureSystem.exact_plain issued fits
  obtain rfl := Option.some.inj ((readKey?_rootWith 2).symm.trans read)
  obtain ⟨c, certificate, _, bits, _⟩ := exists_rootCertificate
  obtain ⟨_, answer, iff⟩ := verifies (ofPem_of_read (decode?_rootWith 2) certificate _)
  obtain rfl := Except.ok.inj (verified.symm.trans answer)
  have other : [1] = [(2 : UInt8)] := bits.symm.trans (iff.mp rfl)
  revert other
  decide

end KeyPair

end NodeProvisioner
