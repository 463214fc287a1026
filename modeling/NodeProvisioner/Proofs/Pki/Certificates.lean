import NodeProvisioner.Pki.Authority
import NodeProvisioner.Proofs.Encoding.Der
import NodeProvisioner.Proofs.Time.Dates

/-!
# Certificates are read back

A certificate that has been signed is read part by part: its public key, its extensions and its
signature are those that were written. Of the names and the time of validity it is only said that
they do not stand in the way of the rest: whatever they are, they are read as something.

Main statement: `KeyPair.exists_certificate`, what the bytes of a signed certificate are read as.
-/

namespace NodeProvisioner

open Der

/-! ## Times -/

namespace Certificate

open CertificateRequest (pair encodeTime)

theorem toNat_digit {n : Nat} (h : n < 10) : (UInt8.ofNat (48 + n)).toNat = 48 + n := by
  rw [UInt8.toNat_ofNat']
  omega

theorem isDigit_digit {n : Nat} (h : n < 10) :
    48 ≤ UInt8.ofNat (48 + n) ∧ UInt8.ofNat (48 + n) ≤ 57 := by
  rw [UInt8.le_iff_toNat_le, UInt8.le_iff_toNat_le, toNat_digit h]
  simp
  omega

theorem digit_ne_point {n : Nat} (h : n < 10) : UInt8.ofNat (48 + n) ≠ 46 := fun point => by
  have value := congrArg UInt8.toNat point
  rw [toNat_digit h] at value
  simp at value
  omega

theorem digitPairs?_pair (n : Nat) (rest : List UInt8) :
    digitPairs? (pair n ++ rest) = (digitPairs? rest).map (n % 100 :: ·) := by
  have tens : n / 10 % 10 < 10 := Nat.mod_lt _ (by decide)
  have ones : n % 10 < 10 := Nat.mod_lt _ (by decide)
  have both : twoDigits? (UInt8.ofNat (48 + n / 10 % 10)) (UInt8.ofNat (48 + n % 10))
      = some (n % 100) := by
    simp only [twoDigits?, isDigit_digit tens, isDigit_digit ones, toNat_digit tens,
      toNat_digit ones]
    simp
    omega
  rw [pair, List.cons_append, List.cons_append, List.nil_append, digitPairs?.eq_def]
  split
  · next h => simp at h
  · next h => exact absurd (List.cons.inj h).1 (digit_ne_point tens)
  · next h =>
    simp only [List.cons.injEq] at h
    obtain ⟨rfl, rfl, rfl⟩ := h
    rw [both]
    cases digitPairs? rest <;> rfl
  · next h => exact absurd rfl (h _ _ _)

theorem point_not_mem_pair (n : Nat) : 46 ∉ pair n := by
  have tens : UInt8.ofNat (48 + n / 10 % 10) ≠ 46 := digit_ne_point (Nat.mod_lt _ (by decide))
  have ones : UInt8.ofNat (48 + n % 10) ≠ 46 := digit_ne_point (Nat.mod_lt _ (by decide))
  simp only [pair, List.mem_cons, List.not_mem_nil, or_false, not_or]
  exact ⟨tens.symm, ones.symm⟩

section
variable {c : List UInt8} {century year month day hour minute second : Nat} {seconds : Int}

theorem reads_utcTime (whole : 46 ∉ c)
    (digits : digitPairs? c = some [year, month, day, hour, minute, second])
    (valid : secondsOf? (if year ≥ 50 then 1900 + year else 2000 + year) month day hour minute
      second = some seconds) : Reads time (primitive utcTime c) seconds := by
  intro fits rest
  have read : any.run (primitive utcTime c ++ rest) = some (⟨23, utcTime, c⟩, rest) :=
    reads_any (by decide) c fits rest
  simp only [time, StateT.run] at read ⊢
  simp [read, whole, digits, valid]

theorem reads_generalizedTime
    (digits : digitPairs? c = some [century, year, month, day, hour, minute, second])
    (valid : secondsOf? (100 * century + year) month day hour minute second = some seconds) :
    Reads time (primitive generalizedTime c) seconds := by
  intro fits rest
  have read : any.run (primitive generalizedTime c ++ rest)
      = some (⟨24, generalizedTime, c⟩, rest) := reads_any (by decide) c fits rest
  have other : generalizedTime ≠ utcTime := by decide
  simp only [time, StateT.run] at read ⊢
  simp [read, digits, valid, other]

end

/-- A time of day has fields in their ranges. -/
theorem exists_secondsOf? {year : Nat} {d : Date}
    (valid : Date.isValid ⟨year, d.month, d.day⟩ = true) {time : Nat} (inDay : time < 86400) :
    ∃ seconds, secondsOf? year d.month d.day (time / 3600) (time / 60 % 60) (time % 60)
      = some seconds := by
  have hour : time / 3600 ≤ 23 := by omega
  have minute : time / 60 % 60 ≤ 59 := by omega
  have second : time % 60 ≤ 59 := by omega
  simp [secondsOf?, valid, hour, minute, second]

/-- A time is read as a time. One before the year 0 or after 9999 is read as another, but there is
always a date to read: years that end in the same four digits have the same leap days. -/
theorem exists_reads_time (seconds : Int) : ∃ t, Reads time (encodeTime seconds) t := by
  obtain ⟨d, date⟩ : ∃ d, d = Date.ofDays (seconds / 86400) := ⟨_, rfl⟩
  obtain ⟨t, time_eq⟩ : ∃ t, t = (seconds % 86400).toNat := ⟨_, rfl⟩
  obtain ⟨year, year_eq⟩ : ∃ y, y = d.year.toNat := ⟨_, rfl⟩
  have valid : d.isValid = true := date ▸ Date.isValid_ofDays _
  obtain ⟨⟨_, month⟩, _, day⟩ := Date.bounds_of_isValid valid
  have inDay : t < 86400 := by omega
  have fields : digitPairs? (pair d.month ++ pair d.day ++ pair (t / 3600) ++ pair (t / 60 % 60)
      ++ pair (t % 60) ++ [90]) = some [d.month, d.day, t / 3600, t / 60 % 60, t % 60] := by
    simp only [List.append_assoc, digitPairs?_pair, digitPairs?, Option.map_some]
    simp
    omega
  have whole : 46 ∉ pair d.month ++ pair d.day ++ pair (t / 3600) ++ pair (t / 60 % 60)
      ++ pair (t % 60) ++ [90] := by
    simp [point_not_mem_pair]
  unfold encodeTime
  simp only [← date, ← time_eq, ← year_eq]
  split
  · next near =>
    have shown : (if year % 100 ≥ 50 then 1900 + year % 100 else 2000 + year % 100) = year := by
      split <;> omega
    have same : Date.isValid ⟨year, d.month, d.day⟩ = true := by
      rw [← show d.year = year by omega]
      exact valid
    obtain ⟨seconds, read⟩ := exists_secondsOf? same inDay
    rw [← shown] at read
    refine ⟨seconds, reads_utcTime ?_ ?_ read⟩
    · simp only [List.mem_append, not_or] at whole ⊢
      exact ⟨point_not_mem_pair year, whole⟩
    · rw [digitPairs?_pair, fields]
      rfl
  · next far =>
    have leap : Date.isLeap d.year = true →
        Date.isLeap (100 * (year / 100 % 100) + year % 100 : Nat) = true := by
      rw [Date.isLeap_iff, Date.isLeap_iff]
      omega
    obtain ⟨seconds, read⟩ := exists_secondsOf? (Date.isValid_of_leap valid leap) inDay
    refine ⟨seconds, reads_generalizedTime ?_ read⟩
    rw [List.append_assoc, digitPairs?_pair, digitPairs?_pair, fields]
    rfl

end Certificate

/-! ## Extensions -/

/-- The bytes of an extension. -/
def Extension.encode (e : Extension) : List UInt8 :=
  CertificateRequest.encodeExtension e.kind e.critical e.value

/-- The extensions that are asked for. -/
def CertificateRequest.requested (r : CertificateRequest) : List Extension :=
  (if r.names.addresses.isEmpty && r.names.dnsNames.isEmpty then []
    else [⟨.subjectAltName, false, encodeNames r.names⟩]) ++
  [⟨.keyUsage, true, encodeUses r.uses⟩] ++
  (if r.isForServers then
    [⟨.extendedKeyUsage, false, sequenceOf [identifier ObjectId.serverAuth]⟩] else []) ++
  (if r.isAuthority then [⟨.basicConstraints, true, sequenceOf [truth true]⟩] else [])

theorem CertificateRequest.extensions_eq (r : CertificateRequest) :
    r.extensions = r.requested.map Extension.encode := by
  unfold extensions requested
  simp only [List.map_append, List.map_cons, List.map_nil, apply_ite (List.map Extension.encode),
    Extension.encode]

namespace Certificate

theorem reads_extension (e : Extension) : Reads extension e.encode e := by
  obtain ⟨kind, critical, value⟩ := e
  have last (critical : Option (List UInt8)) :
      ReadsAll (content octetString >>= fun value =>
        return (⟨kind, critical.any (· ≠ [0]), value⟩ : Extension)) (octets value ++ [])
        ⟨kind, critical.any (· ≠ [0]), value⟩ := by
    rw [List.append_nil]
    exact ((reads_octets value).map _).all
  refine reads_sequence ((reads_identifier kind).bind_all ?_)
  cases critical with
  | true => exact (reads_perhaps (reads_truth true)).bind_all (last (some [255]))
  | false => exact readsAll_perhaps_of_ne (by decide) (by decide) (last none)

/-- What follows on no optional value with a tag is not touched in looking for it. -/
theorem readsAll_skipTagged_of_ne {α : Type} {number : Nat} {lead : UInt8} {c more : List UInt8}
    {next : Unit → Reader α} {a : α} (short : lead.toNat % 32 ≠ 31)
    (other : lead.toNat % 32 ≠ number) (read : ReadsAll (next ()) (encode lead c ++ more) a) :
    ReadsAll (skipTagged number >>= next) (encode lead c ++ more) a := by
  intro fits
  have inside : c.length < 2 ^ 64 := by
    have := length_le_encode lead c
    rw [List.length_append] at fits
    omega
  have first : any (encode lead c ++ more) = some (⟨lead, lead.toNat % 32, c⟩, more) :=
    element?_encode short inside more
  have left : (skipTagged number).run (encode lead c ++ more)
      = some ((), encode lead c ++ more) := by
    simp [skipTagged, StateT.run, first, other]
  rw [StateT.run_bind, left]
  exact read fits

theorem reads_extensions (r : CertificateRequest) :
    Reads (exactly sequence (row extension)) (sequenceOf r.extensions) r.requested := by
  refine reads_exactSequence ?_
  rw [r.extensions_eq, ← List.map_id r.requested, List.map_map]
  exact readsAll_row (fun e _ => reads_extension e) fun e _ => encode_ne_nil _ _

theorem readsAll_extensionRow (r : CertificateRequest) :
    ReadsAll extensionRow (tagged 3 [sequenceOf r.extensions]) r.requested := by
  intro fits
  have outer : (content 3).run (tagged 3 [sequenceOf r.extensions])
      = some ([sequenceOf r.extensions].flatten, []) :=
    (reads_content rfl (by decide) _).all fits
  have inside : [sequenceOf r.extensions].flatten.length < 2 ^ 64 :=
    Nat.lt_of_le_of_lt (length_le_encode _ _) fits
  rw [List.flatten_singleton] at outer inside
  have inner := (reads_extensions r).all inside
  have not_at_end : isAtEnd.run (tagged 3 [sequenceOf r.extensions])
      = some (false, tagged 3 [sequenceOf r.extensions]) := by
    simp [isAtEnd, StateT.run, tagged, encode_ne_nil]
  have at_end : isAtEnd.run [] = some (true, []) := rfl
  simp [extensionRow, StateT.run_bind, not_at_end, outer, inner, at_end]

/-! ## The signed part -/

theorem reads_algorithm (kind : ObjectId) :
    Reads algorithm (sequenceOf [identifier kind]) (kind, none) :=
  reads_sequence ((reads_identifier kind).bind_all (readsAll_perhaps_any.map _))

/-- The kind of a key, with parameters that are an object identifier. -/
theorem reads_algorithm_of (kind parameters : ObjectId) :
    Reads algorithm (sequenceOf [identifier kind, identifier parameters])
      (kind, some ⟨6, objectIdentifier, parameters⟩) := by
  have element : Reads any (identifier parameters) ⟨6, objectIdentifier, parameters⟩ :=
    reads_any (by decide) parameters
  refine reads_sequence ?_
  simp only [List.flatten_cons, List.flatten_nil, List.append_nil]
  exact (reads_identifier kind).bind_all ((reads_perhaps element).map _).all

/-- A public key is read from its kind and its bits. -/
theorem reads_publicKeyInfo {kindBytes : List UInt8} {kind : ObjectId} {e : Option Element}
    (algorithm_read : Reads algorithm kindBytes (kind, e)) (b : List UInt8) :
    Reads publicKeyInfo (sequenceOf [kindBytes, bits b])
      ⟨kind, (e.filter (·.number = objectIdentifier)).map (·.content), b,
        sequenceOf [kindBytes, bits b]⟩ := by
  intro fits rest
  rw [publicKeyInfo, StateT.run_bind,
    reads_withBytes (reads_sequence (a := (kind, e, b)) ?parts) fits rest]
  case parts =>
    simp only [List.flatten_cons, List.flatten_nil]
    exact algorithm_read.bind_all ((reads_bitRow b).bind_all (reads_pure _).all)
  rfl

theorem exists_reads_name (n : DistinguishedName) : ∃ m, Reads name n.encode m :=
  exists_reads_within_row attributeSet _ rfl (by decide)

theorem reads_version : Reads version (tagged 0 [natural 2]) () := by
  intro fits rest
  have outer : any (tagged 0 [natural 2] ++ rest)
      = some (⟨0xA0, 0, [natural 2].flatten⟩, rest) := reads_any (by decide) _ fits rest
  have inside : [natural 2].flatten.length < 2 ^ 64 :=
    Nat.lt_of_le_of_lt (length_le_encode _ _) fits
  rw [List.flatten_singleton] at outer inside
  have inner : naturalNumber (natural 2) = some (2, []) := (reads_naturalNumber 2).all inside
  simp [version, StateT.run, outer, inner]

/-- What has been asked for is read from the part that is signed. -/
theorem exists_reads_signedPart (r : CertificateRequest) (o : Occasion) (kind : ObjectId)
    (issuer : DistinguishedName) {publicInfo : List UInt8} {info : PublicKeyInfo}
    (key : Reads publicKeyInfo publicInfo info) :
    ∃ b, Reads signedPart (r.body o kind issuer publicInfo) b ∧ b.publicKey = info ∧
      b.extensions = r.requested := by
  obtain ⟨issuerName, issuer_read⟩ := exists_reads_name issuer
  obtain ⟨subject, subject_read⟩ := exists_reads_name (.ofCommonName r.commonName)
  obtain ⟨first, first_read⟩ := exists_reads_time o.now.seconds
  obtain ⟨last, last_read⟩ := exists_reads_time (o.now.seconds + r.days * 86400)
  have validity : Reads (within sequence do
      let first ← time
      let last ← time
      return (first, last)) (sequenceOf [CertificateRequest.encodeTime o.now.seconds,
        CertificateRequest.encodeTime (o.now.seconds + r.days * 86400)]) (first, last) :=
    reads_sequence (first_read.bind_all (last_read.bind_all (reads_pure _).all))
  have serial := reads_natural (CertificateRequest.serialNumber o.serial)
  refine ⟨⟨issuerName, first, last, subject, info, r.requested⟩, reads_sequence ?_, rfl, rfl⟩
  simp only [List.flatten_cons, List.flatten_nil]
  refine reads_version.bind_all ?_
  refine serial.bind_all ?_
  refine (reads_algorithm kind).bind_all ?_
  refine issuer_read.bind_all ?_
  refine validity.bind_all ?_
  refine subject_read.bind_all ?_
  refine key.bind_all ?_
  refine readsAll_skipTagged_of_ne (by decide) (by decide) ?_
  refine readsAll_skipTagged_of_ne (by decide) (by decide) ?_
  rw [List.append_nil]
  exact (readsAll_extensionRow r).map _

/-- A certificate is read from its signed part, the kind of its signature and the signature. -/
theorem reads_reader {body : List UInt8} {b : Body} (signed : Reads signedPart body b)
    (kind : ObjectId) (signature : List UInt8) :
    Reads reader (sequenceOf [body, sequenceOf [identifier kind], bits signature])
      ⟨body, b.issuer, b.subject, b.notBefore, b.notAfter, b.publicKey, b.extensions, kind,
        signature⟩ := by
  refine reads_sequence ?_
  simp only [List.flatten_cons, List.flatten_nil]
  refine (reads_withBytes signed).bind_all ?_
  refine (reads_algorithm kind).bind_all ?_
  exact (reads_bitRow signature).bind_all (reads_pure _).all

end Certificate

/-! ## Signed certificates -/

/-- **The bytes of a signed certificate are read as a certificate**: for the key and with the
extensions that were asked for, and signed with the key of the issuer. -/
theorem KeyPair.exists_certificate {S : SignatureSystem} {r : CertificateRequest} {o : Occasion}
    {i : Issuer S} {publicInfo bytes : List UInt8} {info : PublicKeyInfo}
    (signed : sign? S r o i publicInfo = some bytes)
    (key : Reads Certificate.publicKeyInfo publicInfo info) (fits : bytes.length < 2 ^ 64) :
    ∃ c, Certificate.ofDer? bytes = some c ∧ S.algorithm? i.key = some c.signatureAlgorithm ∧
      S.sign? i.key o.nonce c.body = some c.signature ∧ c.publicKey = info ∧
      c.extensions = r.requested := by
  simp only [sign?, Option.bind_eq_bind, Option.bind_eq_some_iff, Option.pure_def,
    Option.some.injEq] at signed
  obtain ⟨kind, algorithm, signature, signs, rfl⟩ := signed
  obtain ⟨b, body, publicKey, extensions⟩ :=
    Certificate.exists_reads_signedPart r o kind i.name key
  refine ⟨⟨r.body o kind i.name publicInfo, b.issuer, b.subject, b.notBefore, b.notAfter,
    b.publicKey, b.extensions, kind, signature⟩, ?_, algorithm, signs, publicKey, extensions⟩
  rw [Certificate.ofDer?, (Certificate.reads_reader body kind signature).all fits]
  rfl

end NodeProvisioner
