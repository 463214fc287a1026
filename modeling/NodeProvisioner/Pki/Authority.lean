import NodeProvisioner.Encoding.Pem
import NodeProvisioner.Files
import NodeProvisioner.Pki.Request
import NodeProvisioner.Pki.Signature
import NodeProvisioner.Text.Quoted

/-!
# Certificate authorities

A cluster has an authority: a certificate that may sign others, and its private key. It issues the
certificates of API servers, each with a new key.

The certificate and the key of a pair are checked to be readable, each by itself.
-/

namespace NodeProvisioner

/-- A certificate and a private key, both in text. -/
structure KeyPair where
  certificate : String
  key : String
deriving DecidableEq, Inhabited

/-- The bytes of an object in text. -/
def readPem (text : String) : Except PkiError (List UInt8) :=
  match Pem.decode? text with
  | some bytes => .ok bytes
  | none => .error (.parse .pem)

namespace Certificate

/-- Reads a certificate from its bytes. -/
def ofDer (bytes : List UInt8) (fault : ParseFault := .certificate) :
    Except PkiError Certificate :=
  match ofDer? bytes with
  | some c => .ok c
  | none => .error (.parse fault)

/-- Reads a certificate from its text. -/
def ofPem (text : String) (fault : ParseFault := .certificate) : Except PkiError Certificate := do
  ofDer (← readPem text) fault

end Certificate

namespace KeyPair

variable (S : SignatureSystem)

/-- Reads a private key from its text. -/
def readKey? (text : String) : Option S.Key := (Pem.decode? text).bind S.read?

/-- The pair of a certificate and a key, both of which can be read. -/
def ofPem (certificate key : String) : Except PkiError KeyPair := do
  if (readKey? S key).isNone then throw (.parse .privateKey)
  let _ ← Certificate.ofPem certificate
  return ⟨certificate, key⟩

/-- The names of the files of an authority. -/
def certificateFile : String := "ca.crt"

def keyFile : String := "ca.key"

/-- Reads an authority from the files of a directory. -/
def load (files : Files) (directory : String) : Except PkiError KeyPair := do
  let path := joinPath directory certificateFile
  let certificate ← (files.readText path).mapError .io
  let key ← (files.readText (joinPath directory keyFile)).mapError .io
  let pair ← ofPem S certificate key
  let c ← Certificate.ofPem certificate
  if c.isAuthority then return pair else throw (.parse (.notAuthority path))

/-- The pair as it may be shown to anyone. -/
def redacted (p : KeyPair) : String :=
  let key := Text.quoted "[REDACTED]"
  let certificate := Text.quoted p.certificate
  s!"KeyPair \x7b key_pem: {key}, cert_pem: {certificate} \x7d"

/-! ## Issuing -/

/-- Who signs a certificate. -/
structure Issuer where
  name : DistinguishedName
  key : S.Key

/-- The authority as an issuer. What its key may be used for is looked at, but not insisted on. -/
def issuer (ca : KeyPair) : Except PkiError (Issuer S) :=
  match readKey? S ca.key with
  | none => .error (.parse .caKey)
  | some key =>
    match (Pem.decode? ca.certificate).bind Certificate.ofDer? with
    | none => .error (.parse .issuer)
    | some c =>
      match c.subject.asIssuer?, c.extension? .keyUsage with
      | some name, .ok none => .ok ⟨name, key⟩
      | some name, .ok (some value) =>
        if (Der.bitRow.run value).isSome then .ok ⟨name, key⟩ else .error (.parse .issuer)
      | _, _ => .error (.parse .issuer)

/-- The bytes of a signed certificate. -/
def sign? (r : CertificateRequest) (o : Occasion) (i : Issuer S) (publicInfo : List UInt8) :
    Option (List UInt8) := do
  let kind ← S.algorithm? i.key
  let body := r.body o kind i.name publicInfo
  let signature ← S.sign? i.key o.nonce body
  return Der.sequenceOf [body, Der.sequenceOf [Der.identifier kind], Der.bits signature]

/-- A certificate for a key, signed by an issuer. -/
def issue (r : CertificateRequest) (o : Occasion) (i : Issuer S) (key : S.Key) :
    Except PkiError KeyPair :=
  let pair? := do
    let bytes ← sign? S r o i (← S.publicInfo? key)
    let secret ← S.write? key
    return (⟨Pem.encode "CERTIFICATE" bytes, Pem.encode "PRIVATE KEY" secret⟩ : KeyPair)
  match pair? with
  | some pair => .ok pair
  | none => .error (.signing (.other "unable to sign the certificate"))

/-- A new authority, good for ten years, which signs its own certificate. -/
def newAuthority (commonName : String) (o : Occasion) : Except PkiError KeyPair :=
  let key := S.generate o.keySeed
  issue S
    { commonName, days := 10 * 365, isAuthority := true,
      uses := [.certificateSigning, .revocationSigning, .digitalSignature] }
    o ⟨.ofCommonName commonName, key⟩ key

/-- A new certificate for a server, good for a year, signed by the authority. -/
def newServer (ca : KeyPair) (commonName : String) (names : AltNames) (o : Occasion) :
    Except PkiError KeyPair := do
  names.check
  let issuer ← ca.issuer S
  issue S
    { commonName, days := 365, isForServers := true, names,
      uses := [.digitalSignature, .keyEncipherment] }
    o issuer (S.generate o.keySeed)

/-- The certificate carries a signature of the authority's key. The names of issuer and authority
are not compared. -/
def hasSigned (ca : KeyPair) (certificate : String) : Except PkiError Bool := do
  let c ← Certificate.ofPem certificate
  let authority ← Certificate.ofPem ca.certificate .caCertificate
  return S.verifies authority.publicKey c.signatureAlgorithm c.body c.signature

/-- The key is the one that the certificate is for. -/
def isMatched (p : KeyPair) : Bool :=
  match readKey? S p.key, Certificate.ofPem p.certificate with
  | some key, .ok c => S.publicInfo? key = some c.publicKey.raw
  | _, _ => false

end KeyPair

end NodeProvisioner
