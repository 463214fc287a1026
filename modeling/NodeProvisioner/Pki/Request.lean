import NodeProvisioner.Pki.AltNames
import NodeProvisioner.Pki.Certificate

/-!
# Certificate requests

What a new certificate is to say, and the bytes that are signed for it. The issuer's name comes
from the certificate of the authority.
-/

namespace NodeProvisioner

/-- A use of a key, by the number of its bit. -/
inductive KeyUse where
  | digitalSignature
  | keyEncipherment
  | certificateSigning
  | revocationSigning
deriving DecidableEq, Repr

/-- What a certificate is to say. -/
structure CertificateRequest where
  commonName : String
  days : Nat
  uses : List KeyUse
  isAuthority : Bool := false
  isForServers : Bool := false
  names : AltNames := {}

/-- What makes an issued certificate unlike any other: the time, and random bytes for its key, its
number and its signature. -/
structure Occasion where
  now : Timestamp
  keySeed : List UInt8
  serial : List UInt8
  nonce : List UInt8
deriving Inhabited

/-- The number of the bit of a use. -/
def KeyUse.bit : KeyUse → Nat
  | digitalSignature => 0
  | keyEncipherment => 2
  | certificateSigning => 5
  | revocationSigning => 6

namespace DistinguishedName

/-- The name that consists of a common name. -/
def ofCommonName (name : String) : DistinguishedName :=
  [[⟨.commonName, Der.utf8String, name.toUTF8.toList⟩]]

/-- The characters that printable strings consist of. -/
def isPrintable (c : Char) : Bool := c.isAlphanum || " '()+,-./:=?".toList.contains c

/-- The value is one of its type of strings. -/
def isString (a : Attribute) : Bool :=
  let all (p : Char → Bool) : Bool := (textOf? a.value).any fun s => s.toList.all p
  if a.tag = Der.utf8String then all fun _ => true
  else if a.tag = Der.printableString then all isPrintable
  else if a.tag = Der.ia5String then all (·.toNat < 128)
  else if a.tag = Der.teletexString then all fun c => 32 ≤ c.toNat && c.toNat < 128
  else if a.tag = Der.bmpString then a.value.length % 2 = 0
  else if a.tag = Der.universalString then a.value.length % 4 = 0
  else false

/-- Puts an attribute into a name: in the place of one of the same type. -/
def put (name : DistinguishedName) (a : Attribute) : DistinguishedName :=
  if name.any (·.any (·.kind = a.kind)) then
    name.map fun set => if set.any (·.kind = a.kind) then [a] else set
  else name ++ [[a]]

/-- The name as an issuer bears it: each set has one attribute, and of several attributes of one
type the last stands in the place of the first. -/
def asIssuer? (name : DistinguishedName) : Option DistinguishedName :=
  name.foldlM (fun issuer set => match set with
    | [a] => if isString a then some (put issuer a) else none
    | _ => none) []

/-- The bytes of a name. -/
def encode (name : DistinguishedName) : List UInt8 :=
  Der.sequenceOf (name.map fun set => Der.constructed Der.set (set.map fun a =>
    Der.sequenceOf [Der.identifier a.kind, Der.primitive a.tag a.value]))

end DistinguishedName

namespace CertificateRequest

/-- Two digits. -/
def pair (n : Nat) : List UInt8 := [UInt8.ofNat (48 + n / 10 % 10), UInt8.ofNat (48 + n % 10)]

/-- A time: with a year of two digits where that is enough. -/
def encodeTime (seconds : Int) : List UInt8 :=
  let date := Date.ofDays (seconds / 86400)
  let time := (seconds % 86400).toNat
  let year := date.year.toNat
  let rest := pair date.month ++ pair date.day ++ pair (time / 3600) ++ pair (time / 60 % 60) ++
    pair (time % 60) ++ [90]
  if 1950 ≤ year ∧ year < 2050 then Der.primitive Der.utcTime (pair year ++ rest)
  else Der.primitive Der.generalizedTime (pair (year / 100) ++ pair year ++ rest)

/-- The bits of the uses of a key, all of which are in one byte. -/
def encodeUses (uses : List KeyUse) : List UInt8 :=
  let byte := uses.foldl (fun n use => n ||| 1 <<< (7 - use.bit)) 0
  let unused := ((List.range 8).find? fun i => byte.testBit i).getD 8
  if byte = 0 then Der.primitive Der.bitString [0]
  else Der.primitive Der.bitString [UInt8.ofNat unused, UInt8.ofNat byte]

/-- The names and addresses of a server: addresses come first. -/
def encodeNames (names : AltNames) : List UInt8 :=
  Der.sequenceOf (names.addresses.map (fun a => Der.taggedBytes 7 a.octets) ++
    names.dnsNames.map fun s => Der.taggedBytes 2 s.toUTF8.toList)

/-- An extension. -/
def encodeExtension (kind : ObjectId) (critical : Bool) (value : List UInt8) : List UInt8 :=
  Der.sequenceOf ([Der.identifier kind] ++ (if critical then [Der.truth true] else []) ++
    [Der.octets value])

/-- The extensions. -/
def extensions (r : CertificateRequest) : List (List UInt8) :=
  (if r.names.addresses.isEmpty && r.names.dnsNames.isEmpty then []
    else [encodeExtension .subjectAltName false (encodeNames r.names)]) ++
  [encodeExtension .keyUsage true (encodeUses r.uses)] ++
  (if r.isForServers then
    [encodeExtension .extendedKeyUsage false
      (Der.sequenceOf [Der.identifier ObjectId.serverAuth])] else []) ++
  (if r.isAuthority then
    [encodeExtension .basicConstraints true (Der.sequenceOf [Der.truth true])] else [])

/-- The number of a certificate, from random bytes. -/
def serialNumber (random : List UInt8) : Nat := Der.ofBytes random % 1 <<< 159

/-- The bytes that are signed. -/
def body (r : CertificateRequest) (o : Occasion) (algorithm : ObjectId)
    (issuer : DistinguishedName) (publicInfo : List UInt8) : List UInt8 :=
  Der.sequenceOf
    [Der.tagged 0 [Der.natural 2],
     Der.natural (serialNumber o.serial),
     Der.sequenceOf [Der.identifier algorithm],
     issuer.encode,
     Der.sequenceOf [encodeTime o.now.seconds, encodeTime (o.now.seconds + r.days * 86400)],
     (DistinguishedName.ofCommonName r.commonName).encode,
     publicInfo,
     Der.tagged 3 [Der.sequenceOf r.extensions]]

end CertificateRequest

end NodeProvisioner
