import NodeProvisioner.Net.Address
import NodeProvisioner.Pki.ObjectId
import NodeProvisioner.Time.Timestamp

/-!
# Certificates

A certificate binds a public key to a subject, in the words of an issuer who has signed it. What
it may be used for, and which other names the subject has, stands in extensions.

A reader takes the structure strictly but the extensions one by one: an extension that cannot be
read, or that is there twice, counts as if it were not there.
-/

namespace NodeProvisioner

/-- An attribute of a name: its type, and its value with the tag of a type of strings. -/
structure Attribute where
  kind : ObjectId
  tag : Nat
  value : List UInt8
deriving DecidableEq, Inhabited

/-- A name: a row of sets of attributes. -/
abbrev DistinguishedName := List (List Attribute)

/-- A public key: what kind of key it is, and its bits. -/
structure PublicKeyInfo where
  algorithm : ObjectId
  /-- The parameters of the kind of key, where they are an object identifier. -/
  parameters : Option ObjectId
  bits : List UInt8
  /-- The bytes of the whole. -/
  raw : List UInt8
deriving DecidableEq, Inhabited

/-- An extension. -/
structure Extension where
  kind : ObjectId
  critical : Bool
  value : List UInt8
deriving DecidableEq, Inhabited

/-- A certificate. -/
structure Certificate where
  /-- The bytes that are signed. -/
  body : List UInt8
  issuer : DistinguishedName
  subject : DistinguishedName
  notBefore : Int
  notAfter : Int
  publicKey : PublicKeyInfo
  extensions : List Extension
  signatureAlgorithm : ObjectId
  signature : List UInt8
deriving DecidableEq, Inhabited

/-- The text of bytes. -/
def textOf? (bytes : List UInt8) : Option String := String.fromUTF8? ⟨bytes.toArray⟩

/-- The text of an attribute, if its type is one of texts. -/
def Attribute.text? (a : Attribute) : Option String :=
  if [Der.utf8String, Der.numericString, Der.printableString, Der.ia5String].contains a.tag then
    textOf? a.value
  else none

namespace Certificate

open Der

/-! ## Reading -/

def nameAttribute : Reader Attribute := within sequence do
  let kind ← content objectIdentifier
  let value ← any
  return ⟨kind, value.number, value.content⟩

def attributeSet : Reader (List Attribute) := within set do
  let attributes ← row nameAttribute
  if attributes.isEmpty then failure else return attributes

def name : Reader DistinguishedName := within sequence (row attributeSet)

/-- The number that two digits stand for. -/
def twoDigits? (a b : UInt8) : Option Nat :=
  if 48 ≤ a && a ≤ 57 && 48 ≤ b && b ≤ 57 then some ((a.toNat - 48) * 10 + (b.toNat - 48))
  else none

/-- The numbers that pairs of digits stand for, up to a `Z`, with nothing but a fraction before
it. -/
def digitPairs? : List UInt8 → Option (List Nat)
  | [90] => some []
  | 46 :: d :: rest =>
    if (d :: rest).getLast? = some 90 && (d :: rest).length > 1 &&
      (d :: rest).dropLast.all (fun b => 48 ≤ b && b ≤ 57) then some [] else none
  | a :: b :: rest => do
    let n ← twoDigits? a b
    let more ← digitPairs? rest
    return n :: more
  | _ => none

/-- The seconds from the start of 1970 to a time. -/
def secondsOf? (year month day hour minute second : Nat) : Option Int :=
  let date : Date := ⟨year, month, day⟩
  if date.isValid && hour ≤ 23 && minute ≤ 59 && second ≤ 59 then
    some (date.toDays * 86400 + (hour * 3600 + minute * 60 + second : Nat))
  else none

/-- Reads a time, in Universal Time and with its seconds. A year of two digits is one from 1950 to
2049. -/
def time : Reader Int := fun bytes => do
  let (e, rest) ← any.run bytes
  let seconds ←
    if e.number = utcTime then
      match e.content.contains 46, digitPairs? e.content with
      | false, some [y, mo, d, h, mi, s] =>
        secondsOf? (if y ≥ 50 then 1900 + y else 2000 + y) mo d h mi s
      | _, _ => none
    else if e.number = generalizedTime then
      match digitPairs? e.content with
      | some [c, y, mo, d, h, mi, s] => secondsOf? (100 * c + y) mo d h mi s
      | _ => none
    else none
  return (seconds, rest)

/-- Reads the kind of a key or a signature, with its parameters. -/
def algorithm : Reader (ObjectId × Option Element) := within sequence do
  let kind ← content objectIdentifier
  let parameters ← perhaps any
  return (kind, parameters)

/-- Reads a public key. -/
def publicKeyInfo : Reader PublicKeyInfo := do
  let ((kind, parameters, bits), raw) ← withBytes (within sequence do
    let (kind, parameters) ← algorithm
    let (_, bits) ← bitRow
    return (kind, parameters, bits))
  let parameters := (parameters.filter (·.number = objectIdentifier)).map (·.content)
  return ⟨kind, parameters, bits, raw⟩

def extension : Reader Extension := within sequence do
  let kind ← content objectIdentifier
  let critical ← perhaps (content boolean)
  let value ← content octetString
  return ⟨kind, critical.any (· ≠ [0]), value⟩

/-- Goes past a value under a tag that depends on its place, if it comes next. -/
def skipTagged (number : Nat) : Reader Unit := fun bytes =>
  match any.run bytes with
  | some (e, rest) => some ((), if e.number = number ∧ e.lead ≥ 128 then rest else bytes)
  | none => some ((), bytes)

/-- Goes past the version, if it comes next. -/
def version : Reader Unit := fun bytes => do
  let (e, rest) ← any.run bytes
  if e.number = 0 then
    let (n, _) ← naturalNumber.run e.content
    if n < 1 <<< 32 then some ((), rest) else none
  else some ((), bytes)

/-- Reads the extensions, up to the end. -/
def extensionRow : Reader (List Extension) := do
  if ← isAtEnd then return []
  else
    let c ← content 3
    let (extensions, rest) ← (exactly sequence (row extension)).run c
    if rest.isEmpty && (← isAtEnd) then return extensions else failure

/-- What stands in the signed part of a certificate. -/
structure Body where
  issuer : DistinguishedName
  notBefore : Int
  notAfter : Int
  subject : DistinguishedName
  publicKey : PublicKeyInfo
  extensions : List Extension

/-- Reads the signed part. -/
def signedPart : Reader Body := within sequence do
  version
  let _ ← content integer
  let _ ← algorithm
  let issuer ← name
  let (notBefore, notAfter) ← within sequence do
    let first ← time
    let last ← time
    return (first, last)
  let subject ← name
  let publicKey ← publicKeyInfo
  skipTagged 1
  skipTagged 2
  let extensions ← extensionRow
  return { issuer, notBefore, notAfter, subject, publicKey, extensions }

/-- Reads a certificate. -/
def reader : Reader Certificate := within sequence do
  let (b, raw) ← withBytes signedPart
  let (kind, _) ← algorithm
  let (_, signature) ← bitRow
  return ⟨raw, b.issuer, b.subject, b.notBefore, b.notAfter, b.publicKey, b.extensions, kind,
    signature⟩

/-- The certificate that the bytes begin with. -/
def ofDer? (bytes : List UInt8) : Option Certificate := (reader.run bytes).map (·.1)

/-! ## Extensions -/

/-- The value of the only extension of a kind: nothing if there is none, an error if there is more
than one. -/
def extension? (c : Certificate) (kind : ObjectId) : Except Unit (Option (List UInt8)) :=
  match c.extensions.filter (·.kind = kind) with
  | [] => .ok none
  | [e] => .ok (some e.value)
  | _ => .error ()

/-- What the only extension of a kind says, if it can be read. -/
def view? {α : Type} (c : Certificate) (kind : ObjectId) (r : Reader α) : Option α :=
  match c.extension? kind with
  | .ok (some value) => (r.run value).map (·.1)
  | _ => none

/-- A name of the subject outside of directories. -/
inductive GeneralName where
  | dns (name : String)
  | address (octets : List UInt8)
  | other
deriving DecidableEq

/-- Reads a name. -/
def generalName : Reader GeneralName := fun bytes => do
  let (e, rest) ← any.run bytes
  let name ← match e.number with
    | 0 => (content objectIdentifier).run e.content |>.map fun _ => GeneralName.other
    | 1 => (textOf? e.content).map fun _ => .other
    | 2 => (textOf? e.content).map .dns
    | 4 => do
      let (_, rest) ← name.run e.content
      if rest.isEmpty then some .other else none
    | 6 => (textOf? e.content).map fun _ => .other
    | 7 => some (.address e.content)
    | n => if n ≤ 8 then some .other else none
  return (name, rest)

def generalNames : Reader (List GeneralName) := exactly sequence (row generalName)

/-- The other names of the subject. -/
def altNames (c : Certificate) : List GeneralName :=
  (c.view? .subjectAltName generalNames).getD []

/-- The names of the subject in the domain name system. -/
def dnsNames (c : Certificate) : List String :=
  c.altNames.filterMap fun name => match name with
    | .dns s => some s
    | _ => none

/-- The addresses of the subject. -/
def addresses (c : Certificate) : List IpAddress :=
  c.altNames.filterMap fun name => match name with
    | .address octets => IpAddress.ofOctets? octets
    | _ => none

/-- What the key may be used for by parties to a connection. -/
def purposes (c : Certificate) : List ObjectId :=
  (c.view? .extendedKeyUsage (exactly sequence (row (content objectIdentifier)))).getD []

def isForServers (c : Certificate) : Bool := c.purposes.contains .serverAuth

def isForClients (c : Certificate) : Bool := c.purposes.contains .clientAuth

/-- Reads a truth value from its byte. -/
def truth? : List UInt8 → Option Bool
  | [0] => some false
  | [255] => some true
  | _ => none

/-- Reads whether the subject is an authority, which may be left out, as may the length of the
chains it starts. -/
def authority : Reader Bool := do
  let truthOf (e : Element) : Reader Bool := fun bytes =>
    if e.number = boolean then (truth? e.content).map (·, bytes) else none
  let isLength (e : Element) : Bool :=
    e.number = integer && e.content ≠ [] && ofBytes e.content < 1 <<< 32 &&
      e.content.head?.any (· < 128)
  match ← exactly sequence (row any) with
  | [] => return false
  | [e] => if isLength e then return false else truthOf e
  | [e, length] => if isLength length then truthOf e else failure
  | _ => failure

/-- The subject is an authority that signs certificates. -/
def isAuthority (c : Certificate) : Bool := (c.view? .basicConstraints authority).getD false

/-- The uses of a key, in the order of their bits. -/
def usageNames : List String :=
  ["Digital Signature", "Non Repudiation", "Key Encipherment", "Data Encipherment",
   "Key Agreement", "Key Cert Sign", "CRL Sign", "Encipher Only", "Decipher Only"]

/-- The bits of bytes, the highest of each byte first. -/
def bitsOf (bytes : List UInt8) : List Bool :=
  bytes.flatMap fun b => (List.range 8).map fun i => b.toNat.testBit (7 - i)

/-- The uses that the key is restricted to. -/
def usages? (c : Certificate) : Option (List String) :=
  (c.view? .keyUsage bitRow).map fun (_, bytes) =>
    ((usageNames.zip (bitsOf bytes)).filter (·.2)).map (·.1)

/-! ## Names -/

/-- The first common name of the subject, empty if it has none. -/
def commonName (c : Certificate) : String :=
  match c.subject.flatten.find? (·.kind = .commonName) with
  | some a => a.text?.getD ""
  | none => ""

/-- A name in text: each attribute with the short name of its type. -/
def nameText (name : DistinguishedName) : String :=
  let attributeText (a : Attribute) : String :=
    (ObjectId.attributeNames.lookup a.kind).getD "?" ++ "=" ++ a.text?.getD ""
  ", ".intercalate (name.map fun set => " + ".intercalate (set.map attributeText))

/-- How long the certificate is good for, in seconds. -/
def lifetime (c : Certificate) : Int := c.notAfter - c.notBefore

end Certificate

end NodeProvisioner
