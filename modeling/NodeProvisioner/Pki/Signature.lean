import NodeProvisioner.Crypto.Digest
import NodeProvisioner.Pki.Certificate
import NodeProvisioner.Pki.PrivateKey

/-!
# Signatures on certificates

An authority needs private keys that can be read, written and made, and signatures that are made
with a private key and verified with a public one. It does not matter to it how they work: any
system of signatures will do. The one in use signs on elliptic curves.
-/

namespace NodeProvisioner

/-- A system of signatures. -/
structure SignatureSystem where
  Key : Type
  /-- Reads a private key. -/
  read? : List UInt8 → Option Key
  /-- The bytes of a private key. -/
  write? : Key → Option (List UInt8)
  /-- A new private key from random bytes. -/
  generate : List UInt8 → Key
  /-- The bytes of the public key of a private key. -/
  publicInfo? : Key → Option (List UInt8)
  /-- The kind of the signatures of a key. -/
  algorithm? : Key → Option ObjectId
  /-- The signature of a message with a key, made from random bytes. -/
  sign? : Key → List UInt8 → List UInt8 → Option (List UInt8)
  /-- The signature, of some kind, of the message belongs to the public key. -/
  verifies : PublicKeyInfo → ObjectId → List UInt8 → List UInt8 → Bool

namespace SignatureSystem

/-- The digest of signatures of a kind. -/
def digest? (kind : ObjectId) (message : List UInt8) : Option (List UInt8) :=
  if kind = .ecdsaWithSha256 then some (Digest.sha256.digest message)
  else if kind = .ecdsaWithSha384 then some (Digest.sha384.digest message)
  else none

/-- The kind of signatures made with a key. -/
def kindOf? : PrivateKey → Option ObjectId
  | .elliptic c _ =>
    if c = .p256 then some .ecdsaWithSha256 else if c = .p384 then some .ecdsaWithSha384 else none
  | _ => none

/-- The curves on which signatures are verified. -/
def curve? (key : PublicKeyInfo) : Option Curve :=
  match key.parameters with
  | none => none
  | some kind =>
    if kind = .curve256 then some .p256 else if kind = .curve384 then some .p384 else none

/-- The signature of a message. -/
def signMessage? (key : PrivateKey) (random message : List UInt8) : Option (List UInt8) := do
  let kind ← kindOf? key
  let digest ← digest? kind message
  match key with
  | .elliptic c secret =>
    let signature ← Ecdsa.sign? c secret random digest
    return Ecdsa.encodeSignature signature
  | _ => none

/-- The signature belongs to the message and the key. -/
def verifyMessage? (key : PublicKeyInfo) (kind : ObjectId) (message signature : List UInt8) :
    Option Bool := do
  let c ← curve? key
  let digest ← digest? kind message
  let point ← Ecdsa.decodePoint? c key.bits
  let pair ← Ecdsa.decodeSignature? signature
  return Ecdsa.verifies c point pair digest

/-- Signatures on elliptic curves. -/
def elliptic : SignatureSystem where
  Key := PrivateKey
  read? := PrivateKey.ofDer?
  write? := PrivateKey.encode?
  generate := PrivateKey.generate
  publicInfo? := PrivateKey.publicInfo?
  algorithm? := kindOf?
  sign? := signMessage?
  verifies key kind message signature := (verifyMessage? key kind message signature).getD false

end SignatureSystem

end NodeProvisioner
