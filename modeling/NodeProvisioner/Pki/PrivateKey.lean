import NodeProvisioner.Crypto.Ecdsa
import NodeProvisioner.Pki.ObjectId

/-!
# Private keys

A key stands in one of three forms: one for keys of any kind, which wraps the others, one for keys
of elliptic curves and one for those made of two primes. Which form it is shows in the first bytes.
A key is accepted only if its parts fit together.
-/

namespace NodeProvisioner

/-- A private key. -/
inductive PrivateKey where
  | elliptic (curve : Curve) (secret : Nat)
  | rsa (modulus publicExponent privateExponent : Nat)
  | edwards (seed : List UInt8)
deriving DecidableEq, Inhabited

namespace PrivateKey

open Der

/-- The curves with their identifiers. -/
def curves : List (ObjectId × Curve) :=
  [(.curve256, .p256), (.curve384, .p384), (.curve521, .p521)]

/-- The identifier of a curve. -/
def curveId (c : Curve) : ObjectId :=
  ((curves.find? (·.2 = c)).map (·.1)).getD []

/-! ## Elliptic curves -/

/-- Reads the parts under a tag that depends on its place, if it comes next. -/
def taggedPart {α : Type} (number : Nat) (inner : Reader α) : Reader (Option α) := fun bytes =>
  match any.run bytes with
  | some (e, rest) =>
    if e.number = number ∧ e.lead ≥ 128 then
      (inner.run e.content).map fun (a, _) => (some a, rest)
    else some (none, bytes)
  | none => some (none, bytes)

/-- Reads a key of an elliptic curve. The curve is known beforehand or stated, and has to be the
same if it is both; a public key has to be the one of the private key. -/
def ellipticKey (known : Option Curve) : Reader PrivateKey := within sequence do
  let version ← naturalNumber
  let secret ← content octetString
  let stated ← taggedPart 0 (content objectIdentifier)
  let shown ← taggedPart 1 bitRow
  let curve : Option Curve := match stated with
    | none => known
    | some kind => (curves.lookup kind).filter fun c => known.all (· = c)
  match curve with
  | none => failure
  | some c =>
    match Ecdsa.publicKey? c (ofBytes secret) with
    | none => failure
    | some p =>
      if version = 1 ∧ shown.all fun (_, bits) => Ecdsa.decodePoint? c bits = some p then
        return .elliptic c (ofBytes secret)
      else failure

/-! ## Two primes -/

/-- The parts of a key made of two primes fit together, and it is neither too short nor too
long. -/
def primesFit (n e d p q dp dq inverse : Nat) : Bool :=
  let size := Nat.log2 n + 1
  2048 ≤ size && size ≤ 8192 && n = p * q && e % 2 = 1 && 1 < e && 1 < p && 1 < q &&
    e * d % (p - 1) = 1 && e * d % (q - 1) = 1 && dp = d % (p - 1) && dq = d % (q - 1) &&
    inverse * q % p = 1

/-- Reads a key made of two primes. -/
def primesKey : Reader PrivateKey := within sequence do
  let version ← naturalNumber
  let n ← naturalNumber
  let e ← naturalNumber
  let d ← naturalNumber
  let p ← naturalNumber
  let q ← naturalNumber
  let dp ← naturalNumber
  let dq ← naturalNumber
  let inverse ← naturalNumber
  if version = 0 && primesFit n e d p q dp dq inverse then return .rsa n e d else failure

/-! ## Any kind -/

/-- Reads the inner key of a kind. -/
def innerKey (kind : ObjectId) (parameters : Option Element) : Reader PrivateKey :=
  if kind = .ellipticKey then
    match parameters.bind fun e => curves.lookup e.content with
    | some c => ellipticKey (some c)
    | none => failure
  else if kind = .rsaKey then
    if parameters.any (·.number = null) then primesKey else failure
  else if kind = .edwardsKey then do
    let seed ← content octetString
    if seed.length = 32 ∧ parameters = none then return .edwards seed else failure
  else failure

/-- Reads a key of any kind. -/
def anyKey : Reader PrivateKey := within sequence do
  let version ← naturalNumber
  let (kind, parameters) ← within sequence do
    let kind ← content objectIdentifier
    let parameters ← perhaps any
    return (kind, parameters)
  let inner ← content octetString
  match (innerKey kind parameters).run inner with
  | some (key, _) => if version ≤ 1 then return key else failure
  | none => failure

/-- The key that a reader takes all of the bytes for. -/
def readAll? (r : Reader PrivateKey) (bytes : List UInt8) : Option PrivateKey :=
  match r.run bytes with
  | some (key, []) => some key
  | _ => none

/-- The key that the bytes hold. -/
def ofDer? (bytes : List UInt8) : Option PrivateKey :=
  readAll? anyKey bytes <|> readAll? (ellipticKey none) bytes <|> readAll? primesKey bytes

/-- A key of the curve of 256 bits from random bytes. -/
def generate (random : List UInt8) : PrivateKey :=
  .elliptic .p256 ((Ecdsa.newSecret? .p256 random).getD 1)

/-! ## Public keys -/

/-- The bytes of the public key, for a key of an elliptic curve. -/
def publicInfo? : PrivateKey → Option (List UInt8)
  | elliptic c secret => (Ecdsa.publicKey? c secret).map fun p =>
    sequenceOf [sequenceOf [identifier ObjectId.ellipticKey, identifier (curveId c)],
      bits (Ecdsa.encodePoint c p)]
  | _ => none

/-- The bytes of a key of an elliptic curve, in the form for keys of any kind. -/
def encode? : PrivateKey → Option (List UInt8)
  | elliptic c secret => (Ecdsa.publicKey? c secret).map fun p =>
    sequenceOf [natural 0, sequenceOf [identifier ObjectId.ellipticKey, identifier (curveId c)],
      octets (sequenceOf [natural 1, octets (fixedBytes c.size secret),
        tagged 1 [bits (Ecdsa.encodePoint c p)]])]
  | _ => none

end PrivateKey

end NodeProvisioner
