import NodeProvisioner.Crypto.Curve
import NodeProvisioner.Encoding.Der

/-!
# Signatures on elliptic curves

A private key is a number below the order of the base point, its public key the multiple of the
base point by it. A signature is a pair of numbers; it is made with a random number that is used
only once. It belongs to the digest of a message, of which it covers as many bits as the order has.

Few random numbers are of no use: nothing comes of them but a zero. Where one of them is drawn,
another takes its place.
-/

namespace NodeProvisioner.Ecdsa

/-- The number that stands for a digest. -/
def ofDigest (c : Curve) (digest : List UInt8) : Nat :=
  let n := Der.ofBytes digest
  let width := Nat.log2 c.order + 1
  n >>> (8 * digest.length - width)

/-- A number below the order, other than zero, from random bytes. -/
def scalarOf (c : Curve) (random : List UInt8) : Nat := Der.ofBytes random % (c.order - 1) + 1

/-- What is made of the greatest number, up to a limit, that something can be made of. -/
def greatest? {α : Type} (make? : Nat → Option α) : Nat → Option α
  | 0 => none
  | n + 1 => make? (n + 1) <|> greatest? make? n

/-- What is made of a random number, or of another if the number is of no use. -/
def drawn? {α : Type} (c : Curve) (make? : Nat → Option α) (random : List UInt8) : Option α :=
  make? (scalarOf c random) <|> greatest? make? (c.order - 1)

/-- The public key of a private one. -/
def publicKey? (c : Curve) (secret : Nat) : Option (Nat × Nat) :=
  if 0 < secret ∧ secret < c.order then c.baseMultiple? secret else none

/-- A private key from random bytes. -/
def newSecret? (c : Curve) (random : List UInt8) : Option Nat :=
  drawn? c (fun n => (publicKey? c n).map fun _ => n) random

/-- The signature of a digest with a random number: `none` if this is of no use. -/
def signWith? (c : Curve) (secret number : Nat) (digest : List UInt8) : Option (Nat × Nat) := do
  let n := c.order
  let (x, _) ← c.baseMultiple? number
  let r := x % n
  let s := Curve.inverse n number * ((ofDigest c digest + r * secret) % n) % n
  if r = 0 ∨ s = 0 then none else some (r, s)

/-- The signature of a digest. -/
def sign? (c : Curve) (secret : Nat) (random digest : List UInt8) : Option (Nat × Nat) :=
  if 0 < secret ∧ secret < c.order then drawn? c (signWith? c secret · digest) random else none

/-- The signature belongs to the digest and the public key. -/
def verifies (c : Curve) (key : Nat × Nat) (signature : Nat × Nat) (digest : List UInt8) : Bool :=
  let n := c.order
  let (r, s) := signature
  if r = 0 || n ≤ r || s = 0 || n ≤ s then false
  else
    let w := Curve.inverse n s
    let u := ofDigest c digest * w % n
    let v := r * w % n
    let sum := c.add (c.multiple u (Curve.projective c.base)) (c.multiple v (Curve.projective key))
    match c.plane? sum with
    | some (x, _) => x % n = r
    | none => false

/-! ## Bytes -/

/-- The bytes of a signature. -/
def encodeSignature (signature : Nat × Nat) : List UInt8 :=
  Der.sequenceOf [Der.natural signature.1, Der.natural signature.2]

/-- Reads a signature. -/
def decodeSignature? (bytes : List UInt8) : Option (Nat × Nat) := do
  let (signature, rest) ← (Der.exactly Der.sequence do
    let r ← Der.shortestNatural
    let s ← Der.shortestNatural
    return (r, s)).run bytes
  if rest.isEmpty then some signature else none

/-- The bytes of a point: a mark and both coordinates. -/
def encodePoint (c : Curve) (p : Nat × Nat) : List UInt8 :=
  4 :: Der.fixedBytes c.size p.1 ++ Der.fixedBytes c.size p.2

/-- Reads a point of the curve. -/
def decodePoint? (c : Curve) (bytes : List UInt8) : Option (Nat × Nat) :=
  match bytes with
  | 4 :: coordinates =>
    let p := (Der.ofBytes (coordinates.take c.size), Der.ofBytes (coordinates.drop c.size))
    if coordinates.length = 2 * c.size ∧ c.contains p then some p else none
  | _ => none

end NodeProvisioner.Ecdsa
