/-!
# Elliptic curves over prime fields

The points of a curve `y² = x³ - 3x + b` form a group. Its neutral element is not on the plane.
Multiples of a point are computed in projective coordinates, where `(x, y, z)` stands for the point
`(x / z², y / z³)`, so that a division is needed only at the end.
-/

namespace NodeProvisioner

/-- A curve with a base point. -/
structure Curve where
  /-- The size of the field. -/
  prime : Nat
  coefficient : Nat
  base : Nat × Nat
  /-- The order of the base point. -/
  order : Nat
  /-- The number of bytes of a coordinate. -/
  size : Nat
deriving DecidableEq, Inhabited

namespace Curve

/-- The curve of 256 bits. -/
def p256 : Curve where
  prime := 1 <<< 256 - 1 <<< 224 + 1 <<< 192 + 1 <<< 96 - 1
  coefficient := 0x5ac635d8aa3a93e7b3ebbd55769886bc651d06b0cc53b0f63bce3c3e27d2604b
  base :=
    (0x6b17d1f2e12c4247f8bce6e563a440f277037d812deb33a0f4a13945d898c296,
     0x4fe342e2fe1a7f9b8ee7eb4a7c0f9e162bce33576b315ececbb6406837bf51f5)
  order := 0xffffffff00000000ffffffffffffffffbce6faada7179e84f3b9cac2fc632551
  size := 32

/-- The curve of 384 bits. -/
def p384 : Curve where
  prime := 1 <<< 384 - 1 <<< 128 - 1 <<< 96 + 1 <<< 32 - 1
  coefficient := 0xb3312fa7e23ee7e4988e056be3f82d19181d9c6efe8141120314088f5013875ac656398d8a2ed19d2a85c8edd3ec2aef
  base :=
    (0xaa87ca22be8b05378eb1c71ef320ad746e1d3b628ba79b9859f741e082542a385502f25dbf55296c3a545e3872760ab7,
     0x3617de4a96262c6f5d9e98bf9292dc29f8f41dbd289a147ce9da3113b5f0b8c00a60b1ce1d7e819d7a431d7c90ea0e5f)
  order := 0xffffffffffffffffffffffffffffffffffffffffffffffffc7634d81f4372ddf581a0db248b0a77aecec196accc52973
  size := 48

/-- The curve of 521 bits. -/
def p521 : Curve where
  prime := 1 <<< 521 - 1
  coefficient := 0x0051953eb9618e1c9a1f929a21a0b68540eea2da725b99b315f3b8b489918ef109e156193951ec7e937b1652c0bd3bb1bf073573df883d2c34f1ef451fd46b503f00
  base :=
    (0x00c6858e06b70404e9cd9e3ecb662395b4429c648139053fb521f828af606b4d3dbaa14b5e77efe75928fe1dc127a2ffa8de3348b3c1856a429bf97e7e31c2e5bd66,
     0x011839296a789a3bc0045c8a5fb42c7d1bd998f54449579b446817afbd17273e662c97ee72995ef42640c550b9013fad0761353c7086a272c24088be94769fd16650)
  order := 1 <<< 521 - 0x5ae79787c40d069948033feb708f65a2fc44a36477663b851449048e16ec79bf7
  size := 66

/-- `x ^ e` modulo `m`. -/
def power (m x e : Nat) : Nat :=
  if e = 0 then 1 % m
  else
    let half := power m (x * x % m) (e / 2)
    if e % 2 = 1 then half * x % m else half
termination_by e
decreasing_by omega

/-- The inverse modulo a prime. -/
def inverse (m x : Nat) : Nat := power m x (m - 2)

/-- The difference modulo `m` of numbers, the second of which is below `m`. -/
def minus (m x y : Nat) : Nat := (x + (m - y)) % m

/-- A point in projective coordinates; it is neutral where `z` is zero. -/
structure Projective where
  x : Nat
  y : Nat
  z : Nat

/-- The neutral element. -/
def neutral : Projective := ⟨1, 1, 0⟩

/-- A point plus itself. -/
def double (c : Curve) (a : Projective) : Projective :=
  let m := c.prime
  let zz := a.z * a.z % m
  let yy := a.y * a.y % m
  let s := 4 * a.x * yy % m
  let t := 3 * minus m a.x zz * ((a.x + zz) % m) % m
  let x := minus m (t * t % m) (2 * s % m)
  let y := minus m (t * minus m s x % m) (8 * (yy * yy % m) % m)
  ⟨x, y, 2 * a.y * a.z % m⟩

/-- The sum of two points. -/
def add (c : Curve) (a b : Projective) : Projective :=
  let m := c.prime
  if a.z = 0 then b
  else if b.z = 0 then a
  else
    let az := a.z * a.z % m
    let bz := b.z * b.z % m
    let u := a.x * bz % m
    let v := b.x * az % m
    let s := a.y * (bz * b.z % m) % m
    let t := b.y * (az * a.z % m) % m
    if u = v then if s = t then c.double a else neutral
    else
      let h := minus m v u
      let r := minus m t s
      let hh := h * h % m
      let hhh := hh * h % m
      let w := u * hh % m
      let x := minus m (minus m (r * r % m) hhh) (2 * w % m)
      let y := minus m (r * minus m w x % m) (s * hhh % m)
      ⟨x, y, h * (a.z * b.z % m) % m⟩

/-- A multiple of a point. -/
def multiple (c : Curve) (n : Nat) (a : Projective) : Projective :=
  if n = 0 then neutral
  else
    let half := c.double (multiple c (n / 2) a)
    if n % 2 = 1 then c.add half a else half
termination_by n
decreasing_by omega

/-- The coordinates in the plane, except for the neutral element. -/
def plane? (c : Curve) (a : Projective) : Option (Nat × Nat) :=
  if a.z = 0 then none
  else
    let i := inverse c.prime a.z
    let ii := i * i % c.prime
    some (a.x * ii % c.prime, a.y * (ii * i % c.prime) % c.prime)

/-- A point of the plane in projective coordinates. -/
def projective (p : Nat × Nat) : Projective := ⟨p.1, p.2, 1⟩

/-- The point is on the curve. -/
def contains (c : Curve) (p : Nat × Nat) : Bool :=
  let (x, y) := p
  x < c.prime && y < c.prime &&
    (y * y) % c.prime = (x * x * x + (c.prime - 3) * x + c.coefficient) % c.prime

/-- A multiple of the base point. -/
def baseMultiple? (c : Curve) (n : Nat) : Option (Nat × Nat) :=
  c.plane? (c.multiple n (projective c.base))

end Curve

end NodeProvisioner
