/-!
# The shortest decimal of a binary floating-point number

A finite positive double is `mantissa * 2 ^ exponent`. The reals that round to it form an interval
around it, whose ends belong to it when the mantissa is even. Among the decimals `digits * 10 ^ k`
in that interval those with the fewest digits are the shortest, and of them the one nearest to the
number is chosen.

All comparisons are made in natural numbers: the number and the two ends of its interval are kept
as numerators over one denominator.
-/

namespace NodeProvisioner.Decimal

/-- The natural number `digits` times ten to the power `exponent`. -/
structure Scaled where
  digits : Nat
  exponent : Int
deriving DecidableEq, Repr

/-- A number and the interval of reals that round to it, over one denominator. -/
structure Neighbourhood where
  low : Nat
  value : Nat
  high : Nat
  denominator : Nat
  /-- The ends of the interval belong to it. -/
  closed : Bool

/-- The neighbourhood of `mantissa * 2 ^ exponent`. Below a power of two the next double is only
half as far away, except at the smallest exponent. -/
def Neighbourhood.ofBinary (mantissa : Nat) (exponent : Int) : Neighbourhood :=
  let scale := 1 <<< exponent.toNat
  let below := if mantissa = 1 <<< 52 ∧ exponent ≠ -1074 then 1 else 2
  { low := (4 * mantissa - below) * scale
    value := 4 * mantissa * scale
    high := (4 * mantissa + 2) * scale
    denominator := 4 <<< (-exponent).toNat
    closed := mantissa % 2 = 0 }

/-- `d * 10 ^ k` as a numerator and the factor that the other side of a comparison takes. -/
def Scaled.over (d : Scaled) (denominator : Nat) : Nat × Nat :=
  (d.digits * Nat.pow 10 d.exponent.toNat * denominator, Nat.pow 10 (-d.exponent).toNat)

/-- The decimal lies in the interval. -/
def Neighbourhood.contains (n : Neighbourhood) (d : Scaled) : Bool :=
  let (x, f) := d.over n.denominator
  if n.closed then n.low * f ≤ x && x ≤ n.high * f else n.low * f < x && x < n.high * f

/-- How far the decimal is from the number, up to a factor that depends on the exponent only. -/
def Neighbourhood.distance (n : Neighbourhood) (d : Scaled) : Nat :=
  let (x, f) := d.over n.denominator
  (x - n.value * f) + (n.value * f - x)

/-- The number of decimal digits of a natural number, at least one. -/
def width (n : Nat) : Nat := (Nat.toDigits 10 n).length

/-- The power of ten of the leading digit of the number. -/
def Neighbourhood.magnitude (n : Neighbourhood) : Int :=
  let guess : Int := (width n.value : Int) - width n.denominator
  let (x, f) := Scaled.over ⟨1, guess⟩ n.denominator
  if x ≤ n.value * f then guess else guess - 1

/-- The neighbour of the number on the grid `10 ^ k` that rounds to it and is nearest to it. -/
def Neighbourhood.onGrid? (n : Neighbourhood) (k : Int) : Option Scaled :=
  let down := n.value * Nat.pow 10 (-k).toNat / (n.denominator * Nat.pow 10 k.toNat)
  let candidates := [⟨down, k⟩, ⟨down + 1, k⟩].filter n.contains
  match candidates with
  | [] => none
  | [d] => some d
  | d :: e :: _ => if n.distance e < n.distance d then some e else some d

/-- Drops the zeros at the end of the digits. -/
def Scaled.trim (d : Scaled) : Scaled :=
  if h : d.digits ≠ 0 ∧ d.digits % 10 = 0 then
    Scaled.trim ⟨d.digits / 10, d.exponent + 1⟩
  else d
termination_by d.digits
decreasing_by exact Nat.div_lt_self (by omega) (by omega)

/-- The shortest decimal of the number: seventeen digits always suffice. -/
def Neighbourhood.shortest (n : Neighbourhood) : Scaled :=
  let top := n.magnitude
  let grids := (List.range 17).map fun (i : Nat) => top - i
  ((grids.findSome? n.onGrid?).getD ⟨0, 0⟩).trim

/-- A double by the fields of its 64 bits. -/
inductive Double where
  | nan
  | infinite (negative : Bool)
  | finite (negative : Bool) (mantissa : Nat) (exponent : Int)
deriving DecidableEq, Repr

/-- Reads the sign, the exponent and the mantissa from the bits of a double. -/
def Double.ofBits (bits : UInt64) : Double :=
  let n := bits.toNat
  let negative : Bool := n >>> 63 = 1
  let exponent : Nat := n >>> 52 % 1 <<< 11
  let fraction : Nat := n % 1 <<< 52
  if exponent = 2047 then
    if fraction = 0 then .infinite negative else .nan
  else if exponent = 0 then .finite negative fraction (-1074)
  else .finite negative (1 <<< 52 + fraction) ((exponent : Int) - 1075)

/-- Reads a double. -/
def Double.ofFloat (x : Float) : Double := .ofBits x.toBits

/-- The shortest decimal of a finite double without its sign. -/
def shortest (mantissa : Nat) (exponent : Int) : Scaled :=
  if mantissa = 0 then ⟨0, 0⟩ else (Neighbourhood.ofBinary mantissa exponent).shortest

end NodeProvisioner.Decimal
