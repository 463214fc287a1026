/-!
# Reading decimals

The text of a natural number of a fixed width is a row of decimal digits, with or without a plus
sign before it and with any number of zeros at its start. A number that does not fit into the width
has no text.

The value of any other decimal text is its significand, rounded to a double, multiplied or divided
by a power of ten that is itself rounded to a double. It is off by a few units in the last place
from the nearest double for long texts, and is the same for every text of one significand and
exponent.
-/

namespace NodeProvisioner.Decimal

/-! ## Natural numbers -/

/-- The number that digits stand for. -/
def ofDigits (digits : List Char) : Nat :=
  digits.foldl (fun n c => 10 * n + (c.toNat - '0'.toNat)) 0

/-- Reads a number of at most `width` bits. -/
def natural? (width : Nat) (cs : List Char) : Option Nat :=
  let digits := match cs with
    | '+' :: rest => rest
    | cs => cs
  if digits.isEmpty || !digits.all Char.isDigit then none
  else
    let n := ofDigits digits
    if n < 1 <<< width then some n else none

/-! ## Scaling a significand by a power of ten -/

/-- The double nearest to `10 ^ n`. -/
def powerOfTen (n : Nat) : Float := Float.ofScientific 1 false n

/-- `x * 10 ^ exponent`. Beyond `10 ^ -308` the division is made in steps of that size. `none`
stands for a value too large for a double. -/
def scale? (x : Float) (exponent : Int) : Option Float :=
  match exponent with
  | .ofNat e =>
    if e ≤ 308 then
      let y := x * powerOfTen e
      if y.isInf then none else some y
    else if x == 0.0 then some x else none
  | .negSucc e => some (shrink x (e + 1))
where
  /-- `x / 10 ^ n`. -/
  shrink (x : Float) (n : Nat) : Float :=
    if n ≤ 308 then x / powerOfTen n
    else if x == 0.0 then x
    else shrink (x / powerOfTen 308) (n - 308)
  termination_by n

end NodeProvisioner.Decimal
