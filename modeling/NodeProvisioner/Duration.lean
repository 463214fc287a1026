import NodeProvisioner.Decimal.Shortest

/-!
# Spans of time

A span is a number of nanoseconds. Spans that come out of floating-point arithmetic are rounded to
the nearest nanosecond; there are none below zero, and none of more seconds than sixty-four bits
can hold.
-/

namespace NodeProvisioner

/-- A span of time, in nanoseconds. -/
structure Duration where
  nanos : Nat
deriving Inhabited, DecidableEq, Repr

namespace Duration

/-- The nanoseconds of a second. -/
def second : Nat := 1000000000

/-- The first span that is too long. -/
def bound : Nat := second <<< 64

def ofMilliseconds (n : Nat) : Duration := ⟨n * 1000000⟩

/-- The span in seconds: the whole seconds and the rest are added as floating-point numbers. -/
def seconds (d : Duration) : Float :=
  Float.ofNat (d.nanos / second) + Float.ofNat (d.nanos % second) / Float.ofNat second

/-- The quotient rounded to the nearest natural number, a half to the even one. -/
def roundedQuotient (num den : Nat) : Nat :=
  let whole := num / den
  let rest := 2 * (num % den)
  if rest > den || (rest = den && whole % 2 = 1) then whole + 1 else whole

/-- The span of so many seconds, rounded to nanoseconds. -/
def ofFloat? (x : Float) : Option Duration :=
  match Decimal.Double.ofFloat x with
  | .finite negative mantissa exponent =>
    let nanos := roundedQuotient (mantissa <<< exponent.toNat * second) (1 <<< (-exponent).toNat)
    if negative && mantissa ≠ 0 then none
    else if nanos < bound then some ⟨nanos⟩ else none
  | _ => none

end Duration

end NodeProvisioner
