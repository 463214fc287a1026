import NodeProvisioner.Decimal.Shortest

/-!
# Laying out a decimal

The digits of a number are its own; where the point stands and when an exponent is written is a
matter of the format that prints it. A `Layout` states these choices.
-/

namespace NodeProvisioner.Decimal

/-- How a format writes floating-point numbers. -/
structure Layout where
  /-- Exponents of the leading digit from here on are written without an exponent … -/
  positionalFrom : Int
  /-- … and up to here. `none` stands for no bound on either side. -/
  positionalTo : Option Int
  /-- The text of a number that is not finite. -/
  nan : String
  infinity : String

/-- The digits with a point after the first `point` of them, padded by zeros on either side. At
least one digit stands before and after the point. -/
def pointed (digits : List Char) (point : Int) : List Char :=
  if point ≤ 0 then
    '0' :: '.' :: (List.replicate (-point).toNat '0' ++ digits)
  else
    let whole := digits.take point.toNat
    let part := digits.drop point.toNat
    whole ++ List.replicate (point.toNat - whole.length) '0' ++
      '.' :: (if part.isEmpty then ['0'] else part)

/-- The digits with an exponent: a point after the first digit if there are more, then `e`, the
sign of the exponent and its digits. -/
def scientific (digits : List Char) (exponent : Int) : List Char :=
  let mantissa := match digits with
    | [] => []
    | [d] => [d]
    | d :: ds => d :: '.' :: ds
  mantissa ++ 'e' :: (if exponent < 0 then '-' else '+') :: Nat.toDigits 10 exponent.natAbs

/-- The text of a decimal in a layout. -/
def Layout.digits (layout : Layout) (d : Scaled) : List Char :=
  let ds := Nat.toDigits 10 d.digits
  let leading : Int := d.exponent + ds.length - 1
  let positional := match layout.positionalTo with
    | none => true
    | some top => layout.positionalFrom ≤ leading && leading ≤ top
  if positional then pointed ds (leading + 1) else scientific ds leading

/-- The text of a double in a layout. -/
def Layout.render (layout : Layout) (x : Float) : String :=
  match Double.ofFloat x with
  | .nan => layout.nan
  | .infinite negative => (if negative then "-" else "") ++ layout.infinity
  | .finite negative mantissa exponent =>
    (if negative then "-" else "") ++ String.ofList (layout.digits (shortest mantissa exponent))

/-- The layout of JSON numbers: no exponent while the leading digit stands between `10 ^ -5` and
`10 ^ 15`. JSON has no number that is not finite; `null` stands for it. -/
def jsonLayout : Layout := ⟨-5, some 15, "null", "null"⟩

/-- The layout that never writes an exponent. -/
def plainLayout : Layout := ⟨0, none, "NaN", "inf"⟩

end NodeProvisioner.Decimal
