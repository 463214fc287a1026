import NodeProvisioner.Document.Node
import NodeProvisioner.Text.Hex

/-!
# Plain scalars

A YAML scalar without quotes stands for what it looks like: nothing, a truth value, an integer, a
floating-point number, or else a text. Integers may be written in base 2, 8 and 16; a decimal one
with a zero in front is a text. A tag may declare the type of a scalar, whether quoted or not.
-/

namespace NodeProvisioner.Plain

/-- The words for no value. -/
def isNull (s : String) : Bool := ["", "~", "null", "Null", "NULL"].contains s

/-- The words for the truth values. -/
def bool? (s : String) : Option Bool :=
  if ["true", "True", "TRUE"].contains s then some true
  else if ["false", "False", "FALSE"].contains s then some false
  else none

/-- The digits with a zero in front that make a decimal number a text. -/
def hasLeadingZero (digits : List Char) : Bool :=
  match digits with
  | '0' :: rest => !rest.isEmpty && rest.all Char.isDigit
  | _ => false

/-- The number of digits in a base. -/
def digits? (base : Nat) (cs : List Char) : Option Nat :=
  if cs.isEmpty then none
  else cs.foldlM (fun n c => do
    let d ← Text.hexValue? c
    if d < base then some (base * n + d) else none) 0

/-- A number without a sign: decimal, or after the mark of another base. -/
def magnitude? (cs : List Char) : Option Nat :=
  match cs with
  | '0' :: 'x' :: rest => digits? 16 rest
  | '0' :: 'o' :: rest => digits? 8 rest
  | '0' :: 'b' :: rest => digits? 2 rest
  | _ => if hasLeadingZero cs then none else digits? 10 cs

/-- An integer. -/
def int? (s : String) : Option Int :=
  match s.toList with
  | '+' :: rest => (magnitude? rest).map fun n => n
  | '-' :: rest => (magnitude? rest).map fun n => -n
  | cs => (magnitude? cs).map fun n => n

/-- The value of a decimal number `digits * 10 ^ exponent`, if it is finite. -/
def scaled? (digits : List Char) (exponent : Int) : Option Float :=
  let n := digits.foldl (fun n c => 10 * n + (c.toNat - '0'.toNat)) 0
  if n = 0 then some 0.0
  else if exponent + digits.length > 400 then none
  else if exponent + digits.length < -400 then some 0.0
  else
    let x := if exponent < 0 then Float.ofScientific n true exponent.natAbs
      else Float.ofScientific n false exponent.natAbs
    if x.isInf then none else some x

/-- The exponent after its letter. -/
def exponent? (cs : List Char) : Option Int :=
  let sized (negative : Bool) (digits : List Char) : Option Int :=
    if digits.isEmpty || !digits.all Char.isDigit then none
    else
      let n := digits.foldl (fun n c => min 1000000 (10 * n + (c.toNat - '0'.toNat))) 0
      some (if negative then -n else n)
  match cs with
  | '+' :: rest => sized false rest
  | '-' :: rest => sized true rest
  | _ => sized false cs

/-- A decimal number without a sign: digits on at least one side of the point, and perhaps an
exponent. -/
def decimal? (cs : List Char) : Option Float :=
  let whole := cs.takeWhile Char.isDigit
  let rest := cs.dropWhile Char.isDigit
  let (part, rest) := match rest with
    | '.' :: more => (more.takeWhile Char.isDigit, more.dropWhile Char.isDigit)
    | _ => ([], rest)
  if whole.isEmpty && part.isEmpty then none
  else
    let scale : Int := -(part.length : Int)
    match rest with
    | [] => scaled? (whole ++ part) scale
    | c :: more =>
      if c = 'e' ∨ c = 'E' then (exponent? more).bind fun e => scaled? (whole ++ part) (scale + e)
      else none

/-- A floating-point number. -/
def float? (s : String) : Option Float :=
  let isInfinity (cs : List Char) : Bool :=
    [".inf", ".Inf", ".INF"].contains (String.ofList cs)
  if [".nan", ".NaN", ".NAN"].contains s then some (0.0 / 0.0)
  else match s.toList with
    | '+' :: rest => if isInfinity rest then some (1.0 / 0.0) else decimal? rest
    | '-' :: rest => if isInfinity rest then some (-1.0 / 0.0) else (decimal? rest).map (-·)
    | cs => if isInfinity cs then some (1.0 / 0.0) else decimal? cs

/-- What a plain scalar stands for. An integer beyond a hundred and twenty-eight bits is taken for
a floating-point number. -/
def resolve (s : String) : Scalar :=
  if isNull s then .null
  else match bool? s with
    | some b => .bool b
    | none =>
      let wide := (int? s).filter fun n => -0x80000000000000000000000000000000 ≤ n ∧
        n < 0x100000000000000000000000000000000
      match wide with
      | some n => .int n
      | none =>
        let digits := match s.toList with
          | '+' :: rest => rest
          | '-' :: rest => rest
          | cs => cs
        if hasLeadingZero digits then .text s
        else match float? s with
          | some x => .float x
          | none => .text s

/-! ## Declared types -/

/-- What every tag of a type of the language begins with. -/
def typeMark : String := "tag:yaml.org,2002:"

/-- Reads a scalar as one of the type that its tag declares; `none` if the tag declares none. A
tag for texts is not among them, because it leaves every scalar a text. -/
def declared? (tag : String) : Option (String → Option Scalar) :=
  [(typeMark ++ "null", fun s => if s ≠ "" && isNull s then some Scalar.null else none),
    (typeMark ++ "bool", fun s => (bool? s).map .bool),
    (typeMark ++ "int", fun s => (int? s).map .int),
    (typeMark ++ "float", fun s => (float? s).map .float)].lookup tag

/-- What a scalar with a tag stands for. One that is not of the type declared stands for its
text. -/
def resolveTagged (s : String) (plain : Bool) (tag : String) : Scalar :=
  match declared? tag with
  | some reader => (reader s).getD (.text s)
  | none => if plain && tag.startsWith "!" then resolve s else .text s

/-- A scalar is spelled as its tag declares. -/
def keepsType (spelling : Spelling) : Bool :=
  match spelling.tag.bind declared? with
  | some reader => (reader spelling.text).isSome
  | none => true

end NodeProvisioner.Plain
