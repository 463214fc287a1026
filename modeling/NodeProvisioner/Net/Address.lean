import NodeProvisioner.Text.Hex

/-!
# Addresses of the Internet protocol

An address is a string of four or sixteen octets. Four octets are written in decimal, with points;
no octet has a leading zero. Sixteen octets are written as eight groups of up to four hexadecimal
digits, with colons; one run of zero groups may be left out, and the last two groups may be given
as four octets in decimal.

Main statement: the octets of what `IpAddress.parse` reads are four or sixteen, which the type
itself keeps.
-/

namespace NodeProvisioner

/-- An address of either version of the protocol. -/
structure IpAddress where
  octets : List UInt8
  sized : octets.length = 4 ∨ octets.length = 16
deriving DecidableEq

namespace IpAddress

/-- The address of these octets, if there are four or sixteen of them. -/
def ofOctets? (octets : List UInt8) : Option IpAddress :=
  if h : octets.length = 4 ∨ octets.length = 16 then some ⟨octets, h⟩ else none

@[simp] theorem ofOctets?_octets (a : IpAddress) : ofOctets? a.octets = some a := by
  simp [ofOctets?, a.sized]

/-! ## Reading -/

/-- The value of a digit to a base of at most sixteen. -/
def digitValue? (base : Nat) (c : Char) : Option Nat :=
  (Text.hexValue? c).filter (· < base)

/-- Reads a number of at most `most` digits. -/
def number? (base most : Nat) (cs : List Char) : Option (Nat × List Char) :=
  let digits := (cs.takeWhile fun c => (digitValue? base c).isSome).filterMap (digitValue? base)
  if digits.isEmpty || digits.length > most then none
  else some (digits.foldl (fun n d => base * n + d) 0, cs.drop digits.length)

/-- Reads an octet in decimal, without leading zeros. -/
def octet? (cs : List Char) : Option (UInt8 × List Char) := do
  let (n, rest) ← number? 10 3 cs
  if n > 255 || (cs.head? = some '0' && cs.length > rest.length + 1) then none
  else some (UInt8.ofNat n, rest)

/-- Goes past a character that has to come next. -/
def expect? (c : Char) : List Char → Option (List Char)
  | d :: rest => if c = d then some rest else none
  | [] => none

/-- Reads four octets with points between them. -/
def fourOctets? (cs : List Char) : Option (List UInt8 × List Char) := do
  let (a, cs) ← octet? cs
  let (b, cs) ← octet? (← expect? '.' cs)
  let (c, cs) ← octet? (← expect? '.' cs)
  let (d, cs) ← octet? (← expect? '.' cs)
  return ([a, b, c, d], cs)

/-- The two octets of a group. -/
def groupOctets (n : Nat) : List UInt8 := [UInt8.ofNat (n / 256), UInt8.ofNat (n % 256)]

/-- Reads groups with colons between them, as far as they go but at most `left`: their octets, and
whether they end in octets in decimal, which take the place of two groups. -/
def groups (isFirst : Bool) : Nat → List Char → List UInt8 × Bool × List Char
  | 0, cs => ([], false, cs)
  | left + 1, cs =>
    let next := if isFirst then some cs else expect? ':' cs
    match if left = 0 then none else next.bind fourOctets? with
    | some (octets, rest) => (octets, true, rest)
    | none =>
      match next.bind (number? 16 4) with
      | none => ([], false, cs)
      | some (n, rest) =>
        let (octets, decimal, rest) := groups false left rest
        (groupOctets n ++ octets, decimal, rest)

/-- Reads sixteen octets. -/
def sixteenOctets? (cs : List Char) : Option (List UInt8 × List Char) := do
  let (front, decimal, rest) := groups true 8 cs
  if front.length = 16 then some (front, rest)
  else if decimal then none
  else
    let rest ← expect? ':' (← expect? ':' rest)
    let (back, _, rest) := groups true (7 - front.length / 2) rest
    some (front ++ List.replicate (16 - front.length - back.length) 0 ++ back, rest)

/-- Reads an address. -/
def parse (s : String) : Option IpAddress := do
  let (octets, rest) ← fourOctets? s.toList <|> sixteenOctets? s.toList
  if rest.isEmpty then ofOctets? octets else none

/-! ## Writing -/

/-- The octets in decimal, with points between them. -/
def pointed (octets : List UInt8) : String :=
  ".".intercalate (octets.map fun o => toString o.toNat)

/-- The groups that octets make up. -/
def groupsOf : List UInt8 → List Nat
  | a :: b :: rest => (a.toNat * 256 + b.toNat) :: groupsOf rest
  | _ => []

/-- The groups in hexadecimal, with colons between them. -/
def coloned (groups : List Nat) : String :=
  ":".intercalate (groups.map fun g => String.ofList (Nat.toDigits 16 g))

/-- The length of the run of zeros at the start. -/
def leadingZeros (groups : List Nat) : Nat := (groups.takeWhile (· = 0)).length

/-- Where the longest run of zeros starts, and how long it is; of several the first. -/
def longestZeros (groups : List Nat) : Nat × Nat :=
  (List.range groups.length).foldl (fun (start, length) i =>
    let n := leadingZeros (groups.drop i)
    if n > length then (i, n) else (start, length)) (0, 0)

/-- The text of sixteen octets: those that stand for a four-octet address show it. -/
def groupsText (octets : List UInt8) : String :=
  let groups := groupsOf octets
  if groups.take 6 = [0, 0, 0, 0, 0, 0xffff] then "::ffff:" ++ pointed (octets.drop 12)
  else
    let (start, length) := longestZeros groups
    if length > 1 then
      coloned (groups.take start) ++ "::" ++ coloned (groups.drop (start + length))
    else coloned groups

/-- Writes an address. -/
def print (a : IpAddress) : String :=
  if a.octets.length = 4 then pointed a.octets else groupsText a.octets

end IpAddress

end NodeProvisioner
