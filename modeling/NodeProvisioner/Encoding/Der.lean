/-!
# Distinguished encoding of structured values

A value is a tag, a length and so many bytes of content; the content of a constructed value is a
row of values. Tags have a number and two bits for their class. Lengths below 128 take one byte,
others a byte that counts the bytes of the length.

A reader takes values from the front of a row of bytes. It is lenient with lengths that could have
been shorter, and looks only at the number of a tag.
-/

namespace NodeProvisioner.Der

/-- A value: its tag and the bytes of its content. -/
structure Element where
  lead : UInt8
  number : Nat
  content : List UInt8
deriving DecidableEq, Repr, Inhabited

/-! ## Tags -/

def boolean : Nat := 1

def integer : Nat := 2

def bitString : Nat := 3

def octetString : Nat := 4

def null : Nat := 5

def objectIdentifier : Nat := 6

def utf8String : Nat := 12

def sequence : Nat := 16

def set : Nat := 17

def numericString : Nat := 18

def printableString : Nat := 19

def teletexString : Nat := 20

def ia5String : Nat := 22

def utcTime : Nat := 23

def generalizedTime : Nat := 24

def universalString : Nat := 28

def bmpString : Nat := 30

/-! ## Writing -/

/-- The bytes of a number to the base 256, without leading zeros. -/
def bytesOf (n : Nat) : List UInt8 :=
  if n = 0 then [] else bytesOf (n / 256) ++ [UInt8.ofNat n]
termination_by n
decreasing_by omega

/-- The number that bytes stand for. -/
def ofBytes (bytes : List UInt8) : Nat := bytes.foldl (fun n b => 256 * n + b.toNat) 0

/-- A number in so many bytes. -/
def fixedBytes (size n : Nat) : List UInt8 :=
  (List.range size).reverse.map fun i => UInt8.ofNat (n >>> (8 * i))

/-- A length. -/
def lengthBytes (n : Nat) : List UInt8 :=
  if n < 128 then [UInt8.ofNat n] else
    let bytes := bytesOf n
    UInt8.ofNat (128 + bytes.length) :: bytes

/-- A value with a leading byte. -/
def encode (lead : UInt8) (content : List UInt8) : List UInt8 :=
  lead :: lengthBytes content.length ++ content

/-- A value of a type that has no parts. -/
def primitive (number : Nat) (content : List UInt8) : List UInt8 :=
  encode (UInt8.ofNat number) content

/-- A value made up of values. -/
def constructed (number : Nat) (parts : List (List UInt8)) : List UInt8 :=
  encode (UInt8.ofNat (0x20 + number)) parts.flatten

def sequenceOf (parts : List (List UInt8)) : List UInt8 := constructed sequence parts

/-- Values under a tag whose meaning depends on where it stands. -/
def tagged (number : Nat) (parts : List (List UInt8)) : List UInt8 :=
  encode (UInt8.ofNat (0xA0 + number)) parts.flatten

/-- Bytes under a tag whose meaning depends on where it stands. -/
def taggedBytes (number : Nat) (content : List UInt8) : List UInt8 :=
  encode (UInt8.ofNat (0x80 + number)) content

/-- The content of a natural number: a zero comes first if the number would look negative. -/
def naturalContent (n : Nat) : List UInt8 :=
  match bytesOf n with
  | [] => [0]
  | b :: bytes => if b ≥ 128 then 0 :: b :: bytes else b :: bytes

def natural (n : Nat) : List UInt8 := primitive integer (naturalContent n)

/-- A row of bits that fills its bytes. -/
def bits (bytes : List UInt8) : List UInt8 := primitive bitString (0 :: bytes)

def octets (bytes : List UInt8) : List UInt8 := primitive octetString bytes

def identifier (bytes : List UInt8) : List UInt8 := primitive objectIdentifier bytes

def truth (b : Bool) : List UInt8 := primitive boolean [if b then 255 else 0]

/-! ## Reading -/

/-- A reader of the front of a row of bytes. -/
abbrev Reader := StateT (List UInt8) Option

/-- Reads the number of a tag that does not fit its first byte. -/
def longNumber? : Nat → List UInt8 → Option (Nat × List UInt8)
  | _, [] => none
  | n, b :: rest =>
    let n := n * 128 + b.toNat % 128
    if b < 128 then some (n, rest) else longNumber? n rest

/-- Reads a length: `none` for one that is not stated. -/
def length? : List UInt8 → Option (Nat × List UInt8)
  | [] => none
  | b :: rest =>
    if b < 128 then some (b.toNat, rest)
    else
      let size := b.toNat - 128
      if size = 0 ∨ size = 127 ∨ rest.length < size then none
      else
        let n := ofBytes (rest.take size)
        if n < 1 <<< 64 then some (n, rest.drop size) else none

/-- Reads a value. -/
def element? : List UInt8 → Option (Element × List UInt8)
  | [] => none
  | lead :: rest => do
    let (number, rest) ←
      if lead.toNat % 32 = 31 then longNumber? 0 rest else some (lead.toNat % 32, rest)
    let (length, rest) ← length? rest
    if rest.length < length then none
    else some (⟨lead, number, rest.take length⟩, rest.drop length)

/-- Reads a value of any type. -/
def any : Reader Element := element?

/-- Reads a value with a tag of this number: its content. -/
def content (number : Nat) : Reader (List UInt8) := do
  let e ← any
  if e.number = number then return e.content else failure

/-- Reads the parts of a value with a tag of this number. What `inner` leaves over is not looked
at. -/
def within {α : Type} (number : Nat) (inner : Reader α) : Reader α := do
  let c ← content number
  let (a, _) ← inner.run c
  return a

/-- Reads the parts of a value with a tag of this number, all of them. -/
def exactly {α : Type} (number : Nat) (inner : Reader α) : Reader α := do
  let c ← content number
  let (a, rest) ← inner.run c
  if rest.isEmpty then return a else failure

/-- Reads a value if it can be read. -/
def perhaps {α : Type} (r : Reader α) : Reader (Option α) := fun bytes =>
  match r.run bytes with
  | some (a, rest) => some (some a, rest)
  | none => some (none, bytes)

/-- The bytes are at their end. -/
def isAtEnd : Reader Bool := fun bytes => some (bytes.isEmpty, bytes)

/-- Reads values for as long as they can be read; `fuel` bounds their number. -/
def many {α : Type} (r : Reader α) : Nat → Reader (List α)
  | 0 => return []
  | fuel + 1 => fun bytes =>
    match r.run bytes with
    | some (a, rest) =>
      if rest.length < bytes.length then
        ((many r fuel).run rest).map fun (as, rest) => (a :: as, rest)
      else some ([], bytes)
    | none => some ([], bytes)

/-- Reads values for as long as they can be read. -/
def row {α : Type} (r : Reader α) : Reader (List α) := fun bytes =>
  (many r bytes.length).run bytes

/-- Reads a value with its bytes as they stand. -/
def withBytes {α : Type} (r : Reader α) : Reader (α × List UInt8) := fun bytes =>
  (r.run bytes).map fun (a, rest) => ((a, bytes.take (bytes.length - rest.length)), rest)

/-- Reads an integer that is not negative. -/
def naturalNumber : Reader Nat := do
  let c ← content integer
  match c with
  | [] => failure
  | b :: _ => if b ≥ 128 then failure else return ofBytes c

/-- Reads an integer that is not negative, in its shortest form. -/
def shortestNatural : Reader Nat := do
  let c ← content integer
  match c with
  | [] => failure
  | [b] => if b ≥ 128 then failure else return b.toNat
  | b :: d :: _ => if b ≥ 128 || (b = 0 && d < 128) then failure else return ofBytes c

/-- Reads a row of bits: the number of bits that the last byte leaves unused, which are zero, and
the bytes. -/
def bitRow : Reader (Nat × List UInt8) := do
  match ← content bitString with
  | [] => failure
  | [unused] => if unused = 0 then return (0, []) else failure
  | unused :: bytes =>
    let last := (bytes.getLast?.getD 0).toNat
    if unused.toNat > 7 || last % 1 <<< unused.toNat ≠ 0 then failure
    else return (unused.toNat, bytes)

end NodeProvisioner.Der
