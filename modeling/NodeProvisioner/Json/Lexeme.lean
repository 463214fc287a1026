import NodeProvisioner.Decimal.Reading
import NodeProvisioner.Document.Node
import NodeProvisioner.Text.Hex

/-!
# Lexemes of a JSON text

A JSON text is a sequence of lexemes with space between them: brackets, commas, colons and
scalars. A lexeme carries where it starts and ends, and the place that a reader has reached once it
has looked past it.

A scalar that breaks the rules becomes a `broken` lexeme, with one fault for a reader that wants
the value and one for a reader that skips it; nothing comes after it. A scalar that only a reader
which wants it objects to (an unpaired surrogate, a number too large) is a `scalar` lexeme with an
objection.

## Termination

Every lexeme is at least one character long, so the text left over shrinks.
-/

namespace NodeProvisioner.Json

open Decimal (ofDigits)

/-- What a lexeme is. -/
inductive Kind where
  | openList
  | closeList
  | openMap
  | closeMap
  | comma
  | colon
  /-- A scalar, with the fault that keeps it from being read. -/
  | scalar (value : Scalar) (objection : Option Fault)
  /-- A scalar that breaks off, with a fault for a reader and one for a skipper. -/
  | broken (isText : Bool) (wanted skipped : Fault)
  /-- A character that starts no lexeme. -/
  | stray
  /-- The end of the text. -/
  | finish
deriving Repr, Inhabited

/-- A lexeme where it stands. -/
structure Lexeme where
  kind : Kind
  first : Place
  last : Place
  /-- Past the space that follows, and past a closing bracket if one comes next. -/
  settled : Place
deriving Repr, Inhabited

/-- The space of JSON. -/
def isSpace (c : Char) : Bool := c = ' ' || c = '\n' || c = '\t' || c = '\r'

/-! ## Texts -/

/-- The value of the four hexadecimal digits at the front, with what follows them. -/
def escapeUnit? : List Char → Option (Nat × List Char)
  | a :: b :: c :: d :: rest => (Text.ofHexDigits? [a, b, c, d]).map (·, rest)
  | _ => none

/-- The fault of a text that ends too early or whose escape has no four digits. -/
def unitFault (p : Place) (cs : List Char) : Fault :=
  let size := cs.foldl (fun n c => n + c.utf8Size) 0
  if size < 4 then Breach.endInText.fault (p.afterAll cs) else Breach.escape.fault (p.afterBytes 4 cs)

/-- The character of a code unit that stands alone. A surrogate has none of its own; a lenient
reader lets it pass. -/
def unitChar (unit : Nat) : Char := Char.ofNat unit

/-- The character of a pair of surrogates. -/
def pairChar (lead trail : Nat) : Char :=
  Char.ofNat (0x10000 + (lead - 0xD800) * 0x400 + (trail - 0xDC00))

/-- Reads the escape whose four digits are at the front of `cs`: a character, the characters used,
and the rest. A lenient reader takes every unit by itself. -/
def unicodeEscape (lenient : Bool) (p : Place) (cs : List Char) :
    Except Fault (Char × List Char × List Char) :=
  match escapeUnit? cs with
  | none => .error (unitFault p cs)
  | some (unit, rest) =>
    let digits := cs.take 4
    let q := p.afterAll digits
    if lenient || unit < 0xD800 || 0xDFFF < unit then .ok (unitChar unit, digits, rest)
    else if 0xDC00 ≤ unit then .error (Breach.loneSurrogate.fault q)
    else match rest with
      | [] => .error (Breach.endInText.fault q)
      | '\\' :: [] => .error (Breach.endInText.fault (q.after '\\'))
      | '\\' :: 'u' :: more =>
        let r := (q.after '\\').after 'u'
        match escapeUnit? more with
        | none => .error (unitFault r more)
        | some (trail, after) =>
          if 0xDC00 ≤ trail ∧ trail ≤ 0xDFFF then
            .ok (pairChar unit trail, digits ++ '\\' :: 'u' :: more.take 4, after)
          else .error (Breach.loneSurrogate.fault (r.afterAll (more.take 4)))
      | '\\' :: c :: _ => .error (Breach.endInEscape.fault ((q.after '\\').afterByte c))
      | c :: _ => .error (Breach.endInEscape.fault (q.afterByte c))

/-- The character that a letter after a backslash stands for. -/
def letterEscape? : Char → Option Char
  | '"' => some '"'
  | '\\' => some '\\'
  | '/' => some '/'
  | 'b' => some '\x08'
  | 'f' => some '\x0c'
  | 'n' => some '\n'
  | 'r' => some '\r'
  | 't' => some '\t'
  | _ => none

/-- What follows the opening quote: the text, the place after the closing quote, and the rest. -/
structure ScannedText where
  text : List Char
  place : Place
  rest : List Char
deriving Inhabited

/-- Reads up to the closing quote. `fuel` bounds the number of steps and is the length of the
text wherever this is called. -/
def scanText (lenient : Bool) : Nat → Place → List Char → Except Fault ScannedText
  | 0, p, _ => .error (Breach.endInText.fault p)
  | _ + 1, p, [] => .error (Breach.endInText.fault p)
  | _ + 1, p, '"' :: rest => .ok ⟨[], p.after '"', rest⟩
  | _ + 1, p, '\\' :: [] => .error (Breach.endInText.fault (p.after '\\'))
  | fuel + 1, p, '\\' :: 'u' :: rest => do
    let q := (p.after '\\').after 'u'
    let (c, used, rest) ← unicodeEscape lenient q rest
    let more ← scanText lenient fuel (q.afterAll used) rest
    return { more with text := c :: more.text }
  | fuel + 1, p, '\\' :: letter :: rest =>
    match letterEscape? letter with
    | none => .error (Breach.escape.fault ((p.after '\\').afterByte letter))
    | some c => do
      let more ← scanText lenient fuel ((p.after '\\').after letter) rest
      return { more with text := c :: more.text }
  | fuel + 1, p, c :: rest =>
    if c.toNat < 0x20 then .error (Breach.control.fault (p.afterByte c))
    else do
      let more ← scanText lenient fuel (p.after c) rest
      return { more with text := c :: more.text }

/-! ## Numbers -/

/-- The parts of a number: sign, digits before the point, digits after it, and the exponent with
its sign. -/
structure Numeral where
  negative : Bool
  whole : List Char
  fraction : Option (List Char)
  exponent : Option (Bool × List Char)
deriving Inhabited

/-- A number read, the place after it, and the rest. -/
structure ScannedNumber where
  numeral : Numeral
  place : Place
  rest : List Char
deriving Inhabited

/-- The end of the text within a number: a skipper does not tell it from a wrong character. -/
def numberEnd (lenient : Bool) (p : Place) : Fault :=
  (if lenient then Breach.number else Breach.endInValue).fault p

/-- The exponent after its letter. -/
def scanExponent (lenient : Bool) (p : Place) (cs : List Char) :
    Except Fault ((Bool × List Char) × Place × List Char) :=
  let (negative, p, cs) := match cs with
    | '+' :: rest => (false, p.after '+', rest)
    | '-' :: rest => (true, p.after '-', rest)
    | _ => (false, p, cs)
  match cs with
  | [] => .error (numberEnd lenient p)
  | c :: _ =>
    if c.isDigit then
      let digits := cs.takeWhile Char.isDigit
      .ok ((negative, digits), p.afterAll digits, cs.dropWhile Char.isDigit)
    else .error (Breach.number.fault (p.afterByte c))

/-- The fraction after its point. -/
def scanFraction (lenient : Bool) (p : Place) (cs : List Char) :
    Except Fault (List Char × Place × List Char) :=
  match cs with
  | [] => .error (numberEnd lenient p)
  | c :: _ =>
    if c.isDigit then
      let digits := cs.takeWhile Char.isDigit
      .ok (digits, p.afterAll digits, cs.dropWhile Char.isDigit)
    else .error (Breach.number.fault (p.afterByte c))

/-- The digits before the point: a single zero, or digits that start with another one. -/
def scanWhole (lenient : Bool) (p : Place) (cs : List Char) :
    Except Fault (List Char × Place × List Char) :=
  match cs with
  | [] => .error (numberEnd lenient p)
  | '0' :: rest =>
    match rest with
    | c :: _ =>
      if c.isDigit then .error (Breach.number.fault ((p.after '0').afterByte c))
      else .ok (['0'], p.after '0', rest)
    | [] => .ok (['0'], p.after '0', rest)
  | c :: _ =>
    if c.isDigit then
      let digits := cs.takeWhile Char.isDigit
      .ok (digits, p.afterAll digits, cs.dropWhile Char.isDigit)
    else .error (Breach.number.fault (p.afterByte c))

/-- Reads a number, after its sign. -/
def scanNumber (lenient negative : Bool) (p : Place) (cs : List Char) :
    Except Fault ScannedNumber := do
  let (whole, p, cs) ← scanWhole lenient p cs
  let (fraction, p, cs) ← match cs with
    | '.' :: rest => do
      let (digits, q, rest) ← scanFraction lenient (p.after '.') rest
      pure (some digits, q, rest)
    | _ => pure (none, p, cs)
  let isExponent := match cs with
    | 'e' :: _ => true
    | 'E' :: _ => true
    | _ => false
  if isExponent then
    let (exponent, q, rest) ← scanExponent lenient (p.after 'e') (cs.drop 1)
    return ⟨⟨negative, whole, fraction, some exponent⟩, q, rest⟩
  else return ⟨⟨negative, whole, fraction, none⟩, p, cs⟩

/-- The longest run of digits whose number fits sixty-four bits, with the number of digits after
it. -/
def clip (digits : List Char) : Nat × Nat :=
  go 0 digits
where
  go (n : Nat) : List Char → Nat × Nat
    | [] => (n, 0)
    | c :: rest =>
      let m := 10 * n + (c.toNat - '0'.toNat)
      if m < 0x10000000000000000 then go m rest else (n, rest.length + 1)

namespace Numeral

/-- The significand and the power of ten that the digits stand for. Digits that no longer fit
sixty-four bits are dropped; before the point they count as zeros. -/
def significand (n : Numeral) : Nat × Int :=
  let (whole, dropped) := clip n.whole
  if dropped > 0 then (whole, dropped)
  else
    let fraction := n.fraction.getD []
    let (all, cut) := clip (n.whole ++ fraction)
    (all, -((fraction.length - cut : Nat) : Int))

/-- The value as a floating-point number: `none` if it is out of range. -/
def float? (n : Numeral) : Option Float :=
  let (significand, scale) := n.significand
  let magnitude : Option Float := match n.exponent with
    | none => Decimal.scale? (Float.ofNat significand) scale
    | some (negative, digits) =>
      let e := ofDigits digits
      if e < 0x80000000 then
        Decimal.scale? (Float.ofNat significand) (scale + (if negative then -(e : Int) else e))
      else if significand = 0 ∨ negative then some 0.0
      else none
  magnitude.map fun x => if n.negative then -x else x

/-- The value: an integer where it is written as one and fits sixty-four bits. -/
def value? (n : Numeral) : Option Scalar :=
  match n.fraction, n.exponent with
  | none, none =>
    let m := ofDigits n.whole
    if n.negative then
      if 0 < m ∧ m ≤ 0x8000000000000000 then some (.int (-m)) else n.float?.map .float
    else if m < 0x10000000000000000 then some (.int m)
    else n.float?.map .float
  | _, _ => n.float?.map .float

end Numeral

/-! ## Lexemes -/

/-- A lexeme of fixed spelling: the place after it and the rest, or the fault at the first
character that differs. -/
def scanWord (p : Place) : List Char → List Char → Except Fault (Place × List Char)
  | [], cs => .ok (p, cs)
  | _ :: _, [] => .error (Breach.endInValue.fault p)
  | w :: ws, c :: cs =>
    if w = c then scanWord (p.after c) ws cs else .error (Breach.noLiteral.fault (p.afterByte c))

/-- A kind of lexeme, the place after it, and the rest of the text; the rest is empty after a
lexeme that breaks off. -/
structure Scanned where
  kind : Kind
  place : Place
  rest : List Char
deriving Inhabited

/-- A word for a scalar. -/
def word (value : Scalar) (spelling : List Char) (p : Place) (cs : List Char) : Scanned :=
  match scanWord p spelling cs with
  | .ok (q, rest) => ⟨.scalar value none, q, rest⟩
  | .error fault => ⟨.broken false fault fault, p, []⟩

/-- A text after its opening quote. -/
def text (p : Place) (cs : List Char) : Scanned :=
  match scanText false (cs.length + 1) p cs with
  | .ok s => ⟨.scalar (.text (String.ofList s.text)) none, s.place, s.rest⟩
  | .error wanted =>
    match scanText true (cs.length + 1) p cs with
    | .ok s => ⟨.scalar (.text (String.ofList s.text)) (some wanted), s.place, s.rest⟩
    | .error skipped => ⟨.broken true wanted skipped, p, []⟩

/-- A number after its sign. -/
def number (negative : Bool) (p : Place) (cs : List Char) : Scanned :=
  match scanNumber false negative p cs with
  | .ok s =>
    match s.numeral.value? with
    | some value => ⟨.scalar value none, s.place, s.rest⟩
    | none => ⟨.scalar .null (some (Breach.numberRange.fault s.place)), s.place, s.rest⟩
  | .error wanted =>
    match scanNumber true negative p cs with
    | .ok s => ⟨.scalar .null (some wanted), s.place, s.rest⟩
    | .error skipped => ⟨.broken false wanted skipped, p, []⟩

/-- The lexeme that starts with the character `c` at `p`; `q` is the place after it. -/
def scanLexeme (c : Char) (p : Place) (rest : List Char) : Scanned :=
  let q := p.after c
  match c with
  | '[' => ⟨.openList, q, rest⟩
  | ']' => ⟨.closeList, q, rest⟩
  | '\x7b' => ⟨.openMap, q, rest⟩
  | '\x7d' => ⟨.closeMap, q, rest⟩
  | ',' => ⟨.comma, q, rest⟩
  | ':' => ⟨.colon, q, rest⟩
  | '"' => text q rest
  | 'n' => word .null ['u', 'l', 'l'] q rest
  | 't' => word (.bool true) ['r', 'u', 'e'] q rest
  | 'f' => word (.bool false) ['a', 'l', 's', 'e'] q rest
  | '-' => number true q rest
  | c => if c.isDigit then number false p (c :: rest) else ⟨.stray, q, []⟩

/-- The lexemes of a text, the last of them its end. `fuel` bounds their number and is the length
of the text wherever this is called. -/
def lexFrom : Nat → Place → List Char → List Lexeme
  | 0, p, _ => [⟨.finish, p, p, p⟩]
  | _ + 1, p, [] => [⟨.finish, p, p, p⟩]
  | fuel + 1, p, c :: rest =>
    if isSpace c then lexFrom fuel (p.after c) rest
    else
      let s := scanLexeme c p rest
      ⟨s.kind, p, s.place, s.place⟩ :: lexFrom fuel s.place s.rest

/-- Notes on each lexeme the place reached by looking past it. -/
def settle : List Lexeme → List Lexeme
  | [] => []
  | [l] => [l]
  | l :: m :: rest =>
    let reached := match m.kind with
      | .closeList => m.last
      | .closeMap => m.last
      | _ => m.first
    { l with settled := reached } :: settle (m :: rest)

/-- The lexemes of a text. -/
def lexemes (s : String) : List Lexeme :=
  let cs := s.toList
  settle (lexFrom (cs.length + 1) .start cs)

end NodeProvisioner.Json
