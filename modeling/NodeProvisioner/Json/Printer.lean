import NodeProvisioner.Json.Basic
import NodeProvisioner.Text.Hex

/-!
# JSON texts

The compact form: no space between tokens, the two characters that would end or escape a text and
the control characters escaped, everything else as it is.
-/

namespace NodeProvisioner.Json

/-- How a character stands in a JSON text. -/
def escapedChar (c : Char) : List Char :=
  match c with
  | '"' => ['\\', '"']
  | '\\' => ['\\', '\\']
  | '\x08' => ['\\', 'b']
  | '\x0c' => ['\\', 'f']
  | '\n' => ['\\', 'n']
  | '\r' => ['\\', 'r']
  | '\t' => ['\\', 't']
  | c =>
    if c.toNat < 0x20 then
      ['\\', 'u', '0', '0', Text.hexDigit (c.toNat / 16), Text.hexDigit (c.toNat % 16)]
    else [c]

/-- A text between quotes. -/
def textChars (s : String) : List Char :=
  '"' :: s.toList.flatMap escapedChar ++ ['"']

/-- A floating-point number; `null` stands for one that is not finite. -/
def floatChars (x : Float) : List Char :=
  match Decimal.Double.ofFloat x with
  | .finite .. => (Decimal.jsonLayout.render x).toList
  | _ => ['n', 'u', 'l', 'l']

/-- An integer. -/
def intChars : Int → List Char
  | .ofNat n => Nat.toDigits 10 n
  | .negSucc n => '-' :: Nat.toDigits 10 (n + 1)

mutual

/-- The characters of a value. -/
def chars : Json → List Char
  | null => ['n', 'u', 'l', 'l']
  | bool true => ['t', 'r', 'u', 'e']
  | bool false => ['f', 'a', 'l', 's', 'e']
  | int n => intChars n
  | float x => floatChars x
  | str s => textChars s
  | arr [] => ['[', ']']
  | arr (j :: rest) => '[' :: j.chars ++ itemChars rest
  | obj [] => ['\x7b', '\x7d']
  | obj ((k, j) :: rest) => '\x7b' :: textChars k ++ ':' :: j.chars ++ memberChars rest

/-- The items after the first. -/
def itemChars : List Json → List Char
  | [] => [']']
  | j :: rest => ',' :: j.chars ++ itemChars rest

/-- The members after the first. -/
def memberChars : List (String × Json) → List Char
  | [] => ['\x7d']
  | (k, j) :: rest => ',' :: textChars k ++ ':' :: j.chars ++ memberChars rest

end

/-- The compact text of a value. -/
def print (j : Json) : String := String.ofList j.chars

end NodeProvisioner.Json
