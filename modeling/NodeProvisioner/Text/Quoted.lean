import NodeProvisioner.Text.Properties
import NodeProvisioner.Text.Unprintable

/-!
# Quoted text

Messages show a text between quotes. Quotes and backslashes in it are escaped, the common control
characters by a letter, and every other character that has no visible form, or that would be drawn
on the quote before it, by its code point.
-/

namespace NodeProvisioner.Text

/-- How a character stands in a quoted text. -/
def quotedChar (c : Char) : List Char :=
  match c with
  | '"' => ['\\', '"']
  | '\\' => ['\\', '\\']
  | '\n' => ['\\', 'n']
  | '\r' => ['\\', 'r']
  | '\t' => ['\\', 't']
  | '\x00' => ['\\', '0']
  | c =>
    if isExtending c || isUnprintable c then
      '\\' :: 'u' :: '\x7b' :: Nat.toDigits 16 c.toNat ++ ['\x7d']
    else [c]

/-- The text between quotes. -/
def quoted (s : String) : String :=
  String.ofList ('"' :: s.toList.flatMap quotedChar ++ ['"'])

/-- The texts between quotes in brackets. -/
def bracketed (items : List String) : String :=
  "[" ++ ", ".intercalate items ++ "]"

end NodeProvisioner.Text
