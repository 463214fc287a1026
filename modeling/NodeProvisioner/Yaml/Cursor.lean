/-!
# Positions in a YAML text

A cursor is the text that is left, with the line and the column it starts at and the number of
characters before it. Columns count characters: they decide about nesting.

A line ends with a carriage return, a line feed, both, or one of the three separators of Unicode.
-/

namespace NodeProvisioner.Yaml

/-- A character that ends a line. -/
def isBreak (c : Char) : Bool :=
  c = '\r' || c = '\n' || c = '\u0085' || c = '\u2028' || c = '\u2029'

/-- A space or a tab. -/
def isBlank (c : Char) : Bool := c = ' ' || c = '\t'

/-- A character of names. -/
def isWord (c : Char) : Bool := c.isAlphanum || c = '_' || c = '-'

/-- A character that may stand in a text at all. -/
def isAllowed (c : Char) : Bool :=
  let n := c.toNat
  n = 0x09 || n = 0x0A || n = 0x0D || (0x20 ≤ n && n ≤ 0x7E) || n = 0x85 ||
    (0xA0 ≤ n && n ≤ 0xD7FF) || (0xE000 ≤ n && n ≤ 0xFFFD) || 0x10000 ≤ n

/-- The text that is left. -/
structure Cursor where
  rest : List Char
  line : Nat := 0
  column : Nat := 0
  index : Nat := 0
deriving Inhabited

namespace Cursor

/-- The next character. -/
def peek? (c : Cursor) : Option Char := c.rest.head?

/-- The character `n` places further on. -/
def at? (c : Cursor) (n : Nat) : Option Char := c.rest[n]?

/-- The text is at its end. -/
def isAtEnd (c : Cursor) : Bool := c.rest.isEmpty

/-- The next character is this one. -/
def sees (c : Cursor) (ch : Char) : Bool := c.peek? = some ch

/-- A space, a tab, a line end or the end of the text stands `n` places further on. -/
def isGapAt (c : Cursor) (n : Nat) : Bool :=
  match c.at? n with
  | none => true
  | some ch => isBlank ch || isBreak ch

/-- Goes past `n` characters that do not end a line. -/
def skip (c : Cursor) (n : Nat := 1) : Cursor :=
  { c with rest := c.rest.drop n, column := c.column + n, index := c.index + n }

/-- Goes past a line end. -/
def skipBreak (c : Cursor) : Cursor :=
  match c.rest with
  | '\r' :: '\n' :: rest => { rest, line := c.line + 1, column := 0, index := c.index + 2 }
  | _ :: rest => { rest, line := c.line + 1, column := 0, index := c.index + 1 }
  | [] => c

/-- The line end as it counts in a scalar: a line feed, or a separator of lines or paragraphs. -/
def breakText (c : Cursor) : List Char :=
  match c.rest with
  | '\u2028' :: _ => ['\u2028']
  | '\u2029' :: _ => ['\u2029']
  | [] => []
  | _ => ['\n']

/-- The characters up to the first that does not satisfy `p`. -/
def run (c : Cursor) (p : Char → Bool) : List Char := c.rest.takeWhile p

/-- Goes past the characters up to the first that does not satisfy `p`. -/
def skipRun (c : Cursor) (p : Char → Bool) : Cursor := c.skip (c.run p).length

/-- Goes past a comment, if one starts here. -/
def skipComment (c : Cursor) : Cursor :=
  if c.sees '#' then c.skipRun (fun ch => !isBreak ch) else c

/-- The next character ends the line, or there is none. -/
def isAtLineEnd (c : Cursor) : Bool :=
  match c.peek? with
  | none => true
  | some ch => isBreak ch

/-- A marker of three characters stands at the start of the line, with a gap after it. -/
def seesMarker (c : Cursor) (marker : List Char) : Bool :=
  c.column = 0 && c.rest.take 3 = marker && c.isGapAt 3

/-- The start or the end of a document is marked here. -/
def seesDocumentMarker (c : Cursor) : Bool :=
  c.seesMarker ['-', '-', '-'] || c.seesMarker ['.', '.', '.']

end Cursor

end NodeProvisioner.Yaml
