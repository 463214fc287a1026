import NodeProvisioner.Yaml.Scalar
import NodeProvisioner.Yaml.Token

/-!
# From a YAML text to its tokens

The lexer keeps the columns of the open collections in block form, the innermost first, and for
each open bracket, and outside of them, whether what was read last may turn out to be a key. A key
without a mark has to stand on one line and within 1024 characters before its colon. At the column
of an open map it has to be a key; if the colon does not come, the text is malformed.

There is only one way to be malformed here: the result is then nothing.
-/

namespace NodeProvisioner.Yaml

/-- What may turn out to be a key: where it starts, and whether it has to be one. -/
structure PossibleKey where
  number : Nat
  required : Bool
  line : Nat
  column : Nat
  index : Nat
deriving Inhabited

/-- The state of the lexer. -/
structure Lexer where
  cursor : Cursor
  /-- The tokens so far, the last one first. -/
  tokens : List Token := []
  confirmed : List Confirmed := []
  /-- The number of candidates so far. -/
  candidates : Nat := 0
  /-- The columns of the open collections in block form. -/
  columns : List Nat := []
  /-- What may turn out to be a key, innermost bracket first. -/
  keys : List (Option PossibleKey) := [none]
  /-- A key may start here. -/
  keyAllowed : Bool := true
deriving Inhabited

namespace Lexer

/-- The lexer is between brackets. -/
def inFlow (s : Lexer) : Bool := s.keys.length > 1

/-- Appends a token. -/
def emit (s : Lexer) (t : Token) : Lexer := { s with tokens := t :: s.tokens }

/-- Moves on. -/
def move (s : Lexer) (c : Cursor) : Lexer := { s with cursor := c }

/-- Notes whether a key may start next. -/
def allow (s : Lexer) (allowed : Bool) : Lexer := { s with keyAllowed := allowed }

/-- The innermost open collection in block form starts at this column. -/
def isInnermost (s : Lexer) (column : Nat) : Bool := s.columns.head? = some column

/-- The innermost open collection in block form starts before this column. -/
def isDeeper (s : Lexer) (column : Nat) : Bool := s.columns.all (· < column)

/-- Closes the collections in block form that start after a column; all of them if there is
none. -/
def closeColumns (column : Option Nat) : List Nat → List Token → List Nat × List Token
  | [], tokens => ([], tokens)
  | c :: rest, tokens =>
    if column.all (· < c) then closeColumns column rest (.blockEnd :: tokens)
    else (c :: rest, tokens)

/-- Closes the collections in block form that start after a column. -/
def unroll (s : Lexer) (column : Option Nat) : Lexer :=
  if s.inFlow then s
  else
    let (columns, tokens) := closeColumns column s.columns s.tokens
    { s with columns, tokens }

/-- Drops what might have been a key; it may not if it had to be one. -/
def dropKey (s : Lexer) : Option Lexer :=
  match s.keys with
  | some key :: rest => if key.required then none else some { s with keys := none :: rest }
  | _ => some s

/-- Notes that what comes next may turn out to be a key. -/
def saveKey (s : Lexer) : Option Lexer :=
  if s.keyAllowed then do
    let s ← s.dropKey
    let c := s.cursor
    let key : PossibleKey :=
      ⟨s.candidates, !s.inFlow && s.isInnermost c.column, c.line, c.column, c.index⟩
    return { s with
      keys := some key :: s.keys.drop 1
      candidates := s.candidates + 1
      tokens := .candidate s.candidates :: s.tokens }
  else some s

/-- A key whose colon can no longer come. -/
def isStale (c : Cursor) (key : PossibleKey) : Bool :=
  key.line < c.line || key.index + 1024 < c.index

/-- Drops the possible keys whose colon can no longer come. -/
def dropStale (s : Lexer) : Option Lexer := do
  let keys ← s.keys.mapM fun key => match key with
    | none => some none
    | some key =>
      if isStale s.cursor key then if key.required then none else some none
      else some (some key)
  return { s with keys }

/-- Opens a collection in block form at the cursor, if it is deeper than those open. -/
def roll (s : Lexer) (token : Token) : Lexer :=
  if !s.inFlow && s.isDeeper s.cursor.column then
    { s with columns := s.cursor.column :: s.columns, tokens := token :: s.tokens }
  else s

/-! ## Space -/

/-- Goes past space, comments and line ends. A tab is space only where no key may start. -/
def skipSpace : Nat → Lexer → Lexer
  | 0, s => s
  | fuel + 1, s =>
    let c := s.cursor
    let c := if c.index = 0 && c.sees '\ufeff' then c.skip else c
    let c := c.skipRun fun ch => ch = ' ' || (ch = '\t' && (s.inFlow || !s.keyAllowed))
    let c := c.skipComment
    match c.peek? with
    | none => s.move c
    | some ch =>
      if isBreak ch then
        skipSpace fuel ((s.move c.skipBreak).allow (s.keyAllowed || !s.inFlow))
      else s.move c

/-! ## Names and tags -/

/-- The name after an ampersand or an asterisk. -/
def name? (c : Cursor) : Option (String × Cursor) :=
  let name := c.run isWord
  let next := c.skip name.length
  let ends := next.isGapAt 0 ||
    next.peek?.any fun ch => ['?', ':', ',', ']', '\x7d', '%', '@', '\x60'].contains ch
  if name.isEmpty || !ends then none else some (String.ofList name, next)

/-- A character of tags. -/
def isTagChar (verbatim : Bool) (ch : Char) : Bool :=
  isWord ch || ";/?:@&=+$.%!~*()\x27".toList.contains ch || (verbatim && [',', '[', ']'].contains ch)

/-- The bytes of escapes in a tag are hexadecimal. -/
def tagEscapesValid : List Char → Bool
  | [] => true
  | '%' :: a :: b :: rest =>
    (Text.hexValue? a).isSome && (Text.hexValue? b).isSome && tagEscapesValid rest
  | '%' :: _ => false
  | _ :: rest => tagEscapesValid rest

/-- The handle of a tag: an exclamation mark, or a word between two. -/
def tagHandle? (c : Cursor) : Option (List Char × Cursor) :=
  if c.sees '!' then
    let word := c.skip.run isWord
    let next := c.skip.skip word.length
    if next.sees '!' then some ('!' :: word ++ ['!'], next.skip) else some ('!' :: word, next)
  else none

/-- A tag: its handle and what follows it. -/
def tag? (inFlow : Bool) (c : Cursor) : Option (String × String × Cursor) := do
  let (handle, suffix, next) ←
    if c.at? 1 = some '<' then
      let uri := (c.skip 2).run (isTagChar true)
      let next := (c.skip 2).skip uri.length
      if uri.isEmpty || !tagEscapesValid uri || !next.sees '>' then none
      else some ([], uri, next.skip)
    else do
      let (head, next) ← tagHandle? c
      let uri := next.run (isTagChar false)
      let last := next.skip uri.length
      if !tagEscapesValid uri then none
      else if head.length > 1 ∧ head.getLast? = some '!' then
        if uri.isEmpty then none else some (head, uri, last)
      else
        let suffix := head.drop 1 ++ uri
        if suffix.isEmpty then some ([], ['!'], last) else some (['!'], suffix, last)
  if next.isGapAt 0 || (inFlow && next.sees ',') then
    return (String.ofList handle, String.ofList suffix, next)
  else none

/-! ## Directives -/

/-- A number of a version. -/
def versionNumber? (c : Cursor) : Option (Nat × Cursor) :=
  let digits := c.run Char.isDigit
  if digits.isEmpty || digits.length > 9 then none
  else some (digits.foldl (fun n d => 10 * n + (d.toNat - '0'.toNat)) 0, c.skip digits.length)

/-- A directive after its percent sign. -/
def directive? (c : Cursor) : Option (Token × Cursor) := do
  let name := c.run isWord
  let next := c.skip name.length
  if name.isEmpty || !next.isGapAt 0 then none
  else
    let body := next.skipRun isBlank
    let (token, last) ← match String.ofList name with
      | "YAML" => do
        let (major, c) ← versionNumber? body
        if c.sees '.' then
          let (minor, c) ← versionNumber? c.skip
          some (Token.version major minor, c)
        else none
      | "TAG" => do
        let (handle, c) ← tagHandle? body
        if handle.length > 1 && handle.getLast? ≠ some '!' then none
        else if !(c.peek?.any isBlank) then none
        else
          let c := c.skipRun isBlank
          let uri := c.run (isTagChar true)
          let c := c.skip uri.length
          if uri.isEmpty || !tagEscapesValid uri || !c.isGapAt 0 then none
          else some (Token.tagHandle (String.ofList handle) (String.ofList uri), c)
      | _ => none
    let last := (last.skipRun isBlank).skipComment
    if last.isAtLineEnd then some (token, last.skipBreak) else none

/-! ## Tokens -/

/-- Takes the next token of one character. -/
def take (s : Lexer) (t : Token) : Lexer := (s.emit t).move s.cursor.skip

/-- The end of the text. -/
def finish (s : Lexer) : Option Lexer := do
  let s ← (s.unroll none).dropKey
  return (s.allow false).emit .streamEnd

/-- A mark of the start or the end of a document. -/
def documentMark (s : Lexer) (t : Token) : Option Lexer := do
  let s ← (s.unroll none).dropKey
  return ((s.allow false).emit t).move (s.cursor.skip 3)

/-- A directive. -/
def directive (s : Lexer) : Option Lexer := do
  let s ← (s.unroll none).dropKey
  let (token, c) ← directive? s.cursor.skip
  return ((s.allow false).emit token).move c

/-- An opening bracket. -/
def openFlow (s : Lexer) (t : Token) : Option Lexer := do
  let s ← s.saveKey
  return (({ s with keys := none :: s.keys }).allow true).take t

/-- A closing bracket. -/
def closeFlow (s : Lexer) (t : Token) : Option Lexer := do
  let s ← s.dropKey
  let keys := if s.inFlow then s.keys.drop 1 else s.keys
  return (({ s with keys }).allow false).take t

/-- A comma between brackets. -/
def flowEntry (s : Lexer) : Option Lexer := do
  let s ← s.dropKey
  return (s.allow true).take .flowEntry

/-- A dash before an item. -/
def blockEntry (s : Lexer) : Option Lexer := do
  if !s.inFlow && !s.keyAllowed then none
  else
    let s ← (s.roll .blockList).dropKey
    return (s.allow true).take .blockEntry

/-- A question mark before a key. -/
def explicitKey (s : Lexer) : Option Lexer := do
  if !s.inFlow && !s.keyAllowed then none
  else
    let s ← (s.roll .blockMap).dropKey
    return (s.allow (!s.inFlow)).take .key

/-- A colon: it confirms what may be a key, or stands after a key that was marked or is empty. -/
def value (s : Lexer) : Option Lexer :=
  match s.keys with
  | some key :: rest =>
    let opens := !s.inFlow && s.isDeeper key.column
    let columns := if opens then key.column :: s.columns else s.columns
    let s := { s with keys := none :: rest, columns, confirmed := ⟨key.number, opens⟩ :: s.confirmed }
    some ((s.allow false).take .value)
  | _ =>
    if !s.inFlow && !s.keyAllowed then none
    else
      let s := s.roll .blockMap
      some ((s.allow (!s.inFlow)).take .value)

/-- An asterisk or an ampersand with its name. -/
def named (s : Lexer) (token : String → Token) : Option Lexer := do
  let s ← s.saveKey
  let (name, c) ← name? s.cursor.skip
  return ((s.allow false).emit (token name)).move c

/-- A tag. -/
def tagged (s : Lexer) : Option Lexer := do
  let s ← s.saveKey
  let (handle, suffix, c) ← tag? s.inFlow s.cursor
  return ((s.allow false).emit (.tag handle suffix)).move c

/-- A scalar in block form. -/
def block (s : Lexer) (literal : Bool) : Option Lexer := do
  let s ← s.dropKey
  let (text, c) ← scanBlock literal s.columns.head? s.cursor.skip
  return ((s.allow true).emit (.scalar (String.ofList text) .block)).move c

/-- A scalar between quotes. -/
def quoted (s : Lexer) (single : Bool) : Option Lexer := do
  let s ← s.saveKey
  let (text, c) ← scanQuoted single (s.cursor.rest.length + 1) s.cursor.skip
  return ((s.allow false).emit (.scalar (String.ofList text) .quoted)).move c

/-- A scalar without quotes. -/
def plain (s : Lexer) : Option Lexer := do
  let s ← s.saveKey
  let indent := match s.columns with
    | [] => 0
    | column :: _ => column + 1
  let p ← scanPlain s.inFlow indent (s.cursor.rest.length + 1) {} s.cursor
  return ((s.allow p.broken).emit (.scalar (String.ofList p.text) .plain)).move p.cursor

/-- A character that starts no plain scalar, unless something follows that makes up for it. -/
def isIndicator (ch : Char) : Bool :=
  "-?:,[]\x7b\x7d#&*!|>\x27\x22%@\x60".toList.contains ch

/-- A plain scalar may start here. -/
def startsPlain (s : Lexer) (ch : Char) : Bool :=
  let c := s.cursor
  !(isBlank ch || isIndicator ch) || (ch = '-' && !(c.at? 1).any isBlank) ||
    (!s.inFlow && (ch = '?' || ch = ':') && !c.isGapAt 1)

/-- The next token. -/
def step (s : Lexer) : Option Lexer := do
  let s := skipSpace (s.cursor.rest.length + 1) s
  let s ← s.dropStale
  let c := s.cursor
  let s := s.unroll (some c.column)
  match c.peek? with
  | none => s.finish
  | some ch =>
    if c.column = 0 && ch = '%' then s.directive
    else if c.seesMarker ['-', '-', '-'] then s.documentMark .documentStart
    else if c.seesMarker ['.', '.', '.'] then s.documentMark .documentEnd
    else match ch with
      | '[' => s.openFlow .flowList
      | '\x7b' => s.openFlow .flowMap
      | ']' => s.closeFlow .flowListEnd
      | '\x7d' => s.closeFlow .flowMapEnd
      | ',' => s.flowEntry
      | '*' => s.named .alias
      | '&' => s.named .anchor
      | '!' => s.tagged
      | '\x27' => s.quoted true
      | '"' => s.quoted false
      | _ =>
        if ch = '-' && c.isGapAt 1 then s.blockEntry
        else if ch = '?' && (s.inFlow || c.isGapAt 1) then s.explicitKey
        else if ch = ':' && (s.inFlow || c.isGapAt 1) then s.value
        else if (ch = '|' || ch = '>') && !s.inFlow then s.block (ch = '|')
        else if s.startsPlain ch then s.plain
        else none

/-- The tokens are complete. -/
def isFinished (s : Lexer) : Bool := s.tokens.head? = some .streamEnd

/-- All tokens. Every round takes a character at least, so that `fuel` suffices. -/
def run : Nat → Lexer → Option Lexer
  | 0, _ => none
  | fuel + 1, s => if s.isFinished then some s else s.step.bind (run fuel)

end Lexer

/-- The tokens of a text. -/
def tokens? (text : String) : Option (List Token) := do
  let cs := match text.toList with
    | '\ufeff' :: rest => rest
    | cs => cs
  if cs.all isAllowed then
    let s ← Lexer.run (cs.length + 3) { cursor := { rest := cs } }
    return resolve s.confirmed s.tokens.reverse
  else none

end NodeProvisioner.Yaml
