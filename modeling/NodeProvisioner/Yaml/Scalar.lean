import NodeProvisioner.Text.Hex
import NodeProvisioner.Yaml.Cursor

/-!
# Scalars of a YAML text

A scalar over several lines is folded: a single line end within it counts as a space, and of more
than one all but the first count. Only the literal form keeps every line end.

A reader gives the text of the scalar and the cursor after it, or nothing if the text breaks the
rules. The loops are bounded by the length of the text, which every round shortens.
-/

namespace NodeProvisioner.Yaml

/-- The space between two words of a scalar. -/
structure Gap where
  /-- Blanks on one line. -/
  blanks : List Char := []
  /-- A line end has been met. -/
  broken : Bool := false
  /-- The first line end. -/
  first : List Char := []
  /-- The line ends after the first. -/
  later : List Char := []
deriving Inhabited

/-- What a gap counts for in a scalar. -/
def Gap.fold (g : Gap) : List Char :=
  if !g.broken then g.blanks
  else match g.first with
    | '\n' :: _ => if g.later.isEmpty then [' '] else g.later
    | _ => g.first ++ g.later

/-- Reads a gap. In a scalar without quotes that has to be indented, a tab may not stand before the
column `indent` of a later line. -/
def scanGap (indent : Nat) : Nat → Gap → Cursor → Option (Gap × Cursor)
  | 0, g, c => some (g, c)
  | fuel + 1, g, c =>
    match c.peek? with
    | none => some (g, c)
    | some ch =>
      if isBlank ch then
        if g.broken then
          if ch = '\t' ∧ c.column < indent then none else scanGap indent fuel g c.skip
        else scanGap indent fuel { g with blanks := g.blanks ++ [ch] } c.skip
      else if isBreak ch then
        if g.broken then
          scanGap indent fuel { g with later := g.later ++ c.breakText } c.skipBreak
        else scanGap indent fuel { g with broken := true, first := c.breakText } c.skipBreak
      else some (g, c)

/-! ## Quoted scalars -/

/-- The character that a letter after a backslash stands for. -/
def escapeLetter? : Char → Option Char
  | '0' => some '\x00'
  | 'a' => some '\x07'
  | 'b' => some '\x08'
  | 't' => some '\t'
  | '\t' => some '\t'
  | 'n' => some '\n'
  | 'v' => some '\x0b'
  | 'f' => some '\x0c'
  | 'r' => some '\r'
  | 'e' => some '\x1b'
  | ' ' => some ' '
  | '"' => some '"'
  | '/' => some '/'
  | '\\' => some '\\'
  | 'N' => some '\u0085'
  | '_' => some '\u00a0'
  | 'L' => some '\u2028'
  | 'P' => some '\u2029'
  | _ => none

/-- How many hexadecimal digits follow a letter after a backslash. -/
def escapeSize? : Char → Option Nat
  | 'x' => some 2
  | 'u' => some 4
  | 'U' => some 8
  | _ => none

/-- A word of a quoted scalar. -/
structure Word where
  text : List Char
  cursor : Cursor
  /-- The word ends with an escaped line end. -/
  escapedBreak : Bool
deriving Inhabited

/-- Reads a word of a quoted scalar: up to a gap or the closing quote. -/
def scanWord (single : Bool) : Nat → Cursor → Option Word
  | 0, _ => none
  | fuel + 1, c =>
    let add (text : List Char) (next : Cursor) : Option Word :=
      (scanWord single fuel next).map fun w => { w with text := text ++ w.text }
    match c.rest with
    | [] => some ⟨[], c, false⟩
    | ch :: rest =>
      if isBlank ch || isBreak ch then some ⟨[], c, false⟩
      else if single then
        match ch, rest with
        | '\'', '\'' :: _ => add ['\''] (c.skip 2)
        | '\'', _ => some ⟨[], c, false⟩
        | _, _ => add [ch] c.skip
      else if ch = '"' then some ⟨[], c, false⟩
      else if ch = '\\' then
        match rest with
        | [] => none
        | letter :: more =>
          if isBreak letter then some ⟨[], c.skip.skipBreak, true⟩
          else match escapeLetter? letter with
            | some e => add [e] (c.skip 2)
            | none =>
              match escapeSize? letter with
              | none => none
              | some size =>
                let digits := more.take size
                if digits.length < size then none
                else match Text.ofHexDigits? digits with
                  | none => none
                  | some n =>
                    if (0xD800 ≤ n ∧ n ≤ 0xDFFF) ∨ 0x10FFFF < n then none
                    else add [Char.ofNat n] (c.skip (2 + size))
      else add [ch] c.skip

/-- Reads a quoted scalar after its opening quote. -/
def scanQuoted (single : Bool) : Nat → Cursor → Option (List Char × Cursor)
  | 0, _ => none
  | fuel + 1, c =>
    if c.seesDocumentMarker || c.isAtEnd then none
    else do
      let word ← scanWord single (c.rest.length + 1) c
      if !word.escapedBreak && word.cursor.sees (if single then '\'' else '"') then
        return (word.text, word.cursor.skip)
      else
        let start : Gap := if word.escapedBreak then { broken := true } else {}
        let (gap, next) ← scanGapQuoted (c.rest.length + 1) start word.cursor
        let (more, last) ← scanQuoted single fuel next
        return (word.text ++ gap.fold ++ more, last)
where
  /-- A gap in a quoted scalar: after an escaped line end the first further one already counts. -/
  scanGapQuoted (fuel : Nat) (start : Gap) (c : Cursor) : Option (Gap × Cursor) :=
    scanGap 0 fuel start c

/-! ## Plain scalars -/

/-- A character that ends a plain scalar within brackets. -/
def isFlowEnd (ch : Char) : Bool := [',', '[', ']', '\x7b', '\x7d'].contains ch

/-- A character that may not come right after a colon within brackets. -/
def isFlowClash (ch : Char) : Bool := ch = '?' || isFlowEnd ch

/-- Reads a word of a plain scalar: up to a gap, or to what ends the scalar. -/
def scanPlainWord (inFlow : Bool) : Nat → Cursor → Option (List Char × Cursor)
  | 0, c => some ([], c)
  | fuel + 1, c =>
    match c.rest with
    | [] => some ([], c)
    | ch :: rest =>
      let next := rest.head?
      if isBlank ch || isBreak ch then some ([], c)
      else if inFlow && ch = ':' && next.any isFlowClash then none
      else if (ch = ':' && c.isGapAt 1) || (inFlow && isFlowEnd ch) then some ([], c)
      else (scanPlainWord inFlow fuel c.skip).map fun (text, last) => (ch :: text, last)

/-- A plain scalar: its text, the cursor after it and the gap that follows, and whether the gap
holds a line end. -/
structure PlainText where
  text : List Char
  cursor : Cursor
  broken : Bool
deriving Inhabited

/-- Reads a plain scalar whose later lines are indented to `indent` at least. `gap` is the space
before the next word. -/
def scanPlain (inFlow : Bool) (indent : Nat) : Nat → Gap → Cursor → Option PlainText
  | 0, gap, c => some ⟨[], c, gap.broken⟩
  | fuel + 1, gap, c =>
    if c.seesDocumentMarker || c.sees '#' then some ⟨[], c, gap.broken⟩
    else do
      let (word, next) ← scanPlainWord inFlow (c.rest.length + 1) c
      let gap := if word.isEmpty then gap else {}
      let before := if word.isEmpty then [] else word
      match next.peek? with
      | none => return ⟨before, next, gap.broken⟩
      | some ch =>
        if !(isBlank ch || isBreak ch) then return ⟨before, next, gap.broken⟩
        else
          let (gap, after) ← scanGap indent (next.rest.length + 1) gap next
          if !inFlow && after.column < indent then return ⟨before, after, gap.broken⟩
          else
            let more ← scanPlain inFlow indent fuel gap after
            if more.text.isEmpty then return { more with text := before }
            else return { more with text := before ++ gap.fold ++ more.text }

/-! ## Block scalars -/

/-- How a block scalar treats the line ends at its end. -/
inductive Chomping where
  | strip
  | clip
  | keep
deriving DecidableEq, Repr, Inhabited

/-- The marks after the sign of a block scalar: what becomes of its last line ends, and its
indentation. -/
def scanBlockHeader (c : Cursor) : Option (Chomping × Option Nat × Cursor) :=
  let chomping? (c : Cursor) : Option Chomping :=
    if c.sees '+' then some .keep else if c.sees '-' then some .strip else none
  let digit? (c : Cursor) : Option Nat :=
    c.peek?.bind fun ch => if ch.isDigit then some (ch.toNat - '0'.toNat) else none
  match chomping? c with
  | some chomping =>
    match digit? c.skip with
    | some 0 => none
    | some n => some (chomping, some n, c.skip 2)
    | none => some (chomping, none, c.skip)
  | none =>
    match digit? c with
    | some 0 => none
    | some n =>
      match chomping? c.skip with
      | some chomping => some (chomping, some n, c.skip 2)
      | none => some (.clip, some n, c.skip)
    | none => some (.clip, none, c)

/-- The indentation and the line ends before a line of a block scalar. Where the indentation is
not known yet, `known` is `none`. -/
def scanBlockBreaks (known : Option Nat) : Nat → Nat → Cursor → Option (List Char × Nat × Cursor)
  | 0, widest, c => some ([], widest, c)
  | fuel + 1, widest, c =>
    let spaces := (c.run (· = ' ')).length
    let room := match known with
      | none => spaces
      | some indent => min spaces (indent - c.column)
    let c := c.skip room
    let widest := max widest c.column
    let shallow := match known with
      | none => true
      | some indent => decide (c.column < indent)
    match c.peek? with
    | none => some ([], widest, c)
    | some ch =>
      if shallow && ch = '\t' then none
      else if isBreak ch then
        (scanBlockBreaks known fuel widest c.skipBreak).map fun (text, w, last) =>
          (c.breakText ++ text, w, last)
      else some ([], widest, c)

/-- Reads the lines of a block scalar. `pending` is the line end before the line, `breaks` those
after it, and `blankBefore` tells whether the line before starts with a blank. -/
def scanBlockLines (literal : Bool) (chomping : Chomping) (indent : Nat) :
    Nat → List Char → List Char → Bool → Cursor → Option (List Char × Cursor)
  | 0, _, _, _, _ => none
  | fuel + 1, pending, breaks, blankBefore, c =>
    if c.column = indent ∧ !c.isAtEnd then do
      let blank := c.peek?.any isBlank
      let joined :=
        if !literal && pending.head? = some '\n' && !blankBefore && !blank then
          if breaks.isEmpty then [' '] else []
        else pending
      let line := c.run fun ch => !isBreak ch
      let next := c.skip line.length
      let ending := next.breakText
      let (more, _, after) ← scanBlockBreaks (some indent) (next.rest.length + 1) 0 next.skipBreak
      let (text, last) ← scanBlockLines literal chomping indent fuel ending more blank after
      return (joined ++ breaks ++ line ++ text, last)
    else
      let tail := match chomping with
        | .strip => []
        | .clip => pending
        | .keep => pending ++ breaks
      some (tail, c)

/-- Reads a block scalar after its sign; `parent` is the indentation of what it belongs to, `none`
outside of everything. -/
def scanBlock (literal : Bool) (parent : Option Nat) (c : Cursor) : Option (List Char × Cursor) := do
  let (chomping, increment, c) ← scanBlockHeader c
  let c := (c.skipRun isBlank).skipComment
  if !c.isAtLineEnd then none
  else
    let c := c.skipBreak
    let outer := parent.getD 0
    let known := increment.map (outer + ·)
    let (breaks, widest, c) ← scanBlockBreaks known (c.rest.length + 1) 0 c
    let least := match parent with
      | none => 1
      | some n => n + 1
    let indent := known.getD (max widest least)
    scanBlockLines literal chomping indent (c.rest.length + 2) [] breaks false c

end NodeProvisioner.Yaml
