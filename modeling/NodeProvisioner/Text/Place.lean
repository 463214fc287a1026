/-!
# Places in a text

A reader reports a fault at a place: the line, counted from 1, and the number of bytes of that
line that have been read. A character of several bytes moves the column by all of them.
-/

namespace NodeProvisioner

/-- A place in a text. -/
structure Place where
  line : Nat := 1
  column : Nat := 0
deriving DecidableEq, Repr, Inhabited

namespace Place

/-- The place before the first character. -/
def start : Place := ⟨1, 0⟩

/-- The place after the character `c`. -/
def after (p : Place) (c : Char) : Place :=
  if c = '\n' then ⟨p.line + 1, 0⟩ else ⟨p.line, p.column + c.utf8Size⟩

/-- The place after the characters `cs`. -/
def afterAll (p : Place) (cs : List Char) : Place :=
  cs.foldl after p

/-- The place after the first byte of the character `c`. -/
def afterByte (p : Place) (c : Char) : Place :=
  if c = '\n' then ⟨p.line + 1, 0⟩ else ⟨p.line, p.column + 1⟩

/-- The place after the first `n` bytes of the characters `cs`. -/
def afterBytes (p : Place) : Nat → List Char → Place
  | 0, _ => p
  | _, [] => p
  | n + 1, c :: cs =>
    if c.utf8Size ≤ n + 1 then (p.after c).afterBytes (n + 1 - c.utf8Size) cs
    else ⟨p.line, p.column + n + 1⟩
termination_by _ cs => cs.length

end Place

end NodeProvisioner
