import NodeProvisioner.Encoding.Base64
import NodeProvisioner.Text.Properties

/-!
# Textual encoding of binary objects

An object in a text stands in Base64 between two boundary lines that carry a label. What stands
before the first boundary is skipped; headers may come before the data, with an empty line between.
White space in the data does not count.

A boundary is looked for character by character: after a mismatch the search starts over with the
next character, so that a boundary straight after a part of one is not seen.
-/

namespace NodeProvisioner.Pem

/-- Looks for a marker, of which `wanted` is still to come: the text before it, and after it. -/
def scan (marker : List Char) : List Char → List Char → List Char →
    Option (List Char × List Char)
  | [], seen, rest => some ((seen.drop marker.length).reverse, rest)
  | _ :: _, _, [] => none
  | w :: ws, seen, c :: cs => scan marker (if c = w then ws else marker) (c :: seen) cs

/-- The text before the first marker, and after it. -/
def splitAt? (marker : String) (cs : List Char) : Option (List Char × List Char) :=
  scan marker.toList marker.toList [] cs

/-- The text without blanks and line ends at its start. -/
def skipSpace (cs : List Char) : List Char :=
  cs.dropWhile fun c => c = ' ' || c = '\t' || c = '\n' || c = '\r'

/-- The lines of a text. -/
def linesOf (cs : List Char) : List (List Char) :=
  if cs.isEmpty then []
  else
    let lines := cs.splitOn '\n'
    if lines.getLast? = some [] then lines.dropLast else lines

/-- The headers of an object and its data. -/
def headersAndData (body : List Char) : List Char × List Char :=
  ((splitAt? "\n\n" body) <|> (splitAt? "\r\n\r\n" body)).getD ([], body)

/-- The bytes of the first object in a text. -/
def decode? (text : String) : Option (List UInt8) := do
  let (_, rest) ← splitAt? "-----BEGIN " text.toList
  let (label, rest) ← splitAt? "-----" rest
  let (body, rest) ← splitAt? "-----END " (skipSpace rest)
  let (last, _) ← splitAt? "-----" rest
  if label.isEmpty || label ≠ last then none
  else
    let (headers, data) := headersAndData body
    let bytes ← Base64.decode? (data.filter fun c => !Text.isBlank c)
    if (linesOf headers).all (·.contains ':') then some bytes else none

/-- The text in lines of sixty-four characters. -/
def wrapped (cs : List Char) : List Char :=
  if cs.isEmpty then [] else cs.take 64 ++ '\n' :: wrapped (cs.drop 64)
termination_by cs.length
decreasing_by
  have : cs ≠ [] := by simpa using ‹¬cs.isEmpty›
  have := List.length_pos_iff.mpr this
  simp only [List.length_drop]
  omega

/-- The text of an object with a label. -/
def encode (label : String) (bytes : List UInt8) : String :=
  s!"-----BEGIN {label}-----\n" ++ String.ofList (wrapped (Base64.encode bytes)) ++
    s!"-----END {label}-----\n"

end NodeProvisioner.Pem
