/-!
# Tokens of a YAML text

The tokens say where collections start and end, also where the text says so by its indentation.

Whether something is a key shows only at the colon after it. Before anything that may turn out to
be a key stands a candidate, with a number of its own; the colon confirms it. Tokens are thus only
ever appended, and one pass at the end puts the keys in their places (`resolve`).
-/

namespace NodeProvisioner.Yaml

/-- How a scalar is written. -/
inductive Style where
  | plain
  | quoted
  | block
deriving DecidableEq, Repr, Inhabited

/-- A token. -/
inductive Token where
  | streamEnd
  /-- The version of the language a document is in. -/
  | version (major minor : Nat)
  /-- An abbreviation for tags. -/
  | tagHandle (handle tag : String)
  | documentStart
  | documentEnd
  | blockList
  | blockMap
  | blockEnd
  | flowList
  | flowListEnd
  | flowMap
  | flowMapEnd
  | blockEntry
  | flowEntry
  | key
  | value
  | alias (name : String)
  | anchor (name : String)
  | tag (handle suffix : String)
  | scalar (text : String) (style : Style)
  /-- What follows may turn out to be a key. -/
  | candidate (number : Nat)
deriving DecidableEq, Repr, Inhabited

/-- A confirmed candidate, and whether a map in block form starts with it. -/
structure Confirmed where
  number : Nat
  opensMap : Bool
deriving DecidableEq, Repr

/-- Puts keys in the places of the candidates that have been confirmed, and drops the others. -/
def resolve (confirmed : List Confirmed) (tokens : List Token) : List Token :=
  tokens.flatMap fun token => match token with
    | .candidate number =>
      match confirmed.find? (·.number = number) with
      | none => []
      | some c => if c.opensMap then [.blockMap, .key] else [.key]
    | token => [token]

end NodeProvisioner.Yaml
