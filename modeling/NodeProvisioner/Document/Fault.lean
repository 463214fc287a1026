import NodeProvisioner.Decimal.Layout
import NodeProvisioner.Text.Place
import NodeProvisioner.Text.Quoted

/-!
# Faults of a document

A document that cannot be read as the value asked for has a fault: a cause, the path of members
and items that leads to it, and, for a document read from a text, the place where reading stopped.
-/

namespace NodeProvisioner

/-- A value that stands where another was expected. -/
inductive Found where
  | null
  | bool (b : Bool)
  | int (n : Int)
  | float (x : Float)
  | text (s : String)
  | list
  | map
deriving Repr, Inhabited

/-- A rule of the JSON grammar that a text breaks. -/
inductive Breach where
  | endInValue
  | endInList
  | endInMap
  | endInText
  | noValue
  | noLiteral
  | noColon
  | noListEnd
  | noMapEnd
  | keyNotText
  | commaBeforeEnd
  | more
  | number
  | numberRange
  | control
  | escape
  | endInEscape
  | loneSurrogate
  | depth
deriving DecidableEq, Repr, Inhabited

/-- Why a document cannot be read. -/
inductive Cause where
  | wrongType (found : Found) (expected : String)
  | wrongValue (found : Found) (expected : String)
  | wrongLength (length : Nat) (expected : String)
  | missing (member : String)
  | repeated (member : String)
  | unknownVariant (name : String) (known : List String)
  | breach (rule : Breach)
  /-- The text of a value breaks the rules of its own type. -/
  | unreadable (message : String)
deriving Repr, Inhabited

/-- One step into a document. -/
inductive Step where
  | member (name : String)
  | item (index : Nat)
deriving DecidableEq, Repr, Inhabited

/-- A cause with the way to it. -/
structure Fault where
  cause : Cause
  path : List Step := []
  place : Option Place := none
  /-- The fault counts as one of the list or map that holds the value. -/
  ofHolder : Bool := false
deriving Repr, Inhabited

namespace Breach

/-- What is wrong with the text. -/
def message : Breach → String
  | endInValue => "EOF while parsing a value"
  | endInList => "EOF while parsing a list"
  | endInMap => "EOF while parsing an object"
  | endInText => "EOF while parsing a string"
  | noValue => "expected value"
  | noLiteral => "expected ident"
  | noColon => "expected `:`"
  | noListEnd => "expected `,` or `]`"
  | noMapEnd => "expected `,` or `\x7d`"
  | keyNotText => "key must be a string"
  | commaBeforeEnd => "trailing comma"
  | more => "trailing characters"
  | number => "invalid number"
  | numberRange => "number out of range"
  | control => "control character (\\u0000-\\u001F) found while parsing a string"
  | escape => "invalid escape"
  | endInEscape => "unexpected end of hex escape"
  | loneSurrogate => "lone leading surrogate in hex escape"
  | depth => "recursion limit exceeded"

/-- The fault of a text that breaks the rule at a place. -/
def fault (rule : Breach) (place : Place) : Fault :=
  { cause := .breach rule, place := some place }

end Breach

/-- The words of a notation for the values found in it. -/
structure Vocabulary where
  null : String
  float : Float → String

/-- The words for a value found in JSON. -/
def jsonVocabulary : Vocabulary := ⟨"null", Decimal.jsonLayout.render⟩

/-- The words for a value found in YAML. -/
def yamlVocabulary : Vocabulary := ⟨"unit value", Decimal.plainLayout.render⟩

/-- A value found, in words. -/
def Found.describe (words : Vocabulary) : Found → String
  | null => words.null
  | bool b => s!"boolean `{b}`"
  | int n => s!"integer `{n}`"
  | float x => s!"floating point `{words.float x}`"
  | text s => "string " ++ Text.quoted s
  | list => "sequence"
  | map => "map"

/-- The names as alternatives. -/
def alternatives : List String → String
  | [] => "there are no variants"
  | [a] => s!"expected `{a}`"
  | [a, b] => s!"expected `{a}` or `{b}`"
  | names => "expected one of " ++ ", ".intercalate (names.map fun n => s!"`{n}`")

/-- A cause in words. -/
def Cause.describe (words : Vocabulary) : Cause → String
  | wrongType found expected => s!"invalid type: {found.describe words}, expected {expected}"
  | wrongValue found expected => s!"invalid value: {found.describe words}, expected {expected}"
  | wrongLength length expected => s!"invalid length {length}, expected {expected}"
  | missing name => s!"missing field `{name}`"
  | repeated name => s!"duplicate field `{name}`"
  | unknownVariant name known => s!"unknown variant `{name}`, {alternatives known}"
  | breach rule => rule.message
  | unreadable message => message

namespace Fault

/-- A fault of the document itself. -/
def here (cause : Cause) (place : Option Place := none) : Fault := { cause, place }

/-- The fault as seen from one step further out. -/
def under (step : Step) (f : Fault) : Fault :=
  if f.ofHolder then { f with ofHolder := false } else { f with path := step :: f.path }

/-- The fault with a place, unless it has one. -/
def placed (place : Option Place) (f : Fault) : Fault := { f with place := f.place <|> place }

/-- The message of a fault in JSON: the cause, and the place if there is a text. -/
def jsonMessage (f : Fault) : String :=
  f.cause.describe jsonVocabulary ++ match f.place with
    | none => ""
    | some p => s!" at line {p.line} column {p.column}"

/-- The path with dots before members and indices in brackets. -/
def pathText (path : List Step) : String :=
  path.foldl (fun text step => match step with
    | .member name => if text.isEmpty then name else text ++ "." ++ name
    | .item index => text ++ s!"[{index}]") ""

/-- The message of a fault in YAML: the path, unless the fault is of the whole document, and the
cause. -/
def yamlMessage (f : Fault) : String :=
  (if f.path.isEmpty then "" else pathText f.path ++ ": ") ++ f.cause.describe yamlVocabulary

end Fault

end NodeProvisioner
