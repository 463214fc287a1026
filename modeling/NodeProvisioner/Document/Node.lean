import NodeProvisioner.Document.Fault

/-!
# Documents

A document is a tree of scalars, lists and maps. The same tree stands for a value held in memory,
for a JSON text and for a YAML text; readers of records and lists work on it and do not ask where
it came from.

A text may break off in the middle. Its tree then holds what came before, and at the break the
fault that a reader meets there. Because a reader goes through the tree in the order of the text,
it reports the first fault it meets, be it one of the text or one of a value. Three readings can
differ at one point of a text:

* a reader that wants the value,
* a reader that has all it wants of a list and asks for its end, and
* a reader that skips a value nobody asked for, which is more lenient: it does not look at the
  range of numbers, at the pairing of surrogates, or at the depth.
-/

namespace NodeProvisioner

/-- A value without parts. -/
inductive Scalar where
  | null
  | bool (b : Bool)
  | int (n : Int)
  | float (x : Float)
  | text (s : String)
deriving Repr, Inhabited

/-- The language of a document. Records differ in how they may be given in it. -/
inductive Language where
  | json
  | yaml
deriving DecidableEq, Repr, Inhabited

/-- How a scalar is spelled, in a language where a reader may go by the spelling. -/
structure Spelling where
  text : String
  /-- The scalar stands without quotes. -/
  plain : Bool := true
  /-- The tag, if the scalar has one. -/
  tag : Option String := none
deriving Repr, Inhabited

/-- The name of the tag, if it is one of the document's own. -/
def Spelling.ownTag? (s : Spelling) : Option String :=
  s.tag.bind fun t => match t.toList with
    | '!' :: c :: rest => some (String.ofList (c :: rest))
    | _ => none

/-- Where the text of a value starts and ends. -/
structure Extent where
  first : Place
  last : Place
deriving Repr, Inhabited

/-- How a list or a map ends. -/
inductive Ending where
  /-- It is no text. -/
  | unmarked
  /-- Its closing bracket ends at this place. -/
  | closed (place : Place)
  /-- The text breaks off, with a fault for each reading. -/
  | broken (wanted finished skipped : Fault)
deriving Repr, Inhabited

mutual

/-- A document. -/
inductive Node where
  /-- A scalar. In a language where a scalar may be taken by its spelling, the spelling too. -/
  | scalar (value : Scalar) (spelling : Option Spelling) (extent : Option Extent)
  /-- A list. -/
  | list (items : List Node) (language : Language) (first : Option Place) (ending : Ending)
  /-- A map in the order of its entries. -/
  | map (entries : List Entry) (language : Language) (first : Option Place) (ending : Ending)
  /-- A value that cannot be read, for this fault, but can be skipped. -/
  | guarded (fault : Fault) (inner : Node)
  /-- A value that breaks off, with a fault for a reader and one for a skipper. -/
  | broken (first : Place) (wanted skipped : Fault)

/-- A key with its value, and the places of the text reached after each of them: past the space
that follows, and past a closing bracket if one comes next. -/
inductive Entry where
  | mk (key value : Node) (afterKey afterValue : Option Place)

end

instance : Inhabited Node := ⟨.scalar .null none none⟩

namespace Entry

def key : Entry → Node | mk k _ _ _ => k
def value : Entry → Node | mk _ v _ _ => v
def afterKey : Entry → Option Place | mk _ _ p _ => p
def afterValue : Entry → Option Place | mk _ _ _ p => p

end Entry

/-- The scalar as a value found. -/
def Scalar.found : Scalar → Found
  | null => .null
  | bool b => .bool b
  | int n => .int n
  | float x => .float x
  | text s => .text s

namespace Ending

/-- The fault met by a reader that wants a further part. -/
def wanted : Ending → Except Fault Unit
  | broken f _ _ => .error f
  | _ => .ok ()

/-- The fault met by a reader that has all its parts. -/
def finished : Ending → Except Fault Unit
  | broken _ f _ => .error f
  | _ => .ok ()

/-- The fault met by a reader that skips. -/
def skipped : Ending → Except Fault Unit
  | broken _ _ f => .error f
  | _ => .ok ()

/-- The place after the closing bracket. -/
def place? : Ending → Option Place
  | closed p => some p
  | _ => none

end Ending

namespace Node

/-- A scalar held in memory. -/
def ofScalar (value : Scalar) : Node := .scalar value none none

/-- A list held in memory. -/
def ofList (items : List Node) : Node := .list items .json none .unmarked

/-- A map held in memory. -/
def ofEntries (entries : List Entry) : Node := .map entries .json none .unmarked

/-- The place of the first character. -/
def first? : Node → Option Place
  | scalar _ _ extent => extent.map (·.first)
  | list _ _ start _ => start
  | map _ _ start _ => start
  | guarded _ inner => inner.first?
  | broken start _ _ => some start

/-- The fault of a value that is not of the type expected. A scalar has been read by then; of a
list or map nothing has. -/
def mismatch (expected : String) : Node → Fault
  | scalar value _ extent => .here (.wrongType value.found expected) (extent.map (·.last))
  | list _ _ start _ => .here (.wrongType .list expected) start
  | map _ _ start _ => .here (.wrongType .map expected) start
  | guarded fault _ => fault
  | broken _ fault _ => fault

/-- The fault of a scalar of the right type with a value that is out of question. -/
def refusal (cause : Cause) : Node → Fault
  | scalar _ _ extent => .here cause (extent.map (·.last))
  | node => .here cause node.first?

/-- The scalar is spelled as nothing at all: an absent value. -/
def isAbsent : Node → Bool
  | scalar _ (some spelling) _ => spelling.plain && spelling.text.isEmpty
  | _ => false

/-- The scalar stands for no value. A scalar with a spelling does so only without quotes, and not
with a tag of the document's own. -/
def isNull : Node → Bool
  | scalar .null spelling _ => spelling.all fun s => s.plain && s.ownTag?.isNone
  | _ => false

mutual

/-- Goes past a value that nobody asked for. -/
def skip : Node → Except Fault Unit
  | scalar .. => .ok ()
  | list items _ _ ending => do skipItems items; ending.skipped
  | map entries _ _ ending => do skipEntries entries; ending.skipped
  | guarded _ inner => inner.skip
  | broken _ _ fault => .error fault

def skipItems : List Node → Except Fault Unit
  | [] => .ok ()
  | item :: rest => do item.skip; skipItems rest

def skipEntries : List Entry → Except Fault Unit
  | [] => .ok ()
  | .mk key value _ _ :: rest => do key.skip; value.skip; skipEntries rest

end

end Node

end NodeProvisioner
