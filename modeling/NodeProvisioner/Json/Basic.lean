import NodeProvisioner.Document.Node

/-!
# JSON values

An object holds its members in order. Objects read from a text are sorted by name, each name once;
objects written for a record keep the order in which the record declares its members.

Integers and floating-point numbers are kept apart: `1` and `1.0` are different values.
-/

namespace NodeProvisioner

/-- A JSON value. -/
inductive Json where
  | null
  | bool (b : Bool)
  | int (n : Int)
  | float (x : Float)
  | str (s : String)
  | arr (items : List Json)
  | obj (members : List (String × Json))
deriving Inhabited, Repr

namespace Json

mutual

/-- Equality of values. Floating-point numbers compare as numbers, so that `NaN` differs from
itself. -/
def beq : Json → Json → Bool
  | null, null => true
  | bool a, bool b => a == b
  | int m, int n => m == n
  | float x, float y => x == y
  | str s, str t => s == t
  | arr xs, arr ys => beqItems xs ys
  | obj xs, obj ys => beqMembers xs ys
  | _, _ => false

def beqItems : List Json → List Json → Bool
  | [], [] => true
  | x :: xs, y :: ys => x.beq y && beqItems xs ys
  | _, _ => false

def beqMembers : List (String × Json) → List (String × Json) → Bool
  | [], [] => true
  | (k, x) :: xs, (l, y) :: ys => k == l && x.beq y && beqMembers xs ys
  | _, _ => false

end

instance : BEq Json := ⟨beq⟩

/-- The member of an object. -/
def member? (name : String) : Json → Option Json
  | obj members => members.lookup name
  | _ => none

/-- The member of an object, `null` if there is none. -/
def member (j : Json) (name : String) : Json := (j.member? name).getD null

/-- Puts a member into a list sorted by name, in the place of one of the same name. -/
def insertMember (name : String) (value : Json) : List (String × Json) → List (String × Json)
  | [] => [(name, value)]
  | (k, v) :: rest =>
    if name < k then (name, value) :: (k, v) :: rest
    else if name = k then (name, value) :: rest
    else (k, v) :: insertMember name value rest

/-- The members sorted by name; of several of one name the last counts. -/
def sortMembers (members : List (String × Json)) : List (String × Json) :=
  members.foldl (fun sorted m => insertMember m.1 m.2 sorted) []

mutual

/-- The value with the members of all its objects sorted. -/
def canonical : Json → Json
  | arr items => arr (canonicalItems items)
  | obj members => obj (sortMembers (canonicalMembers members))
  | j => j

def canonicalItems : List Json → List Json
  | [] => []
  | j :: rest => j.canonical :: canonicalItems rest

def canonicalMembers : List (String × Json) → List (String × Json)
  | [] => []
  | (k, j) :: rest => (k, j.canonical) :: canonicalMembers rest

end

mutual

/-- The value as a document. -/
def toNode : Json → Node
  | null => .ofScalar .null
  | bool b => .ofScalar (.bool b)
  | int n => .ofScalar (.int n)
  | float x => .ofScalar (.float x)
  | str s => .ofScalar (.text s)
  | arr items => .ofList (itemNodes items)
  | obj members => .ofEntries (memberEntries members)

def itemNodes : List Json → List Node
  | [] => []
  | j :: rest => j.toNode :: itemNodes rest

def memberEntries : List (String × Json) → List Entry
  | [] => []
  | (k, j) :: rest => .mk (.ofScalar (.text k)) j.toNode none none :: memberEntries rest

end

/-- The scalar as a value. -/
def ofScalar : Scalar → Json
  | .null => null
  | .bool b => bool b
  | .int n => int n
  | .float x => float x
  | .text s => str s

mutual

/-- The document as a value: any document has one, unless its text breaks off. -/
def ofNode : Node → Except Fault Json
  | .scalar value _ _ => .ok (ofScalar value)
  | .list items _ _ ending => do
    let values ← ofNodes items
    ending.wanted
    return arr values
  | .map entries _ _ ending => do
    let members ← ofEntries entries
    ending.wanted
    return obj (sortMembers members)
  | .guarded fault _ => .error fault
  | .broken _ fault _ => .error fault

def ofNodes : List Node → Except Fault (List Json)
  | [] => .ok []
  | item :: rest => do
    let j ← ofNode item
    let js ← ofNodes rest
    return j :: js

def ofEntries : List Entry → Except Fault (List (String × Json))
  | [] => .ok []
  | .mk key value _ _ :: rest => do
    let name ← keyText key
    let j ← ofNode value
    let js ← ofEntries rest
    return (name, j) :: js

/-- The text of a key. -/
def keyText : Node → Except Fault String
  | .scalar (.text s) _ _ => .ok s
  | node => .error (node.mismatch "a string key")

end

end Json

end NodeProvisioner
