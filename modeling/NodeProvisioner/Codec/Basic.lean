import NodeProvisioner.Json.Basic
import NodeProvisioner.StringMap
import NodeProvisioner.Yaml.Plain

/-!
# Codecs

A codec says how the values of a type stand in documents: it reads them from a document, or finds
the fault of the document, and writes them as JSON. Codecs of compound types are built from those
of their parts, so that a codec is also the description of a format.
-/

namespace NodeProvisioner

/-- How the values of a type stand in documents. -/
structure Codec (α : Type) where
  read : Node → Except Fault α
  write : α → Json

namespace Codec

variable {α : Type}

/-- Reads a value from a JSON value. -/
def ofJson (c : Codec α) (j : Json) : Except Fault α := c.read j.toNode

/-! ## Scalars -/

/-- A truth value. -/
def bool : Codec Bool where
  read
    | .scalar (.bool b) _ _ => .ok b
    | node => .error (node.mismatch "a boolean")
  write := .bool

/-- A text, described by `expected` where another value is found. A scalar with a spelling is its
spelling. -/
def textOf (expected : String) : Codec String where
  read
    | .scalar _ (some spelling) _ => .ok spelling.text
    | .scalar (.text s) none _ => .ok s
    | node => .error (node.mismatch expected)
  write := .str

/-- A text. -/
def text : Codec String := textOf "a string"

/-- The path of a file. -/
def path : Codec String := textOf "path string"

/-- A type of integers of a fixed width. -/
structure IntegerFormat (α : Type) where
  name : String
  least : Int
  greatest : Int
  ofInt : Int → α
  toInt : α → Int

/-- An integer of a fixed width. Where scalars are spelled, an integer beyond the sixty-four bits
of its kind, or with a minus sign where there is none, counts as a value of another type. -/
def integer (format : IntegerFormat α) : Codec α where
  read
    | node@(.scalar value spelling _) =>
      let found : Option Int := match spelling, value with
        | some s, _ => if s.plain then (Plain.int? s.text).filter (!foreign s ·) else none
        | none, .int n => some n
        | none, _ => none
      match found with
      | none => .error (node.mismatch format.name)
      | some n =>
        if format.least ≤ n ∧ n ≤ format.greatest then .ok (format.ofInt n)
        else .error (node.refusal (.wrongValue (.int n) format.name))
    | node => .error (node.mismatch format.name)
  write a := .int (format.toInt a)
where
  foreign (s : Spelling) (n : Int) : Bool :=
    if format.least < 0 then n < -0x8000000000000000 || 0x8000000000000000 ≤ n
    else n < 0 || 0x10000000000000000 ≤ n || s.text.startsWith "-"

def int32 : Codec Int32 :=
  integer ⟨"i32", -0x80000000, 0x7fffffff, Int32.ofInt, Int32.toInt⟩

def int64 : Codec Int64 :=
  integer ⟨"i64", -0x8000000000000000, 0x7fffffffffffffff, Int64.ofInt, Int64.toInt⟩

def uint16 : Codec UInt16 :=
  integer ⟨"u16", 0, 0xffff, fun n => UInt16.ofNat n.toNat, fun n => n.toNat⟩

def uint32 : Codec UInt32 :=
  integer ⟨"u32", 0, 0xffffffff, fun n => UInt32.ofNat n.toNat, fun n => n.toNat⟩

def uint64 : Codec UInt64 :=
  integer ⟨"u64", 0, 0xffffffffffffffff, fun n => UInt64.ofNat n.toNat, fun n => n.toNat⟩

/-- The integer as a floating-point number. -/
def floatOfInt (n : Int) : Float :=
  match n with
  | .ofNat m => Float.ofNat m
  | .negSucc m => -Float.ofNat (m + 1)

/-- A floating-point number. An integer is one too. Where scalars are spelled, the spelling
counts. -/
def float : Codec Float where
  read
    | node@(.scalar _ (some spelling) _) =>
      match spelling.plain, Plain.float? spelling.text with
      | true, some x => .ok x
      | _, _ => .error (node.mismatch "f64")
    | .scalar (.float x) none _ => .ok x
    | .scalar (.int n) none _ => .ok (floatOfInt n)
    | node => .error (node.mismatch "f64")
  write := .float

/-- Any value. -/
def any : Codec Json where
  read := Json.ofNode
  write := id

/-- One of several names. In JSON a name may also stand as the only key of a map, without a value;
in YAML, as the tag of an empty scalar. -/
def choice (variants : List (String × α)) (nameOf : α → String) : Codec α :=
  let named (node : Node) (name : String) : Except Fault α :=
    match variants.lookup name with
    | some a => .ok a
    | none => .error (node.refusal (.unknownVariant name (variants.map (·.1))))
  { read := fun node => match node with
      | .scalar _ (some spelling) _ =>
        match spelling.ownTag? with
        | none => named node spelling.text
        | some tag => do
          let a ← (named node tag).mapError fun f => { f with ofHolder := true }
          if spelling.plain && Plain.isNull spelling.text then return a
          else throw (node.refusal (.wrongValue (.text spelling.text) "null"))
      | .scalar (.text s) none _ => named node s
      | .map [.mk (.scalar (.text s) _ _) value _ _] .json _ _ => do
        let a ← named node s
        match value with
        | .scalar .null _ _ => return a
        | value => throw (value.mismatch "unit")
      | .map _ .json _ _ => .error (.here (.wrongValue .map "map with a single key"))
      | .map _ .yaml _ _ => .error (node.mismatch "a YAML tag starting with '!'")
      | .list _ .yaml _ _ => .error (node.mismatch "a YAML tag starting with '!'")
      | node => .error (node.mismatch "string or map")
    write := fun a => .str (nameOf a) }

/-! ## Lists, maps and absent values -/

/-- Reads the items of a list in order; the first fault counts. -/
def readItems (read : Node → Except Fault α) (index : Nat) : List Node → Except Fault (List α)
  | [] => .ok []
  | item :: rest => do
    let a ← (read item).mapError (·.under (.item index))
    let as ← readItems read (index + 1) rest
    return a :: as

/-- A list. -/
def list (c : Codec α) : Codec (List α) where
  read
    | .list items _ _ ending => do
      let as ← readItems c.read 0 items
      ending.wanted
      return as
    | node => if node.isAbsent then .ok [] else .error (node.mismatch "a sequence")
  write as := .arr (as.map c.write)

/-- Reads the entries of a map in order; the first fault counts. -/
def readEntries (read : Node → Except Fault α) : List Entry → Except Fault (List (String × α))
  | [] => .ok []
  | entry :: rest => do
    let key ← text.read entry.key
    let a ← (read entry.value).mapError (·.under (.member key))
    let as ← readEntries read rest
    return (key, a) :: as

/-- A map from strings; of several values of one key the last counts. -/
def dict (c : Codec α) : Codec (StringMap α) where
  read
    | .map entries _ _ ending => do
      let as ← readEntries c.read entries
      ending.wanted
      return .ofList as
    | node => if node.isAbsent then .ok .empty else .error (node.mismatch "a map")
  write m := .obj (m.entries.map fun e => (e.1, c.write e.2))

/-- A value that may be absent. -/
def optional (c : Codec α) : Codec (Option α) where
  read node := if node.isNull then .ok none else some <$> c.read node
  write
    | none => .null
    | some a => c.write a

/-- A value that has another in its place where it is absent. -/
def orElse (c : Codec α) (default : α) : Codec α where
  read
    | .scalar .null _ _ => .ok default
    | node => c.read node
  write := c.write

/-- A text in a format of its own: `parse` says what is wrong with it. -/
def formatted (expected : String) (parse : String → Except String α) (print : α → String) :
    Codec α where
  read node := do
    let s ← (textOf expected).read node
    match parse s with
    | .ok a => return a
    | .error message => throw (node.refusal (.unreadable message))
  write a := .str (print a)

end Codec

end NodeProvisioner
