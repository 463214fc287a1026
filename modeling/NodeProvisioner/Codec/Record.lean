import NodeProvisioner.Codec.Basic

/-!
# Records

A record has members, declared in an order. Each member says by which name it goes, how its value
stands in a document, and what counts when it is not there.

A reader takes the members in the order of the document and keeps each in its slot. A member that
nobody declared is skipped. The first fault counts; only when the document is at its end does the
reader ask, in the order of declaration, which members are missing.

Some records may also be given as a list, by position. The version and the kind of a resource are
its header: they come first when the record is written, and some records check them when they are
read.
-/

namespace NodeProvisioner

/-- A member of a record. -/
structure Member (α : Type) where
  name : String
  codec : Codec α
  /-- The value if no member of this name is there. -/
  absent : Option α
  /-- The value if the record is given by position and is too short. -/
  short : Option α
  /-- The values that are not written. -/
  hidden : α → Bool

namespace Member

variable {α : Type}

/-- A member that has to be there. -/
def required (name : String) (codec : Codec α) : Member α :=
  ⟨name, codec, none, none, fun _ => false⟩

/-- A member with a default. -/
def defaulted (name : String) (codec : Codec α) (default : α) : Member α :=
  ⟨name, codec, some default, some default, fun _ => false⟩

/-- A member with a default that is not written. -/
def omitted (name : String) (codec : Codec α) (default : α) (hidden : α → Bool) : Member α :=
  ⟨name, codec, some default, some default, hidden⟩

/-- A member that may be absent, and is not written then. -/
def optional (name : String) (codec : Codec α) : Member (Option α) :=
  omitted name codec.optional none Option.isNone

/-- A member that may be absent from a map but has its position in a list. -/
def keyed (name : String) (codec : Codec α) : Member (Option α) :=
  { optional name codec with short := none }

end Member

/-- The members of a record in the order of declaration. The first type is the product of the types
of their values, the second that of the slots a reader keeps for them. -/
inductive Members : Type → Type → Type 1 where
  | nil : Members Unit Unit
  | cons {α β σ : Type} (head : Member α) (tail : Members β σ) : Members (α × β) (Option α × σ)

/-- The header of a resource: each name with the text that belongs to it, and whether a reader
insists on it. -/
structure Header where
  members : List (String × String) := []
  checked : Bool := false

/-- How a record stands in a document. -/
structure RecordFormat where
  /-- The words for the record where another value is found. -/
  expected : String
  header : Header := {}
  /-- The record may be given by position. -/
  positional : Bool := true
  /-- A member that is there twice is a fault; otherwise the last one counts. -/
  once : Bool := true

namespace Members

/-- Nothing has been read. -/
def none : {τ σ : Type} → Members τ σ → σ
  | _, _, nil => ()
  | _, _, cons _ tail => (Option.none, tail.none)

/-- The number of members. -/
def size : {τ σ : Type} → Members τ σ → Nat
  | _, _, nil => 0
  | _, _, cons _ tail => tail.size + 1

/-- The names of the members. -/
def names : {τ σ : Type} → Members τ σ → List String
  | _, _, nil => []
  | _, _, cons head tail => head.name :: tail.names

/-- The member of this name has been read. -/
def isFilled : {τ σ : Type} → Members τ σ → String → σ → Bool
  | _, _, nil, _, _ => false
  | _, _, cons head tail, name, (slot, slots) =>
    if head.name = name then slot.isSome else tail.isFilled name slots

/-- Reads the member of this name into its slot: `none` if there is no such member. -/
def place : {τ σ : Type} → Members τ σ → String → Node → σ →
    Except Fault (Option σ)
  | _, _, nil, _, _, _ => .ok Option.none
  | _, _, cons head tail, name, node, (slot, slots) =>
    if head.name = name then do
      let a ← (head.codec.read node).mapError (·.under (.member name))
      return some (some a, slots)
    else do
      let slots ← tail.place name node slots
      return slots.map (slot, ·)

/-- The record of what has been read: the first member that is not there counts as missing. -/
def collect : {τ σ : Type} → Members τ σ → σ → Except Cause τ
  | _, _, nil, _ => .ok ()
  | _, _, cons head tail, (slot, slots) =>
    match slot <|> head.absent with
    | Option.none => .error (.missing head.name)
    | some a => do
      let as ← tail.collect slots
      return (a, as)

/-- Reads the members by position; `index` counts those before. The rest of the items is left over
when all members have been read. -/
def readItems (tooShort : Nat → Fault) (ending : Ending) : {τ σ : Type} → Members τ σ → Nat →
    List Node → Except Fault (τ × List Node)
  | _, _, nil, _, items => .ok ((), items)
  | _, _, cons head tail, index, item :: items => do
    let a ← (head.codec.read item).mapError (·.under (.item index))
    let (as, rest) ← tail.readItems tooShort ending (index + 1) items
    return ((a, as), rest)
  | _, _, cons head tail, index, [] => do
    ending.wanted
    match head.short with
    | Option.none => throw (tooShort index)
    | some a =>
      let (as, rest) ← tail.readItems tooShort ending (index + 1) []
      return ((a, as), rest)

/-- The members that are written, in the order of declaration. -/
def write : {τ σ : Type} → Members τ σ → τ → List (String × Json)
  | _, _, nil, () => []
  | _, _, cons head tail, (a, as) =>
    if head.hidden a then tail.write as
    else (head.name, head.codec.write a) :: tail.write as

end Members

namespace Codec

variable {α τ σ : Type}

/-- The name of a member: any scalar by its spelling. -/
def memberName : Node → Except Fault String := (textOf "field identifier").read

/-- Reads a member of the header. -/
def readHeader (entry : Entry) (expected : String) : Except Fault Unit := do
  let found ← text.read entry.value
  if found ≠ expected then throw (.here (.wrongValue (.text found) expected) entry.afterValue)

/-- Reads the entries of a map into the slots of the members. -/
def readMembers (format : RecordFormat) (ms : Members τ σ) :
    List Entry → σ → Except Fault σ
  | [], slots => .ok slots
  | entry :: rest, slots => do
    let name ← memberName entry.key
    if format.once && ms.isFilled name slots then
      throw (.here (.repeated name) entry.afterKey)
    let checked := if format.header.checked then format.header.members.lookup name else none
    match checked with
    | some expected =>
      readHeader entry expected
      readMembers format ms rest slots
    | none =>
      match ← ms.place name entry.value slots with
      | some slots => readMembers format ms rest slots
      | none =>
        entry.value.skip
        readMembers format ms rest slots

/-- Reads a record from the entries of a map. -/
def readMap (format : RecordFormat) (ms : Members τ σ) (entries : List Entry) (ending : Ending) :
    Except Fault τ := do
  let slots ← readMembers format ms entries ms.none
  ending.wanted
  match ms.collect slots with
  | .ok as => return as
  | .error cause => throw (.here cause ending.place?)

/-- The fault of a list with more items than the record has members: a text has gone on where it
should have ended. -/
def tooLong (count : Nat) (next : Node) : Fault :=
  match next.first? with
  | some p => Breach.more.fault ⟨p.line, p.column + 1⟩
  | none => .here (.wrongLength count "fewer elements in array")

/-- Reads a record by position. -/
def readPositions (format : RecordFormat) (ms : Members τ σ) (items : List Node) (ending : Ending) :
    Except Fault τ := do
  let tooShort (index : Nat) : Fault :=
    .here (.wrongLength index s!"{format.expected} with {ms.size} elements") ending.place?
  let (as, rest) ← ms.readItems tooShort ending 0 items
  match rest with
  | [] =>
    ending.finished
    return as
  | next :: _ => throw (tooLong items.length next)

/-- A record with the members given, the values of which make up a value of the record's type. -/
def record (format : RecordFormat) (ms : Members τ σ) (make : τ → α) (split : α → τ) : Codec α where
  read
    | .map entries _ _ ending => make <$> readMap format ms entries ending
    | node@(.list items language _ ending) =>
      if language = .json ∧ format.positional then make <$> readPositions format ms items ending
      else .error (node.mismatch format.expected)
    | node =>
      if node.isAbsent then make <$> readMap format ms [] .unmarked
      else .error (node.mismatch format.expected)
  write a :=
    .obj (format.header.members.map (fun m => (m.1, Json.str m.2)) ++ ms.write (split a))

end Codec

end NodeProvisioner
