import NodeProvisioner.Codec.Basic
import NodeProvisioner.Yaml.Lexer

/-!
# Reading YAML texts

The tokens of a text make up one document. A node may be given a name by an anchor, and stand
again wherever an alias has that name.

Codecs are lenient: they skip what nobody asked for, and take a scalar for a text whatever it looks
like. A strict reader also refuses maps with a repeated key, integers beyond sixty-four bits,
scalars that are not of the type their tag declares, and nesting beyond a limit. Where a codec
finds a fault in a document that a strict reader refuses, the document can count as malformed.
-/

namespace NodeProvisioner.Yaml

/-- Why a text cannot be read. -/
inductive ReadError where
  | malformed
  | fault (f : Fault)
deriving Inhabited, Repr

/-- The error in words. -/
def ReadError.message : ReadError → String
  | malformed => "<malformed>"
  | fault f => f.yamlMessage

/-! ## Nodes -/

/-- The tokens that are left, and the nodes named so far. -/
structure Reading where
  tokens : List Token
  anchors : List (String × Node) := []
  handles : List (String × String) := []

/-- A reader of tokens. -/
abbrev ReadM := StateT Reading Option

/-- The next token. -/
def peek : ReadM (Option Token) := fun s => some (s.tokens.head?, s)

/-- Goes past the next token. -/
def drop : ReadM Unit := fun s => some ((), { s with tokens := s.tokens.drop 1 })

/-- Goes past a token that has to come next. -/
def expect (t : Token) : ReadM Unit := do
  if (← peek) = some t then drop else failure

/-- The next token is one of these. -/
def sees (ts : List Token) : ReadM Bool := do
  match ← peek with
  | some t => return ts.contains t
  | none => return false

/-- What stands before a node: its anchor and its tag. -/
structure Properties where
  anchor : Option String := none
  tag : Option String := none
deriving Inhabited

/-- The tag behind a handle. -/
def expandTag (handle suffix : String) : ReadM String := fun s =>
  if handle.isEmpty then some (suffix, s)
  else (s.handles.lookup handle).map fun start => (start ++ suffix, s)

/-- Reads anchor and tag, each at most once and in either order. -/
def properties : Nat → Properties → ReadM Properties
  | 0, p => return p
  | fuel + 1, p => do
    match ← peek with
    | some (.anchor name) =>
      if p.anchor.isSome then return p
      else
        drop
        properties fuel { p with anchor := some name }
    | some (.tag handle suffix) =>
      if p.tag.isSome then return p
      else
        drop
        let tag ← expandTag handle suffix
        properties fuel { p with tag := some tag }
    | _ => return p

/-- A scalar. A lone exclamation mark is no tag of a scalar. -/
def scalarNode (text : String) (style : Style) (tag : Option String) : Node :=
  let tag := tag.filter (· ≠ "!")
  let plain : Bool := style = .plain
  let value : Scalar := match tag with
    | some tag => Plain.resolveTagged text plain tag
    | none => if plain then Plain.resolve text else .text text
  .scalar value (some { text, plain, tag }) none

/-- A scalar that is not there. -/
def emptyNode : Node := scalarNode "" .plain none

/-- Gives a node its name. -/
def name (anchor : Option String) (node : Node) : ReadM Node := fun s =>
  match anchor with
  | none => some (node, s)
  | some a => some (node, { s with anchors := (a, node) :: s.anchors })

/-- The node of a name. -/
def named (anchor : String) : ReadM Node := fun s =>
  (s.anchors.lookup anchor).map (·, s)

def listNode (items : List Node) : Node := .list items .yaml none .unmarked

def mapNode (entries : List (Node × Node)) : Node :=
  .map (entries.map fun e => .mk e.1 e.2 none none) .yaml none .unmarked

mutual

/-- Reads a node. In block form collections may start; where `dashes` is set, a list may start
that is not indented any further. -/
def node (fuel : Nat) (inBlock dashes : Bool) : ReadM Node :=
  match fuel with
  | 0 => failure
  | fuel + 1 => do
    match ← peek with
    | some (.alias a) =>
      drop
      named a
    | _ => do
      let p ← properties 3 {}
      let result ← match ← peek with
        | some (.scalar text style) => do
          drop
          pure (scalarNode text style p.tag)
        | some .flowList => do
          drop
          listNode <$> flowItems fuel true
        | some .flowMap => do
          drop
          mapNode <$> flowEntries fuel true
        | some .blockList => do
          if inBlock then
            drop
            let items ← blockItems fuel
            expect .blockEnd
            pure (listNode items)
          else failure
        | some .blockMap => do
          if inBlock then
            drop
            let entries ← blockEntries fuel
            expect .blockEnd
            pure (mapNode entries)
          else failure
        | some .blockEntry => do
          if dashes then listNode <$> dashedItems fuel
          else if p.anchor.isSome || p.tag.isSome then pure (scalarNode "" .plain p.tag)
          else failure
        | _ => do
          if p.anchor.isSome || p.tag.isSome then pure (scalarNode "" .plain p.tag) else failure
      name p.anchor result

/-- Reads a node unless one of these tokens comes next. -/
def nodeUnless (fuel : Nat) (ends : List Token) (inBlock dashes : Bool) : ReadM Node :=
  match fuel with
  | 0 => failure
  | fuel + 1 => do
    if ← sees ends then return emptyNode else node fuel inBlock dashes

/-- Reads the items of an indented list. -/
def blockItems (fuel : Nat) : ReadM (List Node) :=
  match fuel with
  | 0 => failure
  | fuel + 1 => do
    if ← sees [.blockEntry] then
      drop
      let item ← nodeUnless fuel [.blockEntry, .blockEnd] true false
      let rest ← blockItems fuel
      return item :: rest
    else return []

/-- Reads the items of a list at the column of the map it is a value of. -/
def dashedItems (fuel : Nat) : ReadM (List Node) :=
  match fuel with
  | 0 => failure
  | fuel + 1 => do
    if ← sees [.blockEntry] then
      drop
      let item ← nodeUnless fuel [.blockEntry, .key, .value, .blockEnd] true false
      let rest ← dashedItems fuel
      return item :: rest
    else return []

/-- Reads the entries of a map in block form. -/
def blockEntries (fuel : Nat) : ReadM (List (Node × Node)) :=
  match fuel with
  | 0 => failure
  | fuel + 1 => do
    if ← sees [.key] then
      drop
      let key ← nodeUnless fuel [.key, .value, .blockEnd] true true
      let value ← blockValue fuel
      let rest ← blockEntries fuel
      return (key, value) :: rest
    else if ← sees [.value] then
      let value ← blockValue fuel
      let rest ← blockEntries fuel
      return (emptyNode, value) :: rest
    else return []

/-- Reads the value of an entry in block form. -/
def blockValue (fuel : Nat) : ReadM Node :=
  match fuel with
  | 0 => failure
  | fuel + 1 => do
    if ← sees [.value] then
      drop
      nodeUnless fuel [.key, .value, .blockEnd] true true
    else return emptyNode

/-- Reads the items of a list in brackets, with its end. An item may be a map of one entry without
brackets of its own. -/
def flowItems (fuel : Nat) (isFirst : Bool) : ReadM (List Node) :=
  match fuel with
  | 0 => failure
  | fuel + 1 => do
    if ← sees [.flowListEnd] then
      drop
      return []
    else do
      if !isFirst then expect .flowEntry
      if ← sees [.flowListEnd] then
        drop
        return []
      else do
        let item ←
          if ← sees [.key] then do
            drop
            let key ←
              if ← sees [.value, .flowEntry, .flowListEnd] then do
                drop
                pure emptyNode
              else node fuel false false
            let value ←
              if ← sees [.value] then do
                drop
                nodeUnless fuel [.flowEntry, .flowListEnd] false false
              else pure emptyNode
            pure (mapNode [(key, value)])
          else node fuel false false
        let rest ← flowItems fuel false
        return item :: rest

/-- Reads the entries of a map in brackets, with its end. -/
def flowEntries (fuel : Nat) (isFirst : Bool) : ReadM (List (Node × Node)) :=
  match fuel with
  | 0 => failure
  | fuel + 1 => do
    if ← sees [.flowMapEnd] then
      drop
      return []
    else do
      if !isFirst then expect .flowEntry
      if ← sees [.flowMapEnd] then
        drop
        return []
      else do
        let entry ←
          if ← sees [.key] then do
            drop
            let key ← nodeUnless fuel [.value, .flowEntry, .flowMapEnd] false false
            let value ←
              if ← sees [.value] then do
                drop
                nodeUnless fuel [.flowEntry, .flowMapEnd] false false
              else pure emptyNode
            pure (key, value)
          else do
            let key ← node fuel false false
            pure (key, emptyNode)
        let rest ← flowEntries fuel false
        return entry :: rest

end

/-! ## Documents -/

/-- The abbreviations for tags that every document has. -/
def defaultHandles : List (String × String) := [("!", "!"), ("!!", "tag:yaml.org,2002:")]

/-- Reads the directives before a document: at most one version, which has to be 1.1 or 1.2, and
abbreviations with a handle each. -/
def directives : Nat → Bool → List (String × String) → ReadM Bool
  | 0, _, _ => failure
  | fuel + 1, versioned, handles => do
    match ← peek with
    | some (.version major minor) =>
      if versioned || major ≠ 1 || !(minor = 1 || minor = 2) then failure
      else
        drop
        directives fuel true handles
    | some (.tagHandle handle tag) =>
      if (handles.lookup handle).isSome then failure
      else
        drop
        directives fuel versioned ((handle, tag) :: handles)
    | _ => fun s => some (versioned || !handles.isEmpty, { s with handles := handles ++ defaultHandles })

/-- Goes past marks of the end of a document. -/
def skipEnds : Nat → ReadM Unit
  | 0 => return ()
  | fuel + 1 => do
    if ← sees [.documentEnd] then
      drop
      skipEnds fuel

/-- Reads the only document of a stream. -/
def stream (fuel : Nat) : ReadM Node := do
  if ← sees [.streamEnd] then return emptyNode
  else do
    let directed ← directives fuel false []
    let marked ← sees [.documentStart]
    if marked then drop
    if directed && !marked then failure
    let root ←
      if marked then
        match ← peek with
        | some (.version _ _) => pure emptyNode
        | some (.tagHandle _ _) => pure emptyNode
        | _ => nodeUnless fuel [.documentStart, .documentEnd, .streamEnd] true false
      else node fuel true false
    skipEnds fuel
    if ← sees [.streamEnd] then return root else failure

/-- The document of a text. -/
def document? (text : String) : Option Node := do
  let tokens ← tokens? text
  let (root, _) ← (stream (4 * tokens.length + 4)).run { tokens }
  return root

/-! ## Strictness -/

/-- How deep a strict reader goes. -/
def depthLimit : Nat := 128

/-- Two scalars stand for the same value. -/
def sameScalar : Scalar → Scalar → Bool
  | .null, .null => true
  | .bool a, .bool b => a == b
  | .int m, .int n => m == n
  | .float x, .float y => x == y || (x.isNaN && y.isNaN)
  | .text s, .text t => s == t
  | _, _ => false

mutual

/-- Two documents stand for the same value. -/
def same : Node → Node → Bool
  | .scalar a p _, .scalar b q _ => sameScalar a b && p.bind (·.ownTag?) == q.bind (·.ownTag?)
  | .list as _ _ _, .list bs _ _ _ => sameItems as bs
  | .map as _ _ _, .map bs _ _ _ => sameEntries as bs
  | _, _ => false

def sameItems : List Node → List Node → Bool
  | [], [] => true
  | a :: as, b :: bs => same a b && sameItems as bs
  | _, _ => false

def sameEntries : List Entry → List Entry → Bool
  | [], [] => true
  | .mk k v _ _ :: as, .mk l w _ _ :: bs => same k l && same v w && sameEntries as bs
  | _, _ => false

end

/-- No two keys stand for the same value. -/
def distinctKeys : List Entry → Bool
  | [] => true
  | entry :: rest => rest.all (fun other => !same entry.key other.key) && distinctKeys rest

mutual

/-- A strict reader accepts the document, `depth` levels of which are left. -/
def isStrict (depth : Nat) : Node → Bool
  | .scalar value spelling _ => spelling.all Plain.keepsType && match value with
    | .int n => -0x8000000000000000 ≤ n && n < 0x10000000000000000
    | _ => true
  | .list items _ _ _ => depth ≠ 0 && strictItems (depth - 1) items
  | .map entries _ _ _ => depth ≠ 0 && distinctKeys entries && strictEntries (depth - 1) entries
  | _ => true

def strictItems (depth : Nat) : List Node → Bool
  | [] => true
  | item :: rest => isStrict depth item && strictItems depth rest

def strictEntries (depth : Nat) : List Entry → Bool
  | [] => true
  | .mk key value _ _ :: rest =>
    isStrict depth key && isStrict depth value && strictEntries depth rest

end

/-- Reads a value from a text. With `strict` set, a fault found in a document that a strict reader
refuses makes the document malformed. -/
def read {α : Type} (codec : Codec α) (text : String) (strict : Bool := false) :
    Except ReadError α :=
  match document? text with
  | none => .error .malformed
  | some root =>
    match codec.read root with
    | .ok a => .ok a
    | .error f => .error (if strict && !isStrict depthLimit root then .malformed else .fault f)

end NodeProvisioner.Yaml
