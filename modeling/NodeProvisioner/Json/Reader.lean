import NodeProvisioner.Json.Basic
import NodeProvisioner.Json.Lexeme

/-!
# Reading JSON texts

The lexemes of a text build a document one by one. What is open is kept as a list of frames, the
innermost first, and the phase says what may come next. A lexeme that may not come next breaks the
document off: every open list and map is closed at that point and holds what it has so far.

Only so many lists and maps may be open at once; deeper ones are built all the same, guarded
against a reader that wants them.
-/

namespace NodeProvisioner.Json

/-- How many lists and maps may be open at once. -/
def depthLimit : Nat := 127

/-- A list or a map that is still open, with its parts in reverse order. -/
inductive Frame where
  | list (first : Place) (guard : Option Fault) (items : List Node)
  | map (first : Place) (guard : Option Fault) (entries : List Entry) (key : Option Node)
      (afterKey : Option Place)

/-- What may come next. -/
inductive Phase where
  | value
  | firstItem
  | laterItem
  | afterItem
  | firstKey
  | laterKey
  | afterKey
  | afterMember
deriving DecidableEq, Repr

/-- A document under construction, or one that is complete: the tree, and the fault of a reader
that has read all of it and asks for the end of the text. -/
inductive Building where
  | going (frames : List Frame) (phase : Phase)
  | complete (root : Node)
  | settled (root : Node) (rest : Option Fault)

namespace Frame

/-- The list or map as a document. -/
def close (frame : Frame) (ending : Ending) : Node :=
  let node := match frame with
    | list first _ items => Node.list items.reverse .json (some first) ending
    | map first _ entries _ _ => Node.map entries.reverse .json (some first) ending
  match frame with
  | list _ (some fault) _ => .guarded fault node
  | map _ (some fault) _ _ _ => .guarded fault node
  | _ => node

/-- Puts a part into the list or map. -/
def put (node : Node) (reached : Place) : Frame → Frame
  | list first guard items => list first guard (node :: items)
  | map first guard entries (some key) afterKey =>
    map first guard (.mk key node afterKey (some reached) :: entries) none none
  | map first guard entries none afterKey => map first guard entries none afterKey

/-- What may come after a part of the list or map. -/
def following : Frame → Phase
  | list .. => .afterItem
  | map .. => .afterMember

end Frame

namespace Building

/-- The place that a fault names which has looked at the lexeme without taking it. -/
def peeked (l : Lexeme) : Place :=
  match l.kind with
  | .finish => l.first
  | _ => ⟨l.first.line, l.first.column + 1⟩

/-- Breaks off: the innermost frame ends with the faults given, and lies broken in the others. -/
def breakOff (wanted finished skipped : Fault) : List Frame → Building
  | [] => .settled (.broken .start wanted skipped) none
  | frame :: frames =>
    let ending := Ending.broken wanted finished skipped
    .settled (frames.foldl (fun node outer => (outer.put node .start).close ending)
      (frame.close ending)) none

/-- Breaks off with the same fault for every reader. -/
def fail (rule : Breach) (l : Lexeme) (frames : List Frame) : Building :=
  let fault := rule.fault (peeked l)
  breakOff fault fault fault frames

/-- Breaks off within a value. -/
def failValue (first : Place) (wanted skipped : Fault) : List Frame → Building
  | [] => .settled (.broken first wanted skipped) none
  | frame :: frames =>
    breakOff wanted wanted skipped (frame.put (.broken first wanted skipped) first :: frames)

/-- A value is complete. -/
def complete? (node : Node) (reached : Place) : List Frame → Building
  | [] => .complete node
  | frame :: frames => .going (frame.put node reached :: frames) frame.following

/-- Takes the innermost frame off as a value. -/
def shut (l : Lexeme) : List Frame → Building
  | [] => fail .noValue l []
  | frame :: frames => complete? (frame.close (.closed l.last)) l.settled frames

/-- A list or map that is opened too deep cannot be read. -/
def guard? (l : Lexeme) (frames : List Frame) : Option Fault :=
  if frames.length < depthLimit then none else some (Breach.depth.fault (peeked l))

/-- The scalar of a lexeme as a document. -/
def leaf (l : Lexeme) (value : Scalar) (objection : Option Fault) : Node :=
  let node := Node.scalar value none (some ⟨l.first, l.last⟩)
  match objection with
  | none => node
  | some fault => .guarded fault node

/-- A lexeme where a value may start. -/
def startValue (l : Lexeme) (frames : List Frame) : Building :=
  match l.kind with
  | .openList => .going (.list l.first (guard? l frames) [] :: frames) .firstItem
  | .openMap => .going (.map l.first (guard? l frames) [] none none :: frames) .firstKey
  | .scalar value objection => complete? (leaf l value objection) l.settled frames
  | .broken _ wanted skipped => failValue l.first wanted skipped frames
  | .finish =>
    let fault := Breach.endInValue.fault (peeked l)
    failValue l.first fault fault frames
  | _ =>
    let fault := Breach.noValue.fault (peeked l)
    failValue l.first fault fault frames

/-- Notes the key of the next member. -/
def noteKey (l : Lexeme) (key : Node) : List Frame → List Frame
  | .map first guard entries _ _ :: frames =>
    .map first guard entries (some key) (some l.settled) :: frames
  | frames => frames

/-- A lexeme where a key may stand. -/
def startKey (l : Lexeme) (frames : List Frame) (otherwise : Building) : Building :=
  match l.kind with
  | .scalar (.text s) objection => .going (noteKey l (leaf l (.text s) objection) frames) .afterKey
  | .broken true wanted skipped => breakOff wanted wanted skipped frames
  | _ => otherwise

/-- The next lexeme. -/
def step : Building → Lexeme → Building
  | settled root rest, _ => settled root rest
  | complete root, l =>
    match l.kind with
    | .finish => .settled root none
    | _ => .settled root (some (Breach.more.fault (peeked l)))
  | going frames phase, l =>
    match phase, l.kind with
    | .value, _ => startValue l frames
    | .firstItem, .closeList => shut l frames
    | .firstItem, .finish => fail .endInList l frames
    | .firstItem, _ => startValue l frames
    | .laterItem, .closeList =>
      breakOff (Breach.commaBeforeEnd.fault (peeked l)) (Breach.commaBeforeEnd.fault (peeked l))
        (Breach.noValue.fault (peeked l)) frames
    | .laterItem, .finish =>
      breakOff (Breach.endInValue.fault (peeked l)) (Breach.more.fault (peeked l))
        (Breach.endInValue.fault (peeked l)) frames
    | .laterItem, _ => startValue l frames
    | .afterItem, .comma => going frames .laterItem
    | .afterItem, .closeList => shut l frames
    | .afterItem, .finish => fail .endInList l frames
    | .afterItem, _ =>
      breakOff (Breach.noListEnd.fault (peeked l)) (Breach.more.fault (peeked l))
        (Breach.noListEnd.fault (peeked l)) frames
    | .firstKey, .closeMap => shut l frames
    | .firstKey, .finish => fail .endInMap l frames
    | .firstKey, _ => startKey l frames (fail .keyNotText l frames)
    | .laterKey, .closeMap =>
      breakOff (Breach.commaBeforeEnd.fault (peeked l)) (Breach.commaBeforeEnd.fault (peeked l))
        (Breach.keyNotText.fault (peeked l)) frames
    | .laterKey, .finish =>
      breakOff (Breach.endInValue.fault (peeked l)) (Breach.endInValue.fault (peeked l))
        (Breach.endInMap.fault (peeked l)) frames
    | .laterKey, _ => startKey l frames (fail .keyNotText l frames)
    | .afterKey, .colon => going frames .value
    | .afterKey, .finish =>
      let fault := Breach.endInMap.fault (peeked l)
      failValue l.first fault fault frames
    | .afterKey, _ =>
      let fault := Breach.noColon.fault (peeked l)
      failValue l.first fault fault frames
    | .afterMember, .comma => going frames .laterKey
    | .afterMember, .closeMap => shut l frames
    | .afterMember, .finish => fail .endInMap l frames
    | .afterMember, _ => fail .noMapEnd l frames

/-- What has been built, should there be no further lexeme. -/
def result : Building → Node × Option Fault
  | settled root rest => (root, rest)
  | complete root => (root, none)
  | going _ _ => (.broken .start (Breach.endInValue.fault .start) (Breach.endInValue.fault .start), none)

end Building

/-- The document of a text, and the fault of a reader that has read all of it and asks for the end
of the text. -/
def document (s : String) : Node × Option Fault :=
  ((lexemes s).foldl Building.step (.going [] .value)).result

/-- Reads a whole text: first the document, then its end. -/
def readDocument {α : Type} (read : Node → Except Fault α) (s : String) : Except Fault α := do
  let (root, rest) := document s
  let value ← read root
  match rest with
  | none => return value
  | some fault => throw fault

/-- The value of a JSON text. -/
def parse (s : String) : Except Fault Json := readDocument ofNode s

end NodeProvisioner.Json
