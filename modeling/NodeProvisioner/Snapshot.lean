import NodeProvisioner.Error
import NodeProvisioner.Json.Printer
import NodeProvisioner.Json.Reader
import NodeProvisioner.Resource.Machine

/-!
# Snapshots

What was last observed of a machine is kept on the machine itself: as the text of a whole machine
under one of its annotations. The machine inside has this annotation too, but empty, so that
snapshots never nest.
-/

namespace NodeProvisioner

/-- The annotation that holds a snapshot. -/
def snapshotKey : String := "instance-status"

namespace Snapshot

/-- What the header of a snapshot has to say, where it says anything. -/
def header : List (String × String) := [("apiVersion", apiVersion), ("kind", "Machine")]

/-- A value within a sentence: its compact text. -/
def shown (j : Json) : String := j.print

/-- Checks one member of the header. A member that is not there is added. -/
def checkMember (members : List (String × Json)) (name expected : String) :
    Except String (List (String × Json)) :=
  match members.lookup name with
  | none => .ok (Json.insertMember name (.str expected) members)
  | some found =>
    match found with
    | .str s => if s = expected then .ok members
      else .error s!"expected {name} {expected}, found {shown found}"
    | _ => .error s!"expected {name} {expected}, found {shown found}"

/-- Reads a snapshot from its text. -/
def decode (text : String) : Except String Machine := do
  let value ← (Json.parse text).mapError Fault.jsonMessage
  match value with
  | .obj members =>
    let members ← header.foldlM (fun ms h => checkMember ms h.1 h.2) members
    (Codec.machine.ofJson (.obj members)).mapError Fault.jsonMessage
  | _ => throw "instance status is not a JSON object"

/-- The text of a snapshot of a machine. -/
def encode (m : Machine) : String :=
  (Codec.machine.write { m with metadata := m.metadata.annotate snapshotKey "" }).print

end Snapshot

namespace Machine

/-- The snapshot that the machine carries, if it carries one. -/
def snapshot? (m : Machine) : Except Error (Option Machine) :=
  match m.metadata.annotation? snapshotKey with
  | none => .ok none
  | some text =>
    if text.isEmpty then .ok none
    else match Snapshot.decode text with
      | .ok snapshot => .ok (some snapshot)
      | .error message => .error (.decode m.identity message)

/-- The machine with a snapshot of `observed`. -/
def withSnapshot (m observed : Machine) : Machine :=
  { m with metadata := m.metadata.annotate snapshotKey (Snapshot.encode observed) }

end Machine

end NodeProvisioner
