import NodeProvisioner.Proofs.Snapshots

/-!
# Snapshots do not nest

A snapshot is the text of a machine that has the annotation for snapshots itself. If a machine that
carries a snapshot is written into another one, this annotation is emptied first. So what was written
before leaves no trace: the text of a snapshot is that of any machine that is the same but for this
annotation (`SameButSnapshot.encode_eq`), and a write leaves all but this annotation as it was.

Main statement: `writeSnapshots_flat`, on what any number of writes leaves.
-/

namespace NodeProvisioner

namespace Machine

open Snapshot

/-- The machines are the same but for the annotation for snapshots. A machine without annotations
counts as one with none of them. -/
structure SameButSnapshot (m n : Machine) : Prop where
  spec : n.spec = m.spec
  status : n.status = m.status
  metadata : { n.metadata with annotations := m.metadata.annotations } = m.metadata
  annotations : ∀ key, key ≠ snapshotKey →
    n.metadata.annotation? key = m.metadata.annotation? key

namespace SameButSnapshot

variable {m n l : Machine}

theorem refl (m : Machine) : m.SameButSnapshot m := ⟨rfl, rfl, rfl, fun _ _ => rfl⟩

theorem trans (h : m.SameButSnapshot n) (h' : n.SameButSnapshot l) : m.SameButSnapshot l := by
  refine ⟨h'.spec.trans h.spec, h'.status.trans h.status, ?_,
    fun key ne => (h'.annotations key ne).trans (h.annotations key ne)⟩
  rw [← h.metadata, ← h'.metadata]

theorem annotate (m : Machine) (text : String) :
    m.SameButSnapshot { m with metadata := m.metadata.annotate snapshotKey text } := by
  refine ⟨rfl, rfl, rfl, fun key ne => ?_⟩
  rw [ObjectMeta.annotation?_annotate, if_neg ne]

/-- **A write of a snapshot leaves all else as it was.** -/
theorem withSnapshot (m observed : Machine) : m.SameButSnapshot (m.withSnapshot observed) :=
  annotate m (encode observed)

theorem blanked (m : Machine) : m.SameButSnapshot m.blanked := annotate m ""

/-- What is written under the annotation makes up for the difference. -/
theorem annotate_eq (h : m.SameButSnapshot n) (text : String) :
    { n with metadata := n.metadata.annotate snapshotKey text }
      = { m with metadata := m.metadata.annotate snapshotKey text } := by
  have same : (n.metadata.annotations.getD .empty).insert snapshotKey text
      = (m.metadata.annotations.getD .empty).insert snapshotKey text := by
    refine StringMap.ext_get? fun key => ?_
    rw [StringMap.get?_insert, StringMap.get?_insert]
    split
    · rfl
    · rename_i ne
      rw [← ObjectMeta.annotation?_eq, ← ObjectMeta.annotation?_eq, h.annotations key ne]
  have metadata : n.metadata.annotate snapshotKey text = m.metadata.annotate snapshotKey text := by
    rw [ObjectMeta.annotate, ObjectMeta.annotate, same, ← h.metadata]
  rw [metadata, h.spec, h.status]

/-- **The text of a snapshot does not depend on the snapshot that the machine carries itself.** -/
theorem encode_eq (h : m.SameButSnapshot n) : encode n = encode m :=
  congrArg (fun machine => (Codec.machine.write machine).print) (h.annotate_eq "")

end SameButSnapshot

/-! ## What is shown of the annotations -/

/-- Annotations come back from a snapshot. -/
theorem annotations_of_decode {m current : Machine} (h : decode (encode m) = .ok current) :
    current.metadata.annotations = m.blanked.metadata.annotations := by
  obtain ⟨⟨metadata, spec, status⟩, ⟨returned, _⟩, rfl⟩ :=
    (returns_of_decode h).record rfl (by decide)
  obtain ⟨⟨annotations, _⟩, ⟨first, _⟩, rfl⟩ :=
    Codec.Returns.record ((if_neg Bool.false_ne_true).mp returned) rfl (by decide)
  have kept : (Codec.dict Codec.text).optional.Returns m.blanked.metadata.annotations annotations :=
    first
  obtain ⟨_, alike⟩ | ⟨map, rfl, same⟩ := Codec.Returns.some kept
  · exact absurd alike nofun
  · exact congrArg some (same.carried (Codec.carries_textMap 0 _))

/-- What a snapshot shows carries no snapshot itself. -/
theorem annotation?_of_decode {m current : Machine} (h : decode (encode m) = .ok current) :
    current.metadata.annotation? snapshotKey = some "" := by
  rw [ObjectMeta.annotation?, annotations_of_decode h]
  exact (ObjectMeta.annotation?_annotate m.metadata _ _ _).trans (if_pos rfl)

/-- The document of a snapshot has the annotation for snapshots, and it is empty there. -/
theorem member?_blanked (m : Machine) :
    (((Codec.machine.write m.blanked).member "metadata").member "annotations").member? snapshotKey
      = some (.str "") := by
  let annotations := (m.metadata.annotations.getD .empty).insert snapshotKey ""
  have found : annotations.get? snapshotKey = some "" :=
    (StringMap.get?_insert _ _ _ _).trans (if_pos rfl)
  exact (StringMap.lookup_map Json.str snapshotKey annotations.entries).trans
    (congrArg (Option.map Json.str) found)

end Machine

/-! ## Writes -/

/-- A write of a snapshot onto a machine: of the machine itself as it stands, or of another one. -/
inductive SnapshotWrite where
  | ofSelf
  | of (observed : Machine)

namespace SnapshotWrite

/-- The machine that is shown after the write onto a machine. -/
def shown (m : Machine) : SnapshotWrite → Machine
  | ofSelf => m
  | of observed => observed

/-- The machine after the write. -/
def apply (m : Machine) (w : SnapshotWrite) : Machine := m.withSnapshot (w.shown m)

/-- What is shown does not depend on the snapshot that the machine carries. -/
theorem sameButSnapshot_shown {m n : Machine} (h : m.SameButSnapshot n) :
    ∀ w : SnapshotWrite, (w.shown m).SameButSnapshot (w.shown n)
  | ofSelf => h
  | of observed => .refl observed

end SnapshotWrite

namespace Machine

open Snapshot

/-- The machine after one write after the other. -/
def writeSnapshots (m : Machine) (ws : List SnapshotWrite) : Machine :=
  ws.foldl SnapshotWrite.apply m

theorem writeSnapshots_append (m : Machine) (ws : List SnapshotWrite) (last : SnapshotWrite) :
    m.writeSnapshots (ws ++ [last]) = last.apply (m.writeSnapshots ws) :=
  List.foldl_append

/-- One write leaves the same machine but for its snapshot, and so do any number of them. -/
theorem sameButSnapshot_writeSnapshots (m : Machine) (ws : List SnapshotWrite) :
    m.SameButSnapshot (m.writeSnapshots ws) := by
  induction ws generalizing m with
  | nil => exact .refl m
  | cons w ws ih => exact (SameButSnapshot.withSnapshot m _).trans (ih _)

/-- **Only the last write counts.** -/
theorem writeSnapshots_last (m : Machine) (ws : List SnapshotWrite) (last : SnapshotWrite) :
    m.writeSnapshots (ws ++ [last]) = last.apply m := by
  have before := m.sameButSnapshot_writeSnapshots ws
  have text := (last.sameButSnapshot_shown before).encode_eq
  rw [writeSnapshots_append, SnapshotWrite.apply, SnapshotWrite.apply, withSnapshot, withSnapshot,
    text]
  exact before.annotate_eq _

/-- Showing itself again changes nothing. -/
theorem writeSnapshots_ofSelf (m : Machine) (n : Nat) :
    m.writeSnapshots (List.replicate (n + 1) .ofSelf) = m.withSnapshot m := by
  rw [List.replicate_succ', writeSnapshots_last]
  rfl

/-- **Snapshots do not nest.** After any number of writes, the text of the snapshot depends on
nothing but the machine shown last, and not on the snapshot that this one carries. The annotation
for snapshots is empty in it, and so what is read from it carries no snapshot itself. What a machine
that shows itself again and again carries, and all of it, is what it is after the first time. -/
theorem writeSnapshots_flat (m : Machine) (earlier : List SnapshotWrite) (last : SnapshotWrite) :
    (∀ observed, (last.shown m).SameButSnapshot observed →
      (m.writeSnapshots (earlier ++ [last])).metadata.annotation? snapshotKey
        = some (encode observed)) ∧
    (∃ document : Json, encode (last.shown m) = document.print ∧
      ((document.member "metadata").member "annotations").member? snapshotKey = some (.str "")) ∧
    (∀ current, (m.writeSnapshots (earlier ++ [last])).snapshot? = .ok (some current) →
      current.metadata.annotation? snapshotKey = some "" ∧ current.snapshot? = .ok none) ∧
    ((last.shown m).IsPlain →
      (m.writeSnapshots (earlier ++ [last])).snapshot? = .ok (some (last.shown m).blanked)) ∧
    ∀ n, m.writeSnapshots (List.replicate (n + 1) .ofSelf) = m.withSnapshot m := by
  have carried : (m.writeSnapshots (earlier ++ [last])).metadata.annotation? snapshotKey
      = some (encode (last.shown m)) := by
    rw [writeSnapshots_last]
    exact annotation?_withSnapshot m _
  refine ⟨fun observed same => ?_, ⟨_, rfl, member?_blanked (last.shown m)⟩, fun current shown => ?_,
    snapshot?_of_plain carried, m.writeSnapshots_ofSelf⟩
  · rw [carried, same.encode_eq]
  · have empty := annotation?_of_decode ((snapshot?_eq_some_iff carried).mp shown)
    exact ⟨empty, snapshot?_eq_none_iff.mpr (by rw [empty]; rfl)⟩

/-- A machine with a text for a snapshot that cannot be read. -/
def unreadable (name : String) : Machine :=
  { metadata := ObjectMeta.annotate { name := some name } snapshotKey "not a snapshot" }

theorem isPlain_unreadable (name : String) : (unreadable name).IsPlain :=
  ⟨⟨nofun, nofun, nofun⟩, nofun⟩

/-- What could not be read before is no hindrance: the machine shows itself afterwards. -/
theorem writeSnapshots_flat_of_unreadable :
    ((unreadable "worker").writeSnapshots ([.of (unreadable "other")] ++ [.ofSelf])).snapshot?
      = .ok (some (unreadable "worker").blanked) ∧
    (unreadable "worker").blanked.snapshot? = .ok none := by
  obtain ⟨_, _, empty, read, _⟩ :=
    writeSnapshots_flat (unreadable "worker") [.of (unreadable "other")] .ofSelf
  have shown := read (isPlain_unreadable "worker")
  exact ⟨shown, (empty _ shown).2⟩

end Machine

end NodeProvisioner
