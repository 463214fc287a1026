import NodeProvisioner.Pass.Lifecycle
import NodeProvisioner.Proofs.Codec.Accepting
import NodeProvisioner.Proofs.Json.Reading

/-!
# Snapshots are read back

A snapshot is the text of a whole machine. A plain machine is read back from it as it was, but for
the annotation that is emptied. Of any other machine at least the name and what it asks for come
back, if anything does.
-/

namespace NodeProvisioner

/-- The machine as it stands in its own snapshot. -/
def Machine.blanked (m : Machine) : Machine :=
  { m with metadata := m.metadata.annotate snapshotKey "" }

/-- The members in the opaque value that the machine holds are sorted, as in a map. -/
def Machine.IsNormal (m : Machine) : Prop :=
  ∀ j, m.spec.providerSpec.value = some j → j.IsNormal

theorem Machine.IsPlain.isNormal {m : Machine} (h : m.IsPlain) : m.IsNormal :=
  fun j eq => (h.value j eq).normal

theorem Machine.IsPlain.blanked {m : Machine} (h : m.IsPlain) : m.blanked.IsPlain :=
  ⟨h.metadata.annotate _ _, h.value⟩

theorem Machine.IsReadable.blanked {m : Machine} (h : m.IsReadable) : m.blanked.IsReadable :=
  ⟨h.metadata.annotate _ _, h.value⟩

namespace Snapshot

open Codec Members

/-! ## The header -/

/-- The text of a machine has the header of snapshots. -/
theorem header_written (m : Machine) : ∃ members, Codec.machine.write m = .obj members ∧
    ∀ h ∈ header, among (Json.sortMembers (Json.canonicalMembers members)) h.1
      = some (.str h.2) := by
  refine ⟨_, rfl, ?_⟩
  intro h mem
  refine (lookup_written (recordFormat "Machine") (by decide) _).trans ?_
  rw [header, List.mem_cons, List.mem_singleton] at mem
  obtain rfl | rfl := mem <;> rfl

theorem checkMember_of_lookup {members : List (String × Json)} {name expected : String}
    (h : among members name = some (.str expected)) :
    checkMember members name expected = .ok members := by
  have found : members.lookup name = some (.str expected) := h
  simp only [checkMember, found, if_true]

theorem decode_of_parse {text : String} {members : List (String × Json)}
    (parsed : Json.parse text = .ok (.obj members))
    (h : ∀ e ∈ header, among members e.1 = some (.str e.2)) :
    decode text = (Codec.machine.ofJson (.obj members)).mapError Fault.jsonMessage := by
  have version := checkMember_of_lookup (h _ List.mem_cons_self)
  have kind := checkMember_of_lookup (h _ (List.mem_cons_of_mem _ List.mem_cons_self))
  have checked : header.foldlM (fun ms e => checkMember ms e.1 e.2) members = .ok members := by
    simp only [header, List.foldlM, version, kind, bind, Except.bind, pure, Except.pure]
  rw [decode, parsed]
  show (header.foldlM (fun ms e => checkMember ms e.1 e.2) members >>= fun ms =>
    (Codec.machine.ofJson (.obj ms)).mapError Fault.jsonMessage) = _
  rw [checked]
  rfl

/-! ## What is read back -/

/-- **A plain machine is read back from its snapshot.** -/
theorem decode_encode {m : Machine} (h : m.IsPlain) : decode (encode m) = .ok m.blanked := by
  have carried := carries_machine h.blanked
  have parsed := Json.parse_print carried.plain carried.shallow
  have reads := carried.reads
  obtain ⟨members, written, named⟩ := header_written m.blanked
  rw [written, Json.canonical] at reads
  rw [written] at parsed
  have text : encode m = (Json.obj members).print := congrArg Json.print written
  rw [text, decode_of_parse parsed named, reads]
  rfl

/-- What the text of a machine is parsed as resembles its document, and the machine is read from it. -/
theorem decode_of_print {m : Machine} {k : Json}
    (parsed : Json.parse (Codec.machine.write m.blanked).print = .ok k) :
    (Codec.machine.write m.blanked).canonical.Resembles k ∧
      decode (encode m) = (Codec.machine.ofJson k).mapError Fault.jsonMessage := by
  have alike := Json.resembles_of_parse_print parsed
  refine ⟨alike, ?_⟩
  obtain ⟨members, written, named⟩ := header_written m.blanked
  have text : encode m = (Json.obj members).print := congrArg Json.print written
  rw [written] at parsed alike
  obtain ⟨others, rfl, same⟩ : ∃ others, k = .obj others ∧ Json.MembersResemble _ others := by
    rw [Json.canonical, Json.Resembles] at alike
    exact alike
  -- the header is made of texts, and a text resembles nothing but itself
  have named' : ∀ e ∈ header, among others e.1 = some (.str e.2) := by
    intro e mem
    have sent := named e mem
    obtain ⟨unsent, _⟩ | ⟨i, k, found, found', alike'⟩ := same.lookup e.1
    · rw [among, unsent] at sent
      cases sent
    · rw [among, found] at sent
      cases sent
      rw [Json.Resembles] at alike'
      rw [among, found', alike']
  rw [text, decode_of_parse parsed named']

theorem exists_parse_of_decode {m m' : Machine} (h : decode (encode m) = .ok m') :
    ∃ k, Json.parse (Codec.machine.write m.blanked).print = .ok k := by
  cases parsed : Json.parse (Codec.machine.write m.blanked).print with
  | error fault =>
    have text : encode m = (Codec.machine.write m.blanked).print := rfl
    rw [decode, text, parsed] at h
    cases h
  | ok k => exact ⟨k, rfl⟩

theorem returns_of_decode {m m' : Machine} (h : decode (encode m) = .ok m') :
    Codec.machine.Returns m.blanked m' := by
  obtain ⟨k, parsed⟩ := exists_parse_of_decode h
  obtain ⟨alike, read⟩ := decode_of_print parsed
  rw [read] at h
  exact ⟨k, alike, mapError_eq_ok_iff.mp h⟩

/-- A snapshot that can be read is not nested too deep. -/
theorem depth_of_decode {m m' : Machine} (h : decode (encode m) = .ok m') :
    (Codec.machine.write m.blanked).depth ≤ Json.depthLimit := by
  obtain ⟨_, parsed⟩ := exists_parse_of_decode h
  exact Json.depth_of_parse_print parsed

/-- **A readable machine is read from its snapshot**, as it was or otherwise. -/
theorem exists_decode_encode {m : Machine} (h : m.IsReadable) :
    ∃ m', decode (encode m) = .ok m' := by
  have accepted := accepts_machine h.blanked
  obtain ⟨k, parsed, alike⟩ := Json.exists_parse_of_isBounded accepted.bounded accepted.shallow
  obtain ⟨m', read⟩ := accepted.reads k alike
  refine ⟨m', ?_⟩
  rw [(decode_of_print parsed).2, read]
  rfl

/-- **The name comes back from a snapshot.** -/
theorem name_of_decode {m m' : Machine} (h : decode (encode m) = .ok m') :
    m'.metadata.name = m.metadata.name := by
  obtain ⟨⟨metadata, spec, status⟩, ⟨returned, _⟩, rfl⟩ :=
    (returns_of_decode h).record rfl (by decide)
  obtain ⟨values, parts, rfl⟩ := Returns.record ((if_neg Bool.false_ne_true).mp returned) rfl
    (by decide)
  obtain ⟨_, _, _, _, _, _, _, _, _, name, _⟩ := parts
  exact name.textOption

/-- The versions come back from a snapshot, and the opaque value as what a reader makes of it. -/
theorem spec_of_decode {m m' : Machine} (h : decode (encode m) = .ok m') :
    m'.spec.versions = m.spec.versions ∧ (Member.optional "value" Codec.any).Returns
      m.spec.providerSpec.value m'.spec.providerSpec.value := by
  obtain ⟨⟨_, spec, _⟩, ⟨_, returned, _⟩, rfl⟩ := (returns_of_decode h).record rfl (by decide)
  obtain ⟨⟨providerSpec, versions, _⟩, ⟨first, second, _⟩, rfl⟩ :=
    Codec.Returns.record ((if_neg Bool.false_ne_true).mp returned) rfl (by decide)
  obtain ⟨⟨value, _⟩, ⟨kept, _⟩, rfl⟩ :=
    Codec.Returns.record ((if_neg Bool.false_ne_true).mp first) rfl (by decide)
  exact ⟨((if_neg Bool.false_ne_true).mp second).carried (Codec.carries_versions _), kept⟩

end Snapshot

/-! ## What is asked for -/

theorem ProviderSpec.decode_eq_ok_iff {α : Type} {p : ProviderSpec} {c : Codec α} {owner : String}
    {a : α} : p.decode c owner = .ok a ↔ ∃ j, p.value = some j ∧ c.ofJson j = .ok a := by
  rw [decode]
  cases p.value with
  | none => exact ⟨nofun, fun ⟨_, h, _⟩ => nomatch h⟩
  | some j => exact mapError_eq_ok_iff.trans ⟨fun h => ⟨j, rfl, h⟩, fun ⟨_, rfl, h⟩ => h⟩

/-- What a machine asks for is what its opaque value reads as, if that is valid. -/
theorem MachineProviderSpec.ofMachine_eq_ok_iff {m : Machine} {spec : MachineProviderSpec} :
    ofMachine m = .ok spec ↔ ∃ j, m.spec.providerSpec.value = some j ∧
      Codec.machineProviderSpec.ofJson j = .ok spec ∧ spec.validate m.identity = .ok () := by
  constructor
  · intro h
    obtain ⟨spec', decoded, h⟩ := bind_eq_ok_iff.mp h
    obtain ⟨_, valid, h⟩ := bind_eq_ok_iff.mp h
    cases h
    obtain ⟨j, value, read⟩ := ProviderSpec.decode_eq_ok_iff.mp decoded
    exact ⟨j, value, read, valid⟩
  · rintro ⟨j, value, read, valid⟩
    exact bind_eq_ok_iff.mpr ⟨spec, ProviderSpec.decode_eq_ok_iff.mpr ⟨j, value, read⟩,
      bind_eq_ok_iff.mpr ⟨(), valid, rfl⟩⟩

/-- Who is told of a fault does not matter to whether there is one. -/
theorem MachineProviderSpec.validate_other {spec : MachineProviderSpec} {identity : String}
    (h : spec.validate identity = .ok ()) (other : String) : spec.validate other = .ok () := by
  unfold validate at h ⊢
  split at h
  · cases h
  · split at h
    · cases h
    · split at h
      · cases h
      · simp only [*]
        rfl

/-- **What a machine asks for comes back from its snapshot.** -/
theorem Snapshot.ofMachine_of_decode {m m' : Machine} (normal : m.IsNormal)
    (h : Snapshot.decode (Snapshot.encode m) = .ok m') {spec : MachineProviderSpec}
    (asked : MachineProviderSpec.ofMachine m = .ok spec) :
    MachineProviderSpec.ofMachine m' = .ok spec := by
  obtain ⟨j, value, read, valid⟩ := MachineProviderSpec.ofMachine_eq_ok_iff.mp asked
  obtain ⟨_, kept⟩ := spec_of_decode h
  rw [value] at kept
  have normal' := normal j value
  refine MachineProviderSpec.ofMachine_eq_ok_iff.mpr ?_
  -- the opaque value may come back as `null`, but then it could not have been read before
  obtain ⟨_, alike⟩ | ⟨k, value', same⟩ := Codec.Returns.some kept
  · have alike' : j.canonical.Resembles .null := alike
    rw [normal'] at alike'
    cases Codec.steady_machineProviderSpec alike' read
  · exact ⟨k, value', Codec.steady_machineProviderSpec (same.any normal') read,
      MachineProviderSpec.validate_other valid _⟩

/-! ## On a record -/

theorem ObjectMeta.annotation?_eq (m : ObjectMeta) (key : String) :
    m.annotation? key = (m.annotations.getD .empty).get? key := by
  rw [annotation?]
  cases m.annotations <;> rfl

/-- An annotation is there afterwards, and the others are as they were. -/
theorem ObjectMeta.annotation?_annotate (m : ObjectMeta) (key value other : String) :
    (m.annotate key value).annotation? other
      = if other = key then some value else m.annotation? other := by
  rw [annotation?_eq m]
  exact StringMap.get?_insert _ key other value

namespace Machine

open Snapshot

theorem annotation?_withSnapshot (m observed : Machine) :
    (m.withSnapshot observed).metadata.annotation? snapshotKey = some (encode observed) :=
  (ObjectMeta.annotation?_annotate m.metadata _ _ _).trans (if_pos rfl)

theorem encode_ne_empty (m : Machine) : (encode m).isEmpty = false := by
  obtain ⟨members, written, _⟩ := header_written m.blanked
  have text : encode m = (Json.obj members).print := congrArg Json.print written
  refine Bool.eq_false_iff.mpr fun empty => ?_
  have none := congrArg String.toList (String.isEmpty_iff.mp empty)
  rw [text, Json.print, String.toList_ofList] at none
  cases members <;> cases none

theorem snapshot?_eq_none_iff {m : Machine} :
    m.snapshot? = .ok none ↔ (m.metadata.annotation? snapshotKey).getD "" = "" := by
  unfold snapshot?
  cases m.metadata.annotation? snapshotKey with
  | none => exact ⟨fun _ => rfl, fun _ => rfl⟩
  | some text =>
    by_cases empty : text.isEmpty = true
    · simp only [empty, if_true, Option.getD_some]
      exact ⟨fun _ => String.isEmpty_iff.mp empty, fun _ => trivial⟩
    · simp only [if_neg empty, Option.getD_some]
      refine ⟨?_, fun eq => absurd (String.isEmpty_iff.mpr eq) empty⟩
      cases decode text <;> exact nofun

section

variable {m last : Machine} (h : m.metadata.annotation? snapshotKey = some (encode last))

include h

/-- The snapshot that a record carries is what its text reads as. -/
theorem snapshot?_eq_some_iff {current : Machine} :
    m.snapshot? = .ok (some current) ↔ decode (encode last) = .ok current := by
  simp only [snapshot?, h, encode_ne_empty last]
  cases decode (encode last) with
  | error message => exact ⟨nofun, nofun⟩
  | ok snapshot =>
    exact ⟨fun eq => congrArg Except.ok (Option.some.inj (Except.ok.inj eq)),
      fun eq => congrArg (fun s => Except.ok (some s)) (Except.ok.inj eq)⟩

/-- A plain machine is shown by the snapshot of it. -/
theorem snapshot?_of_plain (plain : last.IsPlain) : m.snapshot? = .ok (some last.blanked) :=
  (snapshot?_eq_some_iff h).mpr (decode_encode plain)

theorem snapshot?_ne_none : m.snapshot? ≠ .ok none := by
  simp only [snapshot?, h, encode_ne_empty last]
  cases decode (encode last) <;> exact nofun

end

/-! ## What has changed -/

theorem providerSpec_beq_iff {a b : ProviderSpec} : (a == b) = true ↔ (a.value == b.value) = true :=
  Iff.rfl

theorem differs_eq_false_iff {current goal : Machine} : current.differs goal = false ↔
    current.metadata.name = goal.metadata.name ∧
    (current.spec.providerSpec == goal.spec.providerSpec) = true ∧
    current.spec.versions = goal.spec.versions := by
  simp [differs, bne, and_assoc]

/-- A plain machine does not differ from what its snapshot shows. -/
theorem IsPlain.differs_blanked {m goal : Machine} (h : m.IsPlain)
    (name : m.metadata.name = goal.metadata.name) (spec : m.spec = goal.spec) :
    m.blanked.differs goal = false := by
  refine differs_eq_false_iff.mpr ⟨name, ?_, congrArg MachineSpec.versions spec⟩
  rw [← spec, providerSpec_beq_iff]
  show (m.spec.providerSpec.value == m.spec.providerSpec.value) = true
  cases value : m.spec.providerSpec.value with
  | none => rfl
  | some j => exact Json.beq_self (h.value j value).plain

/-- What a readable machine asks for comes back from its snapshot, so that it does not differ from
what the snapshot shows. Only `null` does not come back, and it asks for nothing. -/
theorem IsReadable.not_differs_of_decode {m current : Machine} (h : m.IsReadable)
    (present : m.spec.providerSpec.value ≠ some .null)
    (shown : decode (encode m) = .ok current) : current.differs m = false := by
  obtain ⟨versions, kept⟩ := spec_of_decode shown
  refine differs_eq_false_iff.mpr ⟨name_of_decode shown, ?_, versions⟩
  rw [providerSpec_beq_iff]
  cases value : m.spec.providerSpec.value with
  | none =>
    rw [value] at kept
    rw [← Option.some.inj kept]
    rfl
  | some j =>
    obtain ⟨normal, plain, shallow⟩ := h.value j value
    rw [value] at kept present
    obtain ⟨_, alike⟩ | ⟨k, value', same⟩ := Codec.Returns.some kept
    · have null := alike.eq_of_isPlain (Json.isPlain_canonical plain)
      exact absurd (congrArg some (null.trans normal).symm) present
    · rw [value', same.carried (Codec.carries_any plain shallow normal)]
      exact Json.beq_self plain

/-- A readable machine that asks for something valid does not differ from what a snapshot of it
shows. -/
theorem IsReadable.exists_shown {m last : Machine} (h : last.IsReadable)
    {spec : MachineProviderSpec} (asked : MachineProviderSpec.ofMachine last = .ok spec)
    (carried : m.metadata.annotation? snapshotKey = some (encode last)) :
    ∃ current, m.snapshot? = .ok (some current) ∧ current.differs last = false := by
  obtain ⟨current, read⟩ := exists_decode_encode h
  refine ⟨current, (snapshot?_eq_some_iff carried).mpr read, h.not_differs_of_decode ?_ read⟩
  obtain ⟨j, value, decoded, _⟩ := MachineProviderSpec.ofMachine_eq_ok_iff.mp asked
  rw [value]
  rintro ⟨⟩
  cases decoded

/-- A machine that does not differ from a second one asks for what the second asks for. -/
theorem ofMachine_of_not_differs {current goal : Machine} (same : current.differs goal = false)
    {spec : MachineProviderSpec} (h : MachineProviderSpec.ofMachine current = .ok spec) :
    MachineProviderSpec.ofMachine goal = .ok spec := by
  obtain ⟨_, alike, _⟩ := differs_eq_false_iff.mp same
  obtain ⟨j, value, read, valid⟩ := MachineProviderSpec.ofMachine_eq_ok_iff.mp h
  rw [providerSpec_beq_iff, value] at alike
  refine MachineProviderSpec.ofMachine_eq_ok_iff.mpr ?_
  cases value' : goal.spec.providerSpec.value with
  | none =>
    rw [value'] at alike
    cases alike
  | some k =>
    rw [value'] at alike
    have resembles : j.Resembles k := Json.resembles_of_beq alike
    exact ⟨k, rfl, Codec.steady_machineProviderSpec resembles read,
      MachineProviderSpec.validate_other valid _⟩

end Machine

end NodeProvisioner
