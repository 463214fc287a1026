import NodeProvisioner.Proofs.Json.Arrangement
import NodeProvisioner.Proofs.Json.Reading
import NodeProvisioner.Proofs.Snapshots

/-!
# Which snapshots are accepted

A machine may carry anything under the annotation of snapshots. It is taken for a snapshot if it is
the text of an object that is nested no deeper than the limit, has no other header than that of a
machine, and reads as a machine (`Snapshot.Accepts`); all else is an error that names the machine.

Main statement: `Machine.snapshot?_accepts`.
-/

namespace NodeProvisioner

open Json (lastNamed? depthLimit)

/-- Members that a machine does not know do not matter. -/
theorem Codec.ofJson_machine_congr {members others : List (String × Json)}
    (once : (members.map (·.1)).Nodup) (once' : (others.map (·.1)).Nodup)
    (h : ∀ name ∈ ["metadata", "spec", "status"], members.lookup name = others.lookup name)
    {m : Machine} :
    machine.ofJson (.obj members) = .ok m ↔ machine.ofJson (.obj others) = .ok m := by
  refine ofJson_record_congr rfl ?_ once once' ?_
  · decide
  · exact h

namespace Snapshot

/-! ## The header -/

/-- What stands under a name does not contradict what the header has to say there. -/
def Agrees (expected : String) (found : Option Json) : Prop :=
  found = none ∨ found = some (.str expected)

/-- A member that agrees is left as it is, or added if it is not there. -/
theorem exists_checkMember {members : List (String × Json)} {name expected : String}
    (h : Agrees expected (members.lookup name)) :
    ∃ others, checkMember members name expected = .ok others := by
  rw [checkMember]
  rcases h with absent | present
  · rw [absent]
    exact ⟨_, rfl⟩
  · rw [present]
    exact ⟨members, if_pos rfl⟩

/-- Nothing but the member that is checked changes. -/
theorem checkMember_eq_ok {members others : List (String × Json)} {name expected : String}
    (h : checkMember members name expected = .ok others) (sorted : StringMap.Sorted members) :
    Agrees expected (members.lookup name) ∧ StringMap.Sorted others ∧
      ∀ other, other ≠ name → others.lookup other = members.lookup other := by
  rw [checkMember] at h
  split at h
  · rename_i absent
    cases h
    rw [Json.insertMember_eq]
    refine ⟨.inl absent, StringMap.sorted_insertEntry name _ sorted, ?_⟩
    intro other ne
    rw [StringMap.lookup_insertEntry, if_neg ne]
  · rename_i found present
    split at h
    · rename_i s
      split at h
      · rename_i same
        cases h
        exact ⟨.inr (same ▸ present), sorted, fun _ _ => rfl⟩
      · cases h
    · cases h

/-- A header that agrees passes. -/
theorem exists_checked : ∀ {hs : List (String × String)} {members : List (String × Json)},
    (hs.map (·.1)).Nodup → StringMap.Sorted members →
    (∀ h ∈ hs, Agrees h.2 (members.lookup h.1)) →
    ∃ others, hs.foldlM (fun ms h => checkMember ms h.1 h.2) members = .ok others
  | [], members, _, _, _ => ⟨members, rfl⟩
  | h :: hs, members, distinct, sorted, agree => by
    rw [List.map_cons, List.nodup_cons] at distinct
    obtain ⟨here, rest⟩ := List.forall_mem_cons.mp agree
    obtain ⟨between, first⟩ := exists_checkMember here
    obtain ⟨_, sorted', same⟩ := checkMember_eq_ok first sorted
    obtain ⟨others, second⟩ := @exists_checked hs between distinct.2 sorted' fun g mem => by
      rw [same g.1 fun eq => distinct.1 (List.mem_map.mpr ⟨g, mem, eq⟩)]
      exact rest g mem
    exact ⟨others, bind_eq_ok_iff.mpr ⟨between, first, second⟩⟩

/-- A header that passes agrees, and nothing but its members changes. -/
theorem checked_eq_ok : ∀ {hs : List (String × String)} {members others : List (String × Json)},
    (hs.map (·.1)).Nodup → StringMap.Sorted members →
    hs.foldlM (fun ms h => checkMember ms h.1 h.2) members = .ok others →
    (∀ h ∈ hs, Agrees h.2 (members.lookup h.1)) ∧ StringMap.Sorted others ∧
      ∀ other, other ∉ hs.map (·.1) → others.lookup other = members.lookup other
  | [], _, _, _, sorted, h => by
    cases h
    exact ⟨List.forall_mem_nil _, sorted, fun _ _ => rfl⟩
  | h :: hs, members, others, distinct, sorted, checked => by
    rw [List.map_cons, List.nodup_cons] at distinct
    obtain ⟨between, first, second⟩ := bind_eq_ok_iff.mp checked
    obtain ⟨agree, sorted', same⟩ := checkMember_eq_ok first sorted
    obtain ⟨agrees, sorted'', same'⟩ := checked_eq_ok distinct.2 sorted' second
    refine ⟨List.forall_mem_cons.mpr ⟨agree, fun g mem => ?_⟩, sorted'', ?_⟩
    · rw [← same g.1 fun eq => distinct.1 (List.mem_map.mpr ⟨g, mem, eq⟩)]
      exact agrees g mem
    · intro other mem
      rw [List.map_cons, List.mem_cons, not_or] at mem
      rw [same' other mem.2, same other mem.1]

/-- **An object is read as a snapshot if its header agrees and it reads as a machine.** -/
theorem decode_eq_ok_iff {text : String} {members : List (String × Json)}
    (sorted : StringMap.Sorted members) (parsed : Json.parse text = .ok (.obj members))
    {m : Machine} : decode text = .ok m ↔
      (∀ h ∈ header, Agrees h.2 (members.lookup h.1)) ∧
        Codec.machine.ofJson (.obj members) = .ok m := by
  have checks : decode text = .ok m ↔ ∃ others,
      header.foldlM (fun ms h => checkMember ms h.1 h.2) members = .ok others ∧
        Codec.machine.ofJson (.obj others) = .ok m := by
    rw [decode, parsed]
    show (header.foldlM (fun ms h => checkMember ms h.1 h.2) members >>= fun ms =>
      (Codec.machine.ofJson (.obj ms)).mapError Fault.jsonMessage) = .ok m ↔ _
    exact bind_eq_ok_iff.trans (exists_congr fun others => and_congr_right' mapError_eq_ok_iff)
  -- a machine has no member of the names of its header
  have read {others : List (String × Json)}
      (checked : header.foldlM (fun ms h => checkMember ms h.1 h.2) members = .ok others) :
      Codec.machine.ofJson (.obj others) = .ok m ↔ Codec.machine.ofJson (.obj members) = .ok m := by
    obtain ⟨_, sorted', same⟩ := checked_eq_ok (by decide) sorted checked
    refine Codec.ofJson_machine_congr sorted'.nodup sorted.nodup fun name mem => same name ?_
    revert name
    decide
  rw [checks]
  constructor
  · rintro ⟨others, checked, decoded⟩
    exact ⟨(checked_eq_ok (by decide) sorted checked).1, (read checked).mp decoded⟩
  · rintro ⟨agree, decoded⟩
    obtain ⟨others, checked⟩ := exists_checked (by decide) sorted agree
    exact ⟨others, checked, (read checked).mpr decoded⟩

/-! ## Texts -/

/-- The value is taken for a snapshot of the machine: it is an object, it has no other header than
that of a machine, and it reads as the machine. -/
def Accepts (j : Json) (m : Machine) : Prop :=
  ∃ members, j = .obj members ∧ (∀ h ∈ header, Agrees h.2 (lastNamed? h.1 members)) ∧
    Codec.machine.ofJson j.canonical = .ok m

theorem agrees_canonical {expected : String} {found : Option Json} :
    Agrees expected (found.map Json.canonical) ↔ Agrees expected found := by
  cases found with
  | none => exact Iff.rfl
  | some j =>
    unfold Agrees
    rw [Option.map_some, Option.some.injEq, Option.some.injEq, Json.canonical_eq_str_iff]
    exact or_congr_left ⟨nofun, nofun⟩

/-- Only the canonical form of a value matters to whether it is accepted. -/
theorem accepts_iff {j : Json} {m : Machine} : Accepts j m ↔ ∃ members, j.canonical = .obj members ∧
    (∀ h ∈ header, Agrees h.2 (members.lookup h.1)) ∧ Codec.machine.ofJson j.canonical = .ok m := by
  constructor
  · rintro ⟨members, rfl, agree, read⟩
    refine ⟨_, Json.canonical.eq_2 members, fun h mem => ?_, read⟩
    rw [Json.lookup_canonical, agrees_canonical]
    exact agree h mem
  · rintro ⟨members, canonical, agree, read⟩
    obtain ⟨others, rfl, rfl⟩ := Json.eq_obj_of_canonical canonical
    refine ⟨others, rfl, fun h mem => ?_, read⟩
    rw [← agrees_canonical, ← Json.lookup_canonical]
    exact agree h mem

/-- **A text of a value is read as a snapshot if the value is accepted and not nested too deep.** -/
theorem decode_of_hasText {j : Json} {text : String} (h : j.HasText text) {m : Machine} :
    decode text = .ok m ↔ j.depth ≤ depthLimit ∧ Accepts j m := by
  cases parsed : Json.parse text with
  | error fault =>
    rw [decode, parsed]
    constructor
    · intro read
      cases read
    · rintro ⟨shallow, _⟩
      rw [h.parse_eq_ok_iff.mpr ⟨shallow, rfl⟩] at parsed
      cases parsed
  | ok v =>
    obtain ⟨shallow, rfl⟩ := h.parse_eq_ok_iff.mp parsed
    rw [and_iff_right shallow, accepts_iff]
    cases canonical : j.canonical with
    | obj members =>
      have sorted : StringMap.Sorted members := by
        obtain ⟨others, _, rfl⟩ := Json.eq_obj_of_canonical canonical
        exact Json.sorted_sortMembers _
      rw [decode_eq_ok_iff sorted (canonical ▸ parsed)]
      constructor
      · exact fun h => ⟨members, rfl, h⟩
      · rintro ⟨_, ⟨⟩, h⟩
        exact h
    | _ =>
      rw [decode, parsed, canonical]
      constructor
      · intro read
        cases read
      · rintro ⟨_, eq, _⟩
        cases eq

theorem exists_hasText_of_decode {text : String} {m : Machine} (h : decode text = .ok m) :
    ∃ j : Json, j.HasText text := by
  obtain ⟨v, parsed, _⟩ := bind_eq_ok_iff.mp h
  exact Json.exists_hasText_of_parse (mapError_eq_ok_iff.mp parsed)

/-! ## Alike values -/

/-- The member says what the header of a machine says. -/
def isHeader (m : String × Json) : Bool :=
  match m.2 with
  | .str s => header.contains (m.1, s)
  | _ => false

/-- The members without the header of a machine. -/
def unheaded (members : List (String × Json)) : List (String × Json) :=
  members.filter fun m => !isHeader m

/-- The values are the same but for the order of members, at any depth, and for members of theirs
that say what the header of a machine says. -/
def Alike : Json → Json → Prop
  | .obj members, .obj others =>
    (Json.obj (unheaded members)).Rearranged (.obj (unheaded others))
  | j, k => j.Rearranged k

theorem isHeader_iff {m : String × Json} :
    isHeader m = true ↔ ∃ h ∈ header, m = (h.1, .str h.2) := by
  obtain ⟨name, j⟩ := m
  cases j with
  | str s =>
    rw [isHeader, List.contains_iff_mem]
    constructor
    · exact fun mem => ⟨_, mem, rfl⟩
    · rintro ⟨h, mem, eq⟩
      cases eq
      exact mem
  | _ =>
    refine ⟨nofun, ?_⟩
    rintro ⟨h, _, eq⟩
    cases eq

theorem nodup_unheaded {members : List (String × Json)} (once : (members.map (·.1)).Nodup) :
    ((unheaded members).map (·.1)).Nodup := once.sublist (List.filter_sublist.map _)

theorem lookup_unheaded {members : List (String × Json)} (once : (members.map (·.1)).Nodup)
    (name : String) : (unheaded members).lookup name
      = (members.lookup name).filter fun j => !isHeader (name, j) := by
  refine Option.ext fun j => ?_
  rw [StringMap.lookup_eq_some_iff (nodup_unheaded once), Option.filter_eq_some_iff,
    StringMap.lookup_eq_some_iff once]
  exact List.mem_filter

/-- A header that agrees may as well be left out. -/
theorem agrees_unheaded {h : String × String} (mem : h ∈ header) {found : Option Json} :
    Agrees h.2 (found.filter fun j => !isHeader (h.1, j)) ↔ Agrees h.2 found := by
  cases found with
  | none => exact Iff.rfl
  | some j =>
    by_cases said : isHeader (h.1, j) = true
    · obtain ⟨g, mem', eq⟩ := isHeader_iff.mp said
      obtain ⟨same, rfl⟩ := Prod.mk.inj eq
      have unique : ∀ h ∈ header, ∀ g ∈ header, h.1 = g.1 → h = g := by decide
      rw [Option.filter_some, said, unique h mem g mem' same]
      exact iff_of_true (.inl rfl) (.inr rfl)
    · rw [Option.filter_some, Bool.eq_false_iff.mpr said]
      exact Iff.rfl

theorem accepts_obj_iff {members : List (String × Json)} {m : Machine} :
    Accepts (.obj members) m ↔ (∀ h ∈ header, Agrees h.2 (lastNamed? h.1 members)) ∧
      Codec.machine.ofJson (Json.obj members).canonical = .ok m := by
  constructor
  · rintro ⟨_, ⟨⟩, h⟩
    exact h
  · exact fun h => ⟨members, rfl, h⟩

/-- **A header that agrees does not matter.** -/
theorem accepts_unheaded {members : List (String × Json)} (once : (members.map (·.1)).Nodup)
    {m : Machine} : Accepts (.obj (unheaded members)) m ↔ Accepts (.obj members) m := by
  have found (name : String) : lastNamed? name (unheaded members)
      = (lastNamed? name members).filter fun j => !isHeader (name, j) := by
    rw [Json.lastNamed?_of_once (nodup_unheaded once), Json.lastNamed?_of_once once,
      lookup_unheaded once]
  rw [accepts_obj_iff, accepts_obj_iff]
  refine and_congr ?_ ?_
  · refine forall_congr' fun h => forall_congr' fun mem => ?_
    rw [found, agrees_unheaded mem]
  · rw [Json.canonical, Json.canonical]
    refine Codec.ofJson_machine_congr (Json.sorted_sortMembers _).nodup
      (Json.sorted_sortMembers _).nodup fun name mem => ?_
    rw [Json.lookup_canonical, Json.lookup_canonical, found]
    -- no member of a machine has the name of a header
    have other : ∀ name ∈ ["metadata", "spec", "status"], ∀ h ∈ header, name ≠ h.1 := by decide
    cases lastNamed? name members with
    | none => rfl
    | some j =>
      have unsaid : isHeader (name, j) = false := by
        refine Bool.eq_false_iff.mpr fun said => ?_
        obtain ⟨h, mem', eq⟩ := isHeader_iff.mp said
        exact other name mem h mem' (Prod.mk.inj eq).1
      rw [Option.filter_some, unsaid]
      rfl

theorem depth_unheaded (members : List (String × Json)) :
    (Json.obj (unheaded members)).depth = (Json.obj members).depth := by
  refine congrArg (· + 1) (Json.membersDepth_congr fun d => ?_)
  constructor
  · intro h m mem
    by_cases said : isHeader m = true
    · obtain ⟨g, _, rfl⟩ := isHeader_iff.mp said
      exact Nat.zero_le d
    · exact h m (List.mem_filter.mpr ⟨mem, by rw [Bool.eq_false_iff.mpr said]; rfl⟩)
  · exact fun h m mem => h m (List.mem_filter.mp mem).1

theorem namesOnce_unheaded {members : List (String × Json)} (h : (Json.obj members).NamesOnce) :
    (Json.obj (unheaded members)).NamesOnce := by
  obtain ⟨once, all⟩ := Json.namesOnce_obj_iff.mp h
  exact Json.namesOnce_obj_iff.mpr ⟨nodup_unheaded once,
    fun m mem => all m (List.mem_filter.mp mem).1⟩

theorem accepts_rearranged {j k : Json} (h : j.Rearranged k) (once : j.NamesOnce) {m : Machine} :
    j.depth = k.depth ∧ (Accepts j m ↔ Accepts k m) := by
  obtain ⟨_, canonical, depth⟩ := h.canonical_eq once
  rw [accepts_iff, accepts_iff, canonical]
  exact ⟨depth, Iff.rfl⟩

/-- **Of alike values each is accepted as a machine just if the other is.** -/
theorem accepts_alike {j k : Json} (h : Alike j k) (once : j.NamesOnce) (once' : k.NamesOnce)
    {m : Machine} : j.depth = k.depth ∧ (Accepts j m ↔ Accepts k m) := by
  unfold Alike at h
  split at h
  · rename_i members others
    obtain ⟨depth, same⟩ := accepts_rearranged h (namesOnce_unheaded once) (m := m)
    rw [depth_unheaded, depth_unheaded] at depth
    rw [accepts_unheaded (Json.namesOnce_obj_iff.mp once).1,
      accepts_unheaded (Json.namesOnce_obj_iff.mp once').1] at same
    exact ⟨depth, same⟩
  · exact accepts_rearranged h once

end Snapshot

namespace Machine

open Snapshot

/-- A machine that carries a text has read from it what it can, or an error names the machine. -/
theorem snapshot?_of_carried {m : Machine} {text : String}
    (carried : m.metadata.annotation? snapshotKey = some text) (nonempty : text ≠ "") :
    (∃ s, decode text = .ok s ∧ m.snapshot? = .ok (some s)) ∨
      ∃ message, decode text = .error message ∧
        m.snapshot? = .error (.decode m.identity message) := by
  have full : text.isEmpty = false := Bool.eq_false_iff.mpr (mt String.isEmpty_iff.mp nonempty)
  simp only [snapshot?, carried, full, Bool.false_eq_true, if_false]
  cases decode text with
  | ok s => exact .inl ⟨s, rfl, rfl⟩
  | error message => exact .inr ⟨message, rfl, rfl⟩

/-- Nothing is there just if the annotation is not, or if it is empty. -/
theorem snapshot?_eq_none_iff_unset {m : Machine} : m.snapshot? = .ok none ↔
    m.metadata.annotation? snapshotKey = none ∨ m.metadata.annotation? snapshotKey = some "" := by
  rw [snapshot?_eq_none_iff]
  cases m.metadata.annotation? snapshotKey with
  | none => exact iff_of_true rfl (.inl rfl)
  | some text =>
    rw [Option.getD_some, Option.some.injEq]
    exact (or_iff_right nofun).symm

/-- The snapshot of a machine that carries the text of a value. -/
theorem snapshot?_of_hasText {m s : Machine} {text : String} {j : Json}
    (carried : m.metadata.annotation? snapshotKey = some text) (h : j.HasText text) :
    m.snapshot? = .ok (some s) ↔ j.depth ≤ depthLimit ∧ Accepts j s := by
  rw [← decode_of_hasText h]
  rcases snapshot?_of_carried carried h.ne_empty with ⟨t, read, eq⟩ | ⟨message, failed, eq⟩
  · rw [read, eq]
    exact ⟨fun h => congrArg Except.ok (Option.some.inj (Except.ok.inj h)),
      fun h => congrArg (fun s => Except.ok (some s)) (Except.ok.inj h)⟩
  · rw [failed, eq]
    exact ⟨nofun, nofun⟩

/-- **A snapshot is there just if the annotation is the text of a value that is accepted.** -/
theorem snapshot?_eq_some_iff_accepts {m s : Machine} : m.snapshot? = .ok (some s) ↔
    ∃ text j, m.metadata.annotation? snapshotKey = some text ∧ j.HasText text ∧
      j.depth ≤ depthLimit ∧ Accepts j s := by
  constructor
  · intro h
    cases carried : m.metadata.annotation? snapshotKey with
    | none =>
      rw [snapshot?_eq_none_iff_unset.mpr (.inl carried)] at h
      cases h
    | some text =>
      have nonempty : text ≠ "" := by
        rintro rfl
        rw [snapshot?_eq_none_iff_unset.mpr (.inr carried)] at h
        cases h
      rcases snapshot?_of_carried carried nonempty with ⟨t, read, _⟩ | ⟨message, _, eq⟩
      · obtain ⟨j, hasText⟩ := exists_hasText_of_decode read
        exact ⟨text, j, rfl, hasText, (snapshot?_of_hasText carried hasText).mp h⟩
      · rw [eq] at h
        cases h
  · rintro ⟨text, j, carried, hasText, accepted⟩
    exact (snapshot?_of_hasText carried hasText).mpr accepted

/-- What is there and is not read is an error that names the machine. -/
theorem snapshot?_eq_error {m : Machine} (there : m.snapshot? ≠ .ok none)
    (unread : ∀ s, m.snapshot? ≠ .ok (some s)) :
    ∃ message, m.snapshot? = .error (.decode m.identity message) := by
  cases carried : m.metadata.annotation? snapshotKey with
  | none => exact absurd (snapshot?_eq_none_iff_unset.mpr (.inl carried)) there
  | some text =>
    have nonempty : text ≠ "" := by
      rintro rfl
      exact there (snapshot?_eq_none_iff_unset.mpr (.inr carried))
    rcases snapshot?_of_carried carried nonempty with ⟨t, _, eq⟩ | ⟨message, _, eq⟩
    · exact absurd eq (unread t)
    · exact ⟨message, eq⟩

/-- A text of a value is no absent annotation. -/
theorem snapshot?_ne_none_of_hasText {m : Machine} {text : String} {j : Json}
    (carried : m.metadata.annotation? snapshotKey = some text) (h : j.HasText text) :
    m.snapshot? ≠ .ok none := by
  rw [ne_eq, snapshot?_eq_none_iff_unset, carried, Option.some.injEq]
  exact not_or.mpr ⟨nofun, h.ne_empty⟩

/-- Both readings fail, or both give the same snapshot. -/
def SameOutcome (x y : Except Error (Option Machine)) : Prop :=
  (∃ s, x = .ok (some s) ∧ y = .ok (some s)) ∨ ∃ e f, x = .error e ∧ y = .error f

/-- **Alike values that name each member once have the same outcome in all their texts.** -/
theorem sameOutcome_of_alike {m other : Machine} {text text' : String} {j k : Json}
    (carried : m.metadata.annotation? snapshotKey = some text)
    (carried' : other.metadata.annotation? snapshotKey = some text') (h : j.HasText text)
    (h' : k.HasText text') (once : j.NamesOnce) (once' : k.NamesOnce) (alike : Alike j k) :
    SameOutcome m.snapshot? other.snapshot? := by
  have same (s : Machine) : m.snapshot? = .ok (some s) ↔ other.snapshot? = .ok (some s) := by
    obtain ⟨depth, accepts⟩ := accepts_alike alike once once' (m := s)
    rw [snapshot?_of_hasText carried h, snapshot?_of_hasText carried' h', depth, accepts]
  by_cases read : ∃ s, m.snapshot? = .ok (some s)
  · obtain ⟨s, eq⟩ := read
    exact .inl ⟨s, eq, (same s).mp eq⟩
  · have unread : ∀ s, m.snapshot? ≠ .ok (some s) := not_exists.mp read
    obtain ⟨message, eq⟩ :=
      snapshot?_eq_error (snapshot?_ne_none_of_hasText carried h) unread
    obtain ⟨message', eq'⟩ := snapshot?_eq_error (snapshot?_ne_none_of_hasText carried' h')
      fun s eq => unread s ((same s).mpr eq)
    exact .inr ⟨_, _, eq, eq'⟩

/-- **A header of another kind of record is an error, whatever else there is.** -/
theorem snapshot?_of_foreign {m : Machine} {text : String} {members : List (String × Json)}
    {h : String × String} {found : Json}
    (carried : m.metadata.annotation? snapshotKey = some text)
    (hasText : (Json.obj members).HasText text) (mem : h ∈ header)
    (named : lastNamed? h.1 members = some found) (foreign : found ≠ .str h.2) :
    ∃ message, m.snapshot? = .error (.decode m.identity message) := by
  refine snapshot?_eq_error (snapshot?_ne_none_of_hasText carried hasText) fun s eq => ?_
  obtain ⟨_, accepted⟩ := (snapshot?_of_hasText carried hasText).mp eq
  have agrees := (accepts_obj_iff.mp accepted).1 h mem
  rw [named] at agrees
  rcases agrees with absent | said
  · cases absent
  · exact foreign (Option.some.inj said)

/-- **What is accepted as a snapshot.** Nothing is there if the annotation is not, or if it is
empty. A snapshot is there if the annotation is the text of a value that is accepted and not nested
too deep. In every other case an error names the machine that has the annotation. So alike values
that name each member once have the same outcome in all their texts, and a header of another kind
of record is an error whatever else there is. -/
theorem snapshot?_accepts (m : Machine) :
    (m.snapshot? = .ok none ↔ m.metadata.annotation? snapshotKey = none ∨
      m.metadata.annotation? snapshotKey = some "") ∧
    (∀ s, m.snapshot? = .ok (some s) ↔ ∃ text j,
      m.metadata.annotation? snapshotKey = some text ∧ j.HasText text ∧ j.depth ≤ depthLimit ∧
        Snapshot.Accepts j s) ∧
    (m.snapshot? ≠ .ok none → (∀ s, m.snapshot? ≠ .ok (some s)) →
      ∃ message, m.snapshot? = .error (.decode m.identity message)) ∧
    (∀ (other : Machine) (text text' : String) (j k : Json),
      m.metadata.annotation? snapshotKey = some text →
      other.metadata.annotation? snapshotKey = some text' → j.HasText text → k.HasText text' →
      j.NamesOnce → k.NamesOnce → Snapshot.Alike j k → SameOutcome m.snapshot? other.snapshot?) ∧
    (∀ (text : String) (members : List (String × Json)) (h : String × String) (found : Json),
      m.metadata.annotation? snapshotKey = some text → (Json.obj members).HasText text →
      h ∈ Snapshot.header → lastNamed? h.1 members = some found → found ≠ .str h.2 →
      ∃ message, m.snapshot? = .error (.decode m.identity message)) := by
  refine ⟨snapshot?_eq_none_iff_unset, fun s => snapshot?_eq_some_iff_accepts, snapshot?_eq_error,
    ?_, ?_⟩
  · intro other text text' j k carried carried' h h' once once' alike
    exact sameOutcome_of_alike carried carried' h h' once once' alike
  · intro text members h found carried hasText mem named foreign
    exact snapshot?_of_foreign carried hasText mem named foreign

/-- A machine of which nothing is known but the text under its annotation of snapshots. -/
def carrying (text : String) : Machine :=
  { metadata := ObjectMeta.annotate {} snapshotKey text }

/-- The empty machine is read from a text without header, and from one with its kind and its members
in another order; it is not read from one that has `null` for its kind. -/
theorem snapshot?_accepts_of_reordered :
    (Json.obj [("spec", .obj []), ("metadata", .obj [])]).HasText
        "\x7b\"spec\":\x7b\x7d,\"metadata\":\x7b\x7d\x7d" ∧
      (Json.obj [("metadata", .obj []), ("kind", .str "Machine"), ("spec", .obj [])]).HasText
        "\x7b\"metadata\": \x7b\x7d, \"kind\": \"Machine\", \"spec\": \x7b \x7d\x7d" ∧
      (Json.obj [("kind", .null), ("metadata", .obj []), ("spec", .obj [])]).HasText
        "\x7b\"kind\":null,\"metadata\":\x7b\x7d,\"spec\":\x7b\x7d\x7d" ∧
      (carrying "\x7b\"spec\":\x7b\x7d,\"metadata\":\x7b\x7d\x7d").snapshot? = .ok (some {}) ∧
      SameOutcome (carrying "\x7b\"spec\":\x7b\x7d,\"metadata\":\x7b\x7d\x7d").snapshot?
        (carrying
          "\x7b\"metadata\": \x7b\x7d, \"kind\": \"Machine\", \"spec\": \x7b \x7d\x7d").snapshot? ∧
      ∃ message,
        (carrying "\x7b\"kind\":null,\"metadata\":\x7b\x7d,\"spec\":\x7b\x7d\x7d").snapshot?
          = .error (.decode (carrying
          "\x7b\"kind\":null,\"metadata\":\x7b\x7d,\"spec\":\x7b\x7d\x7d").identity message) := by
  have carried (text : String) : (carrying text).metadata.annotation? snapshotKey = some text :=
    (ObjectMeta.annotation?_annotate {} _ _ _).trans (if_pos rfl)
  have bare : (Json.obj [("spec", .obj []), ("metadata", .obj [])]).HasText
      "\x7b\"spec\":\x7b\x7d,\"metadata\":\x7b\x7d\x7d" := Json.hasText_iff.mpr rfl
  have headed : (Json.obj [("metadata", .obj []), ("kind", .str "Machine"),
      ("spec", .obj [])]).HasText
      "\x7b\"metadata\": \x7b\x7d, \"kind\": \"Machine\", \"spec\": \x7b \x7d\x7d" :=
    Json.hasText_iff.mpr rfl
  have foreign : (Json.obj [("kind", .null), ("metadata", .obj []), ("spec", .obj [])]).HasText
      "\x7b\"kind\":null,\"metadata\":\x7b\x7d,\"spec\":\x7b\x7d\x7d" := Json.hasText_iff.mpr rfl
  have empty : (Json.obj []).NamesOnce := .obj .nil (List.forall_mem_nil _)
  have once : (Json.obj [("spec", .obj []), ("metadata", .obj [])]).NamesOnce :=
    .obj (by decide) (by simp [empty])
  have once' : (Json.obj [("metadata", .obj []), ("kind", .str "Machine"),
      ("spec", .obj [])]).NamesOnce := by
    have kind : (Json.str "Machine").NamesOnce := .scalar rfl
    exact .obj (by decide) (by simp [empty, kind])
  have accepted : Accepts (.obj [("spec", .obj []), ("metadata", .obj [])]) {} :=
    accepts_obj_iff.mpr ⟨fun h mem => .inl (by revert h; decide), rfl⟩
  obtain ⟨_, reads, _, alike, _⟩ :=
    snapshot?_accepts (carrying "\x7b\"spec\":\x7b\x7d,\"metadata\":\x7b\x7d\x7d")
  obtain ⟨_, _, _, _, refuses⟩ :=
    snapshot?_accepts (carrying "\x7b\"kind\":null,\"metadata\":\x7b\x7d,\"spec\":\x7b\x7d\x7d")
  refine ⟨bare, headed, foreign, ?_, ?_, ?_⟩
  · exact (reads {}).mpr ⟨_, _, carried _, bare, by decide, accepted⟩
  · exact alike _ _ _ _ _ (carried _) (carried _) bare headed once once' (.members (.swap _ _ _))
  · exact refuses _ _ ("kind", "Machine") .null (carried _) foreign (by decide) rfl nofun

end Machine

end NodeProvisioner
