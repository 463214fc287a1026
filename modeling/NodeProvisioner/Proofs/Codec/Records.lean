import NodeProvisioner.Codec.Record
import NodeProvisioner.Proofs.Json.Canonical

/-!
# Reading a record, member by member

A reader of a record goes through the members of an object in the order in which they stand there.
If no name stands there twice, the order does not matter: each member of the record is read from
the member of the object that has its name, or has the value that counts when there is none
(`Members.Reads`). Members of the object that the record does not know are passed over.

The reader fills slots, so the proof is about what the slots have gained (`Members.Gains`), first
from one member, then from all.
-/

namespace NodeProvisioner

/-! ## Results -/

section

variable {ε ε' α β : Type}

theorem bind_eq_ok_iff {x : Except ε α} {f : α → Except ε β} {b : β} :
    (x >>= f) = .ok b ↔ ∃ a, x = .ok a ∧ f a = .ok b := by
  cases x with
  | error e => exact ⟨nofun, fun ⟨_, h, _⟩ => nomatch h⟩
  | ok a => exact ⟨fun h => ⟨a, rfl, h⟩, fun ⟨_, rfl, h⟩ => h⟩

theorem bind_eq_error_iff {x : Except ε α} {f : α → Except ε β} {e : ε} :
    (x >>= f) = .error e ↔ x = .error e ∨ ∃ a, x = .ok a ∧ f a = .error e := by
  cases x with
  | error e' => exact ⟨fun h => .inl (congrArg Except.error (Except.error.inj h)),
      fun h => h.elim (fun h => congrArg Except.error (Except.error.inj h)) (fun ⟨_, h, _⟩ => nomatch h)⟩
  | ok a => exact ⟨fun h => .inr ⟨a, rfl, h⟩, fun h => h.elim nofun fun ⟨_, rfl, h⟩ => h⟩

theorem map_eq_ok_iff {x : Except ε α} {f : α → β} {b : β} :
    f <$> x = .ok b ↔ ∃ a, x = .ok a ∧ f a = b := by
  cases x with
  | error e => exact ⟨nofun, fun ⟨_, h, _⟩ => nomatch h⟩
  | ok a => exact ⟨fun h => ⟨a, rfl, Except.ok.inj h⟩, fun ⟨_, rfl, h⟩ => congrArg Except.ok h⟩

theorem mapError_eq_ok_iff {x : Except ε α} {f : ε → ε'} {a : α} :
    x.mapError f = .ok a ↔ x = .ok a := by
  cases x with
  | error e => exact ⟨nofun, nofun⟩
  | ok b => exact ⟨fun h => congrArg Except.ok (Except.ok.inj h), fun h => h ▸ rfl⟩

end

namespace Members

variable {τ σ : Type}

/-! ## Slots -/

/-- The slots are the same but for those whose members have been read. -/
def Gains : {τ σ : Type} → Members τ σ → (String → Option Json) → σ → σ → Prop
  | _, _, nil, _, _, _ => True
  | _, _, cons head tail, look, (slot, slots), (slot', slots') =>
    (match look head.name with
      | some j => ∃ a, head.codec.ofJson j = .ok a ∧ slot' = some a
      | Option.none => slot' = slot) ∧ tail.Gains look slots slots'

/-- The values of the record are read from the members of an object, or stand in for those that are
not there. -/
def Reads : {τ σ : Type} → Members τ σ → (String → Option Json) → τ → Prop
  | _, _, nil, _, _ => True
  | _, _, cons head tail, look, (a, as) =>
    (match look head.name with
      | some j => head.codec.ofJson j = .ok a
      | Option.none => head.absent = some a) ∧ tail.Reads look as

theorem gains_congr {look look' : String → Option Json} : ∀ {τ σ : Type} (ms : Members τ σ)
    {slots slots' : σ}, (∀ name ∈ ms.names, look name = look' name) →
    (ms.Gains look slots slots' ↔ ms.Gains look' slots slots')
  | _, _, nil, _, _, _ => Iff.rfl
  | _, _, cons head tail, (slot, slots), (slot', slots'), h => by
    have rest : tail.Gains look slots slots' ↔ tail.Gains look' slots slots' :=
      gains_congr tail fun name mem => h name (List.mem_cons_of_mem _ mem)
    rw [Gains, Gains, h head.name List.mem_cons_self, rest]

theorem reads_congr {look look' : String → Option Json} : ∀ {τ σ : Type} (ms : Members τ σ)
    {as : τ}, (∀ name ∈ ms.names, look name = look' name) → (ms.Reads look as ↔ ms.Reads look' as)
  | _, _, nil, _, _ => Iff.rfl
  | _, _, cons head tail, (a, as), h => by
    have rest : tail.Reads look as ↔ tail.Reads look' as :=
      reads_congr tail fun name mem => h name (List.mem_cons_of_mem _ mem)
    rw [Reads, Reads, h head.name List.mem_cons_self, rest]

theorem gains_nothing : ∀ {τ σ : Type} (ms : Members τ σ) {slots slots' : σ},
    ms.Gains (fun _ => Option.none) slots slots' ↔ slots' = slots
  | _, _, nil, (), () => ⟨fun _ => rfl, fun _ => trivial⟩
  | _, _, cons head tail, (slot, slots), (slot', slots') => by
    rw [Gains, gains_nothing tail, Prod.mk.injEq]

/-- What has been read is noted in the slots, and nothing else is. -/
theorem isFilled_of_gains {look : String → Option Json} {name : String}
    (other : look name = Option.none) : ∀ {τ σ : Type} (ms : Members τ σ) {slots slots' : σ},
    ms.Gains look slots slots' → ms.isFilled name slots' = ms.isFilled name slots
  | _, _, nil, _, _, _ => rfl
  | _, _, cons head tail, (slot, slots), (slot', slots'), h => by
    rw [isFilled, isFilled, isFilled_of_gains other tail h.2]
    split
    · rename_i same
      have slot := h.1
      rw [same, other] at slot
      rw [slot]
    · rfl

/-- The members of an object by their names. -/
def among (members : List (String × Json)) : String → Option Json :=
  fun name => members.lookup name

theorem among_cons (name : String) (j : Json) (rest : List (String × Json)) (other : String) :
    among ((name, j) :: rest) other = if other = name then some j else among rest other :=
  StringMap.lookup_cons_ite other name j rest

/-- The one member of an object. -/
def only (name : String) (j : Json) : String → Option Json :=
  fun other => if other = name then some j else Option.none

/-- Slots gain from one member, and then from the others. -/
theorem gains_cons {name : String} {j : Json} {rest : List (String × Json)}
    (once : among rest name = Option.none) : ∀ {τ σ : Type} (ms : Members τ σ) {slots slots' : σ},
    ms.Gains (among ((name, j) :: rest)) slots slots' ↔
      ∃ between, ms.Gains (only name j) slots between ∧ ms.Gains (among rest) between slots'
  | _, _, nil, _, _ => ⟨fun _ => ⟨(), trivial, trivial⟩, fun _ => trivial⟩
  | _, _, cons head tail, (slot, slots), (slot', slots') => by
    have rest' : tail.Gains (among ((name, j) :: rest)) slots slots' ↔
        ∃ between, tail.Gains (only name j) slots between ∧
          tail.Gains (among rest) between slots' := gains_cons once tail
    rw [Gains, rest', among_cons]
    -- the member of this name gains from the first, all others from the rest
    by_cases same : head.name = name
    · rw [if_pos same]
      constructor
      · rintro ⟨⟨a, read, rfl⟩, between, first, second⟩
        refine ⟨(some a, between), ⟨?_, first⟩, ?_, second⟩
        · simp only [only, if_pos same]
          exact ⟨a, read, rfl⟩
        · simp only [same, once]
      · rintro ⟨⟨slot₁, between⟩, ⟨first, firsts⟩, second, seconds⟩
        simp only [only, if_pos same] at first
        simp only [same, once] at second
        rw [second]
        exact ⟨first, between, firsts, seconds⟩
    · rw [if_neg same]
      constructor
      · rintro ⟨first, between, firsts, seconds⟩
        refine ⟨(slot, between), ⟨?_, firsts⟩, first, seconds⟩
        simp only [only, if_neg same]
      · rintro ⟨⟨slot₁, between⟩, ⟨first, firsts⟩, second, seconds⟩
        simp only [only, if_neg same] at first
        rw [first] at second
        exact ⟨second, between, firsts, seconds⟩

/-! ## One member -/

/-- A member that the record does not know has no slot. -/
theorem place_unknown {name : String} {node : Node} : ∀ {τ σ : Type} (ms : Members τ σ)
    {slots : σ}, name ∉ ms.names → ms.place name node slots = .ok Option.none
  | _, _, nil, _, _ => rfl
  | _, _, cons head tail, (slot, slots), h => by
    rw [names, List.mem_cons, not_or] at h
    rw [place, if_neg (Ne.symm h.1), place_unknown tail h.2]
    rfl

/-- **A member that the record knows is read into its slot.** -/
theorem place_eq_ok_iff {name : String} {j : Json} : ∀ {τ σ : Type} (ms : Members τ σ)
    {slots : σ} {r : Option σ}, ms.names.Nodup → name ∈ ms.names →
    (ms.place name j.toNode slots = .ok r ↔ ∃ after, r = some after ∧
      ms.Gains (only name j) slots after)
  | _, _, nil, _, _, _, known => absurd known (List.not_mem_nil)
  | _, _, cons head tail, (slot, slots), r, distinct, known => by
    rw [names, List.nodup_cons] at distinct
    rw [place]
    -- no later member has the same name, so there is only this slot to fill
    by_cases same : head.name = name
    · have others : ∀ other ∈ tail.names, only name j other = (fun _ => Option.none) other := by
        intro other mem
        exact if_neg fun eq : other = name => distinct.1 (same.trans eq.symm ▸ mem)
      rw [if_pos same, bind_eq_ok_iff]
      constructor
      · rintro ⟨a, read, ⟨⟩⟩
        refine ⟨_, rfl, ?_, (gains_congr tail others).mpr ((gains_nothing tail).mpr rfl)⟩
        simp only [only, if_pos same]
        exact ⟨a, mapError_eq_ok_iff.mp read, rfl⟩
      · rintro ⟨⟨slot', slots'⟩, rfl, first, rest⟩
        simp only [only, if_pos same] at first
        obtain ⟨a, read, rfl⟩ := first
        cases (gains_nothing tail).mp ((gains_congr tail others).mp rest)
        exact ⟨a, mapError_eq_ok_iff.mpr read, rfl⟩
    · have known' : name ∈ tail.names := by
        rw [names, List.mem_cons] at known
        exact known.resolve_left (Ne.symm same)
      rw [if_neg same, bind_eq_ok_iff]
      constructor
      · rintro ⟨placement, placed, ⟨⟩⟩
        obtain ⟨after, rfl, rest⟩ := (place_eq_ok_iff tail distinct.2 known').mp placed
        refine ⟨(slot, after), rfl, ?_, rest⟩
        simp only [only, if_neg same]
      · rintro ⟨⟨slot', slots'⟩, rfl, first, rest⟩
        simp only [only, if_neg same] at first
        refine ⟨some slots', (place_eq_ok_iff tail distinct.2 known').mpr ⟨slots', rfl, rest⟩, ?_⟩
        rw [first]
        rfl

/-! ## The whole record -/

theorem collect_cons_eq_ok_iff {α : Type} {head : Member α} {tail : Members τ σ}
    {slot : Option α} {slots : σ} {a : α} {as : τ} :
    (cons head tail).collect (slot, slots) = .ok (a, as) ↔
      (slot <|> head.absent) = some a ∧ tail.collect slots = .ok as := by
  rw [collect]
  cases slot <|> head.absent with
  | none => exact ⟨nofun, fun h => nomatch h.1⟩
  | some b =>
    refine bind_eq_ok_iff.trans ?_
    constructor
    · rintro ⟨bs, rest, ⟨⟩⟩
      exact ⟨rfl, rest⟩
    · rintro ⟨⟨⟩, rest⟩
      exact ⟨as, rest, rfl⟩

theorem collect_eq_ok_iff : ∀ {τ σ : Type} (ms : Members τ σ) {look : String → Option Json}
    {slots : σ} {as : τ}, ms.Gains look ms.none slots →
    (ms.collect slots = .ok as ↔ ms.Reads look as)
  | _, _, nil, _, _, _, _ => ⟨fun _ => trivial, fun _ => rfl⟩
  | _, _, cons head tail, look, (slot, slots), (a, as), h => by
    have rest : tail.collect slots = .ok as ↔ tail.Reads look as := collect_eq_ok_iff tail h.2
    have first := h.1
    rw [collect_cons_eq_ok_iff, rest, Reads]
    refine and_congr_left' ?_
    cases there : look head.name with
    | none =>
      simp only [there] at first
      rw [first]
      rfl
    | some j =>
      simp only [there] at first
      obtain ⟨b, read, rfl⟩ := first
      simp only [read]
      constructor
      · rintro ⟨⟩
        rfl
      · rintro ⟨⟩
        rfl

/-- What can be read fills the slots. -/
theorem exists_gains : ∀ {τ σ : Type} (ms : Members τ σ) {look : String → Option Json} {as : τ},
    ms.Reads look as → ∃ slots, ms.Gains look ms.none slots
  | _, _, nil, _, _, _ => ⟨(), trivial⟩
  | _, _, cons head tail, look, (a, as), h => by
    obtain ⟨slots, rest⟩ := exists_gains tail h.2
    have first := h.1
    cases there : look head.name with
    | none =>
      refine ⟨(Option.none, slots), ?_, rest⟩
      simp only [there]
    | some j =>
      refine ⟨(some a, slots), ?_, rest⟩
      simp only [there] at first ⊢
      exact ⟨a, first, rfl⟩

end Members

namespace Codec

open Members

variable {α τ σ : Type}

mutual

/-- Any value held in memory can be passed over. -/
theorem skip_toNode : ∀ j : Json, j.toNode.skip = .ok ()
  | .null => rfl
  | .bool _ => rfl
  | .int _ => rfl
  | .float _ => rfl
  | .str _ => rfl
  | .arr items => by
    rw [Json.toNode, Node.ofList, Node.skip, skip_itemNodes items]
    rfl
  | .obj members => by
    rw [Json.toNode, Node.ofEntries, Node.skip, skip_memberEntries members]
    rfl

theorem skip_itemNodes : ∀ js : List Json, Node.skipItems (Json.itemNodes js) = .ok ()
  | [] => rfl
  | j :: js => by
    rw [Json.itemNodes, Node.skipItems, skip_toNode j]
    exact skip_itemNodes js

theorem skip_memberEntries : ∀ ms : List (String × Json),
    Node.skipEntries (Json.memberEntries ms) = .ok ()
  | [] => rfl
  | (k, j) :: ms => by
    rw [Json.memberEntries, Node.skipEntries, skip_toNode j]
    exact skip_memberEntries ms

end

section

variable {format : RecordFormat} (unchecked : format.header.checked = false) {ms : Members τ σ}

include unchecked

/-- The first member is read into its slot, unless that must be free and is not, and then the others
are read. -/
theorem readMembers_cons_eq_ok_iff {name : String} {j : Json} {rest : List (String × Json)}
    {slots slots' : σ} :
    readMembers format ms (Json.memberEntries ((name, j) :: rest)) slots = .ok slots' ↔
      (format.once && ms.isFilled name slots) = false ∧
        ∃ r, ms.place name j.toNode slots = .ok r ∧
          readMembers format ms (Json.memberEntries rest) (r.getD slots) = .ok slots' := by
  have named : memberName (Node.ofScalar (.text name)) = .ok name := rfl
  rw [Json.memberEntries, readMembers]
  simp only [Entry.key, Entry.value, named, unchecked]
  refine bind_eq_ok_iff.trans ?_
  cases taken : format.once && ms.isFilled name slots with
  | true =>
    constructor
    · rintro ⟨_, ⟨⟩, h⟩
      rw [if_pos taken] at h
      cases h
    · rintro ⟨⟨⟩, _⟩
  | false =>
    have free : ¬ (format.once && ms.isFilled name slots) = true := Bool.eq_false_iff.mp taken
    refine Iff.trans ?_ (and_iff_right rfl).symm
    constructor
    · rintro ⟨_, ⟨⟩, h⟩
      rw [if_neg free] at h
      obtain ⟨r, placed, more⟩ := bind_eq_ok_iff.mp h
      refine ⟨r, placed, ?_⟩
      cases r with
      | none => rwa [skip_toNode j] at more
      | some between => exact more
    · rintro ⟨r, placed, more⟩
      refine ⟨name, rfl, ?_⟩
      rw [if_neg free]
      refine bind_eq_ok_iff.mpr ⟨r, placed, ?_⟩
      cases r with
      | none => rwa [skip_toNode j]
      | some between => exact more

/-- **The slots gain from the members of an object what they would gain from each by itself.** -/
theorem readMembers_eq_ok_iff (distinct : ms.names.Nodup) : ∀ {members : List (String × Json)}
    {slots slots' : σ}, (members.map (·.1)).Nodup →
    (∀ m ∈ members, ms.isFilled m.1 slots = false) →
    (readMembers format ms (Json.memberEntries members) slots = .ok slots' ↔
      ms.Gains (among members) slots slots')
  | [], slots, slots', _, _ => by
    have nothing : among [] = fun _ => Option.none := rfl
    rw [Json.memberEntries, readMembers, nothing, gains_nothing]
    exact ⟨fun h => (Except.ok.inj h).symm, fun h => congrArg Except.ok h.symm⟩
  | (name, j) :: rest, slots, slots', once, fresh => by
    rw [List.map_cons, List.nodup_cons] at once
    have others : ∀ m ∈ rest, m.1 ≠ name :=
      fun m mem same => once.1 (List.mem_map.mpr ⟨m, mem, same⟩)
    have absent : among rest name = Option.none := by
      rw [among, List.lookup_eq_none_iff]
      intro m mem
      simpa using Ne.symm (others m mem)
    rw [readMembers_cons_eq_ok_iff unchecked]
    have free : (format.once && ms.isFilled name slots) = false := by
      rw [fresh _ List.mem_cons_self, Bool.and_false]
    refine (and_iff_right free).trans ?_
    -- what the record does not know is passed over, and no slot gains from it
    by_cases known : name ∈ ms.names
    · have fresh' {between : σ} (first : ms.Gains (only name j) slots between) :
          ∀ m ∈ rest, ms.isFilled m.1 between = false := by
        intro m mem
        rw [isFilled_of_gains (if_neg (others m mem)) ms first]
        exact fresh m (List.mem_cons_of_mem _ mem)
      rw [gains_cons absent]
      constructor
      · rintro ⟨r, placed, more⟩
        obtain ⟨between, rfl, first⟩ := (place_eq_ok_iff ms distinct known).mp placed
        exact ⟨between, first, (readMembers_eq_ok_iff distinct once.2 (fresh' first)).mp more⟩
      · rintro ⟨between, first, second⟩
        exact ⟨some between, (place_eq_ok_iff ms distinct known).mpr ⟨between, rfl, first⟩,
          (readMembers_eq_ok_iff distinct once.2 (fresh' first)).mpr second⟩
    · have fresh' : ∀ m ∈ rest, ms.isFilled m.1 slots = false :=
        fun m mem => fresh m (List.mem_cons_of_mem _ mem)
      have same : ms.Gains (among ((name, j) :: rest)) slots slots' ↔
          ms.Gains (among rest) slots slots' := by
        refine gains_congr ms fun other mem => ?_
        rw [among_cons, if_neg fun eq : other = name => known (eq ▸ mem)]
      rw [place_unknown ms known, same, ← readMembers_eq_ok_iff distinct once.2 fresh']
      constructor
      · rintro ⟨_, ⟨⟩, more⟩
        exact more
      · exact fun more => ⟨Option.none, rfl, more⟩

end

theorem isFilled_none (name : String) : ∀ {τ σ : Type} (ms : Members τ σ),
    ms.isFilled name ms.none = false
  | _, _, nil => rfl
  | _, _, cons head tail => by
    rw [Members.none, isFilled, isFilled_none name tail]
    split <;> rfl

theorem readMap_eq_ok_iff {format : RecordFormat} {ms : Members τ σ} {entries : List Entry}
    {as : τ} : readMap format ms entries .unmarked = .ok as ↔
      ∃ slots, readMembers format ms entries ms.none = .ok slots ∧ ms.collect slots = .ok as := by
  refine bind_eq_ok_iff.trans (exists_congr fun slots => and_congr_right fun _ => ?_)
  cases ms.collect slots with
  | error cause =>
    constructor
    · intro h
      cases h
    · intro h
      cases h
  | ok bs => exact ⟨fun h => congrArg Except.ok (Except.ok.inj h),
      fun h => congrArg Except.ok (Except.ok.inj h)⟩

theorem ofJson_record_obj {format : RecordFormat} {ms : Members τ σ} {make : τ → α}
    {split : α → τ} {members : List (String × Json)} {a : α} :
    (record format ms make split).ofJson (.obj members) = .ok a ↔
      ∃ as, readMap format ms (Json.memberEntries members) .unmarked = .ok as ∧ make as = a :=
  map_eq_ok_iff

/-- **A record is read from an object member by member.** -/
theorem ofJson_record {format : RecordFormat} (unchecked : format.header.checked = false)
    {ms : Members τ σ} (distinct : ms.names.Nodup) {make : τ → α} {split : α → τ}
    {members : List (String × Json)} (once : (members.map (·.1)).Nodup) {a : α} :
    (record format ms make split).ofJson (.obj members) = .ok a ↔
      ∃ as, ms.Reads (among members) as ∧ make as = a := by
  have readSlots {slots : σ} : readMembers format ms (Json.memberEntries members) ms.none
      = .ok slots ↔ ms.Gains (among members) ms.none slots :=
    readMembers_eq_ok_iff unchecked distinct once fun m _ => isFilled_none m.1 ms
  refine ofJson_record_obj.trans (exists_congr fun as => and_congr_left fun _ => ?_)
  rw [readMap_eq_ok_iff]
  constructor
  · rintro ⟨slots, read, collected⟩
    exact (collect_eq_ok_iff ms (readSlots.mp read)).mp collected
  · intro reads
    obtain ⟨slots, gains⟩ := exists_gains ms reads
    exact ⟨slots, readSlots.mpr gains, (collect_eq_ok_iff ms gains).mpr reads⟩

/-- A record is read alike from objects that have the same members of its names. -/
theorem ofJson_record_congr {format : RecordFormat} (unchecked : format.header.checked = false)
    {ms : Members τ σ} (distinct : ms.names.Nodup) {make : τ → α} {split : α → τ}
    {members others : List (String × Json)} (once : (members.map (·.1)).Nodup)
    (once' : (others.map (·.1)).Nodup)
    (h : ∀ name ∈ ms.names, among members name = among others name) {a : α} :
    (record format ms make split).ofJson (.obj members) = .ok a ↔
      (record format ms make split).ofJson (.obj others) = .ok a := by
  rw [ofJson_record unchecked distinct once, ofJson_record unchecked distinct once']
  exact exists_congr fun as => and_congr_left' (reads_congr ms h)

end Codec

end NodeProvisioner
