import NodeProvisioner.Proofs.Codec.Machines
import NodeProvisioner.Proofs.Json.Printing

/-!
# Round trips

What a codec carries comes back from its canonical form, held in memory. Here it also comes back
from the text that is printed of it, in which the members of a record stand in the order of their
declaration: a reader fills one slot after the other, and passes over the slots of those members
that are hidden.

Main statements: `RoundTrips.readDocument_print`, and `roundTrips_record`.
-/

namespace NodeProvisioner

namespace Codec

open Json (Depicts ItemsDepict MembersDepict)

variable {α τ σ : Type}

/-- The value comes back from what the codec writes, in memory and from a text. -/
structure RoundTrips (c : Codec α) (depth : Nat) (a : α) : Prop extends c.Carries depth a where
  restores : ∀ n, (c.write a).Depicts n → c.read n = .ok a

theorem RoundTrips.mono {c : Codec α} {d e : Nat} {a : α} (h : c.RoundTrips d a) (le : d ≤ e) :
    c.RoundTrips e a := ⟨h.toCarries.mono le, h.restores⟩

/-- **The value comes back from its text.** -/
theorem RoundTrips.readDocument_print {c : Codec α} {a : α}
    (h : c.RoundTrips Json.depthLimit a) :
    Json.readDocument c.read (c.write a).print = .ok a := by
  obtain ⟨n, document, depicts⟩ := Json.exists_document_print h.plain h.shallow
  rw [Json.readDocument, document]
  exact bind_eq_ok_iff.mpr ⟨a, h.restores n depicts, rfl⟩

/-! ## Scalars -/

theorem roundTrips_text (d : Nat) (s : String) : text.RoundTrips d s := by
  refine ⟨carries_text d s, ?_⟩
  rintro _ ⟨extent, rfl⟩
  rfl

theorem roundTrips_bool (d : Nat) (b : Bool) : bool.RoundTrips d b := by
  refine ⟨carries_bool d b, ?_⟩
  rintro _ ⟨extent, rfl⟩
  rfl

theorem roundTrips_int64 (d : Nat) (n : Int64) : int64.RoundTrips d n := by
  refine ⟨carries_int64 d n, ?_⟩
  rintro _ ⟨extent, rfl⟩
  have least := Int64.le_toInt n
  have greatest := Int64.toInt_lt n
  have range : -0x8000000000000000 ≤ n.toInt ∧ n.toInt ≤ 0x7fffffffffffffff := ⟨least, by omega⟩
  have read : int64.read (.scalar (.int n.toInt) none extent) = .ok (Int64.ofInt n.toInt) :=
    if_pos range
  exact read.trans (by rw [Int64.ofInt_toInt])

/-- A name comes back if it is looked up as what it is the name of. -/
theorem roundTrips_choice {variants : List (String × α)} {nameOf : α → String} (d : Nat) {a : α}
    (named : variants.lookup (nameOf a) = some a) : (choice variants nameOf).RoundTrips d a := by
  have read (extent : Option Extent) :
      (choice variants nameOf).read (.scalar (.text (nameOf a)) none extent) = .ok a := by
    simp only [choice, named]
  refine ⟨⟨rfl, Nat.zero_le d, read none⟩, ?_⟩
  rintro _ ⟨extent, rfl⟩
  exact read extent

/-! ## Absent values -/

theorem isNull_of_depicts {j : Json} {n : Node} (h : j ≠ .null) (depicts : j.Depicts n) :
    n.isNull = false := by
  cases j with
  | null => exact absurd rfl h
  | arr items =>
    obtain ⟨_, _, _, rfl, _⟩ := depicts
    rfl
  | obj members =>
    obtain ⟨_, _, _, rfl, _⟩ := depicts
    rfl
  | _ =>
    obtain ⟨_, rfl⟩ := depicts
    rfl

theorem RoundTrips.some {c : Codec α} {d : Nat} {a : α} (h : c.RoundTrips d a)
    (ne : c.write a ≠ .null) : c.optional.RoundTrips d (some a) := by
  refine ⟨h.toCarries.some ne, fun n depicts => ?_⟩
  have present : ¬ n.isNull = true := Bool.eq_false_iff.mp (isNull_of_depicts ne depicts)
  refine (if_neg present).trans ?_
  rw [h.restores n depicts]
  rfl

/-! ## Lists and maps -/

theorem readItems_depicted {c : Codec α} {d : Nat} : ∀ (as : List α) (index : Nat)
    {nodes : List Node}, (∀ a ∈ as, c.RoundTrips d a) → ItemsDepict (as.map c.write) nodes →
    readItems c.read index nodes = .ok as
  | [], _, _, _, rfl => rfl
  | a :: as, index, _, h, ⟨n, more, rfl, depicts, others⟩ => by
    have first : c.read n = .ok a := (h a List.mem_cons_self).restores n depicts
    have rest := readItems_depicted as (index + 1)
      (fun b mem => h b (List.mem_cons_of_mem _ mem)) others
    rw [readItems, first, rest]
    rfl

/-- **The values of a list come back if its items do.** -/
theorem roundTrips_list {c : Codec α} {d : Nat} {as : List α} (h : ∀ a ∈ as, c.RoundTrips d a) :
    (list c).RoundTrips (d + 1) as := by
  refine ⟨carries_list fun a mem => (h a mem).toCarries, ?_⟩
  rintro _ ⟨nodes, first, ending, rfl, whole, items⟩
  refine bind_eq_ok_iff.mpr ⟨as, readItems_depicted as 0 h items, ?_⟩
  exact bind_eq_ok_iff.mpr ⟨(), whole, rfl⟩

theorem readEntries_depicted {c : Codec α} {d : Nat} : ∀ (es : List (String × α))
    {entries : List Entry}, (∀ e ∈ es, c.RoundTrips d e.2) →
    MembersDepict (es.map fun e => (e.1, c.write e.2)) entries →
    readEntries c.read entries = .ok es
  | [], _, _, rfl => rfl
  | (key, a) :: es, _, h, ⟨extent, n, afterKey, afterValue, more, rfl, depicts, others⟩ => by
    have first : c.read n = .ok a := (h (key, a) List.mem_cons_self).restores n depicts
    have rest := readEntries_depicted es (fun b mem => h b (List.mem_cons_of_mem _ mem)) others
    rw [readEntries]
    simp only [Entry.value]
    rw [first, rest]
    rfl

/-- **A map comes back if its values do.** -/
theorem roundTrips_dict {c : Codec α} {d : Nat} {m : StringMap α}
    (h : ∀ e ∈ m.entries, c.RoundTrips d e.2) : (dict c).RoundTrips (d + 1) m := by
  refine ⟨carries_dict fun e mem => (h e mem).toCarries, ?_⟩
  rintro _ ⟨entries, first, ending, rfl, whole, members⟩
  refine bind_eq_ok_iff.mpr ⟨m.entries, readEntries_depicted m.entries h members, ?_⟩
  refine bind_eq_ok_iff.mpr ⟨(), whole, ?_⟩
  exact congrArg Except.ok (StringMap.ofList_entries m)

end Codec

/-! ## Records -/

/-- The value of a member comes back, or is hidden and counts when the member is absent. -/
def Member.RoundTrips {α : Type} (member : Member α) (d : Nat) (a : α) : Prop :=
  if member.hidden a = true then member.absent = some a else member.codec.RoundTrips d a

theorem Member.RoundTrips.carries {α : Type} {member : Member α} {d : Nat} {a : α}
    (h : member.RoundTrips d a) : member.Carries d a := by
  unfold Member.RoundTrips at h
  unfold Member.Carries
  split
  · rename_i hidden
    exact (if_pos hidden).mp h
  · rename_i shown
    exact ((if_neg shown).mp h).toCarries

namespace Members

open Codec Json

variable {τ σ : Type}

/-- The values of all members come back. -/
def RoundTrip : {τ σ : Type} → Members τ σ → Nat → τ → Prop
  | _, _, nil, _, _ => True
  | _, _, cons head tail, d, (a, as) => head.RoundTrips d a ∧ tail.RoundTrip d as

theorem RoundTrip.carry {d : Nat} : ∀ {τ σ : Type} {ms : Members τ σ} {as : τ},
    ms.RoundTrip d as → ms.Carry d as
  | _, _, nil, _, _ => trivial
  | _, _, cons _ _, (_, _), h => ⟨h.1.carries, h.2.carry⟩

/-- The slots of a record that has been written: those of hidden members are free. -/
def filled : {τ σ : Type} → Members τ σ → τ → σ
  | _, _, nil, _ => ()
  | _, _, cons head tail, (a, as) =>
    (if head.hidden a = true then Option.none else some a, tail.filled as)

theorem collect_filled {d : Nat} : ∀ {τ σ : Type} (ms : Members τ σ) (as : τ),
    ms.RoundTrip d as → ms.collect (ms.filled as) = .ok as
  | _, _, nil, _, _ => rfl
  | _, _, cons head tail, (a, as), h => by
    refine collect_cons_eq_ok_iff.mpr ⟨?_, collect_filled tail as h.2⟩
    split
    · rename_i hidden
      exact (if_pos hidden).mp h.1
    · rfl

/-- The first entry is read into its slot, which must be free if members may be there only once, and
then the others are read. -/
theorem readMembers_depicted_iff {format : RecordFormat} (unchecked : format.header.checked = false)
    {ms : Members τ σ} {name : String} {extent : Option Extent} {n : Node}
    {afterKey afterValue : Option Place} {more : List Entry} {slots slots' : σ} :
    readMembers format ms
        (.mk (.scalar (.text name) Option.none extent) n afterKey afterValue :: more) slots
        = .ok slots' ↔
      (format.once && ms.isFilled name slots) = false ∧
        ∃ r, ms.place name n slots = .ok r ∧ (r = Option.none → n.skip = .ok ()) ∧
          readMembers format ms more (r.getD slots) = .ok slots' := by
  have named : memberName (.scalar (.text name) Option.none extent) = .ok name := rfl
  rw [readMembers]
  simp only [Entry.key, Entry.value, named, unchecked]
  refine bind_eq_ok_iff.trans ⟨?_, ?_⟩
  · rintro ⟨_, ⟨⟩, h⟩
    split at h
    · cases h
    · rename_i free
      obtain ⟨r, placed, h⟩ := bind_eq_ok_iff.mp h
      refine ⟨Bool.eq_false_iff.mpr free, r, placed, ?_⟩
      cases r with
      | none =>
        obtain ⟨_, skipped, h⟩ := bind_eq_ok_iff.mp h
        exact ⟨fun _ => skipped, h⟩
      | some slots => exact ⟨fun unknown => absurd unknown (Option.some_ne_none slots), h⟩
  · rintro ⟨free, r, placed, skipped, h⟩
    refine ⟨name, rfl, ?_⟩
    rw [if_neg (Bool.eq_false_iff.mp free)]
    refine bind_eq_ok_iff.mpr ⟨r, placed, ?_⟩
    cases r with
    | none => exact bind_eq_ok_iff.mpr ⟨(), skipped rfl, h⟩
    | some slots => exact h

/-- What does not have the name of the first member is read into the slots of the others. -/
theorem readMembers_others {format : RecordFormat} (unchecked : format.header.checked = false)
    {α : Type} {head : Member α} {tail : Members τ σ} (slot : Option α) :
    ∀ {members : List (String × Json)} {entries : List Entry} {slots slots' : σ},
    MembersDepict members entries → (∀ m ∈ members, m.1 ≠ head.name) →
    readMembers format tail entries slots = .ok slots' →
    readMembers format (cons head tail) entries (slot, slots) = .ok (slot, slots')
  | [], _, slots, slots', rfl, _, h => by
    cases h
    rfl
  | (name, j) :: rest, _, slots, slots', ⟨_, n, _, _, more, rfl, _, others⟩, apart, h => by
    obtain ⟨other, apart⟩ := List.forall_mem_cons.mp apart
    have other : ¬ head.name = name := Ne.symm other
    obtain ⟨free, r, placed, skipped, h⟩ := (readMembers_depicted_iff unchecked).mp h
    refine (readMembers_depicted_iff unchecked).mpr ⟨?_, r.map (slot, ·), ?_, ?_, ?_⟩
    · rwa [isFilled, if_neg other]
    · rw [place, if_neg other, placed]
      rfl
    · intro unknown
      exact skipped (Option.map_eq_none_iff.mp unknown)
    · have rest := readMembers_others unchecked slot others apart h
      cases r <;> exact rest

/-- **What has been written of the members fills their slots.** -/
theorem readMembers_write {format : RecordFormat} (unchecked : format.header.checked = false)
    {d : Nat} : ∀ {τ σ : Type} (ms : Members τ σ) (as : τ) {entries : List Entry},
    ms.names.Nodup → ms.RoundTrip d as → MembersDepict (ms.write as) entries →
    readMembers format ms entries ms.none = .ok (ms.filled as)
  | _, _, nil, _, _, _, _, rfl => rfl
  | _, _, cons head tail, (a, as), entries, distinct, h, depicts => by
    rw [names, List.nodup_cons] at distinct
    have apart : ∀ m ∈ tail.write as, m.1 ≠ head.name := fun m mem same =>
      distinct.1 ((names_write tail as).subset (List.mem_map.mpr ⟨m, mem, same⟩))
    by_cases hidden : head.hidden a = true
    · rw [write_cons_hidden hidden] at depicts
      have rest := readMembers_write unchecked tail as distinct.2 h.2 depicts
      rw [none, filled, if_pos hidden]
      exact readMembers_others unchecked _ depicts apart rest
    · rw [write_cons_shown hidden] at depicts
      obtain ⟨extent, n, afterKey, afterValue, more, rfl, first, others⟩ := depicts
      have rest := readMembers_write unchecked tail as distinct.2 h.2 others
      have own : head.codec.read n = .ok a := ((if_neg hidden).mp h.1).restores n first
      rw [none, filled, if_neg hidden]
      refine (readMembers_depicted_iff unchecked).mpr
        ⟨?_, some (some a, tail.none), ?_, ?_, readMembers_others unchecked _ others apart rest⟩
      · rw [isFilled, if_pos rfl]
        exact Bool.and_false _
      · rw [place, if_pos rfl, own]
        rfl
      · intro unknown
        exact absurd unknown (Option.some_ne_none _)

end Members

namespace Codec

open Members

variable {α τ σ : Type}

/-- **A record comes back if the values of its members do.** -/
theorem roundTrips_record {format : RecordFormat} (bare : format.header.members = [])
    (unchecked : format.header.checked = false) {ms : Members τ σ} (distinct : ms.names.Nodup)
    {make : τ → α} {split : α → τ} {d : Nat} {a : α} (remade : make (split a) = a)
    (h : ms.RoundTrip d (split a)) : (record format ms make split).RoundTrips (d + 1) a := by
  have all : (format.header.members.map (·.1) ++ ms.names).Nodup := by rwa [bare]
  refine ⟨carries_record unchecked all remade h.carry, fun n depicts => ?_⟩
  obtain ⟨entries, first, ending, rfl, whole, members⟩ := depicts
  rw [bare] at members
  have read : readMap format ms entries ending = .ok (split a) := by
    refine bind_eq_ok_iff.mpr ⟨ms.filled (split a),
      readMembers_write unchecked ms (split a) distinct h members, ?_⟩
    refine bind_eq_ok_iff.mpr ⟨(), whole, ?_⟩
    rw [collect_filled ms (split a) h]
    rfl
  exact map_eq_ok_iff.mpr ⟨split a, read, remade⟩

end Codec

/-! ## Members -/

namespace Member

variable {α : Type} {name : String} {c : Codec α} {d : Nat}

theorem roundTrips_required {a : α} (h : c.RoundTrips d a) : (required name c).RoundTrips d a :=
  (if_neg Bool.false_ne_true).mpr h

theorem roundTrips_defaulted {a default : α} (h : c.RoundTrips d a) :
    (defaulted name c default).RoundTrips d a := (if_neg Bool.false_ne_true).mpr h

theorem roundTrips_omitted {a default : α} {hidden : α → Bool} (h : c.RoundTrips d a)
    (hides : hidden a = true → a = default) :
    (omitted name c default hidden).RoundTrips d a := by
  unfold Member.RoundTrips
  split
  · rename_i eq
    exact congrArg some (hides eq).symm
  · exact h

theorem roundTrips_optional {a : Option α}
    (h : ∀ b, a = some b → c.RoundTrips d b ∧ c.write b ≠ .null) :
    (optional name c).RoundTrips d a := by
  cases a with
  | none => rfl
  | some b => exact (h b rfl).1.some (h b rfl).2

/-- A text that may be absent. -/
theorem roundTrips_textOption (a : Option String) :
    (optional name Codec.text).RoundTrips d a :=
  roundTrips_optional fun b _ => ⟨Codec.roundTrips_text d b, nofun⟩

end Member

end NodeProvisioner
