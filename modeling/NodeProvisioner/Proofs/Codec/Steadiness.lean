import NodeProvisioner.Proofs.Codec.Records
import NodeProvisioner.Provider.Spec

/-!
# Codecs that do not mind a stand-in

A codec is *steady* if a value that it has read once is read from every value that resembles the
first: where it asks for an integer, a text or a name, there is no loose number that a reader could
have replaced, and what it passes over may be anything.

Main statement: what a machine asks for is read steadily.
-/

namespace NodeProvisioner

namespace Codec

variable {α τ σ : Type}

/-- What the codec reads from a value it reads from all values that resemble it. -/
def Steady (c : Codec α) : Prop :=
  ∀ ⦃j k : Json⦄ ⦃a : α⦄, j.Resembles k → c.ofJson j = .ok a → c.ofJson k = .ok a

/-! ## Scalars -/

theorem ofJson_textOf {expected : String} {j : Json} {s : String}
    (h : (textOf expected).ofJson j = .ok s) : j = .str s := by
  cases j with
  | str t =>
    cases h
    rfl
  | _ => cases h

theorem steady_textOf (expected : String) : (textOf expected).Steady := by
  intro j k s alike h
  obtain rfl := ofJson_textOf h
  rw [Json.Resembles] at alike
  rw [alike]
  exact h

theorem steady_text : text.Steady := steady_textOf _

theorem ofJson_int64 {j : Json} {n : Int64} (h : int64.ofJson j = .ok n) :
    ∃ i, j = .int i ∧ Json.Fits i := by
  cases j with
  | int i =>
    refine ⟨i, rfl, ?_⟩
    have read : int64.ofJson (.int i)
        = if -0x8000000000000000 ≤ i ∧ i ≤ 0x7fffffffffffffff then .ok (Int64.ofInt i)
          else .error ((Node.ofScalar (.int i)).refusal (.wrongValue (.int i) "i64")) := rfl
    rw [read] at h
    split at h
    · rename_i range
      exact ⟨range.1, by omega⟩
    · cases h
  | _ => cases h

theorem steady_int64 : int64.Steady := by
  intro j k n alike h
  obtain ⟨i, rfl, fits⟩ := ofJson_int64 h
  rw [Json.Resembles, if_pos fits] at alike
  rw [alike]
  exact h

/-- A name stands by itself, or is the only key of a map without a value. -/
theorem ofJson_choice {variants : List (String × α)} {nameOf : α → String} {j : Json} {a : α}
    (h : (choice variants nameOf).ofJson j = .ok a) :
    (∃ s, j = .str s) ∨ ∃ s, j = .obj [(s, .null)] := by
  cases j with
  | str s => exact .inl ⟨s, rfl⟩
  | obj members =>
    match members with
    | [] => cases h
    | [(s, v)] =>
      right
      refine ⟨s, ?_⟩
      cases v with
      | null => rfl
      | _ =>
        exfalso
        unfold ofJson choice at h
        simp only [Json.toNode, Json.memberEntries, Node.ofEntries, Node.ofScalar, bind,
          Except.bind] at h
        cases found : variants.lookup s <;> simp only [found] at h <;> cases h
    | _ :: _ :: _ => cases h
  | _ => cases h

theorem steady_choice (variants : List (String × α)) (nameOf : α → String) :
    (choice variants nameOf).Steady := by
  intro j k a alike h
  -- neither form has anything in it that a reader could replace
  rcases ofJson_choice h with ⟨s, rfl⟩ | ⟨s, rfl⟩
  · rw [Json.Resembles] at alike
    rw [alike]
    exact h
  · rw [Json.Resembles] at alike
    obtain ⟨_, rfl, v, _, rfl, rfl, rfl⟩ := alike
    exact h

/-! ## Lists -/

theorem readItems_steady {c : Codec α} (steady : c.Steady) : ∀ (index : Nat) (js ks : List Json)
    {as : List α}, Json.ItemsResemble js ks →
    readItems c.read index (Json.itemNodes js) = .ok as →
    readItems c.read index (Json.itemNodes ks) = .ok as
  | _, [], _, _, alike, h => by
    cases alike
    exact h
  | index, j :: js, _, as, alike, h => by
    obtain ⟨k, ks, rfl, first, rest⟩ := alike
    rw [Json.itemNodes, readItems] at h ⊢
    obtain ⟨a, read, h⟩ := bind_eq_ok_iff.mp h
    obtain ⟨more, others, h⟩ := bind_eq_ok_iff.mp h
    have read' : c.read k.toNode = .ok a := steady first (mapError_eq_ok_iff.mp read)
    have others' := readItems_steady steady (index + 1) js ks rest others
    exact bind_eq_ok_iff.mpr ⟨a, mapError_eq_ok_iff.mpr read',
      bind_eq_ok_iff.mpr ⟨more, others', h⟩⟩

theorem ofJson_list_arr {c : Codec α} {items : List Json} {as : List α} :
    (list c).ofJson (.arr items) = .ok as ↔ readItems c.read 0 (Json.itemNodes items) = .ok as := by
  refine bind_eq_ok_iff.trans ⟨?_, fun h => ⟨as, h, rfl⟩⟩
  rintro ⟨_, h, ⟨⟩⟩
  exact h

theorem ofJson_list {c : Codec α} {j : Json} {as : List α} (h : (list c).ofJson j = .ok as) :
    ∃ items, j = .arr items ∧ readItems c.read 0 (Json.itemNodes items) = .ok as := by
  cases j with
  | arr items => exact ⟨items, rfl, ofJson_list_arr.mp h⟩
  | _ => cases h

theorem Steady.list {c : Codec α} (steady : c.Steady) : (list c).Steady := by
  intro j k as alike h
  obtain ⟨items, rfl, read⟩ := ofJson_list h
  rw [Json.Resembles] at alike
  obtain ⟨others, rfl, alike⟩ := alike
  exact ofJson_list_arr.mpr (readItems_steady steady 0 items others alike read)

end Codec

/-! ## Records -/

namespace Members

open Codec

/-- The values of all members are read steadily. -/
def Steady : {τ σ : Type} → Members τ σ → Prop
  | _, _, nil => True
  | _, _, cons head tail => head.codec.Steady ∧ tail.Steady

theorem place_steady {name : String} {j k : Json} (alike : j.Resembles k) :
    ∀ {τ σ : Type} (ms : Members τ σ) {slots : σ} {r : Option σ}, ms.Steady →
    ms.place name j.toNode slots = .ok r → ms.place name k.toNode slots = .ok r
  | _, _, nil, _, _, _, h => h
  | _, _, cons head tail, (slot, slots), r, steady, h => by
    rw [place] at h ⊢
    by_cases same : head.name = name
    · rw [if_pos same] at h ⊢
      obtain ⟨a, read, placed⟩ := bind_eq_ok_iff.mp h
      have read' : head.codec.read k.toNode = .ok a := steady.1 alike (mapError_eq_ok_iff.mp read)
      exact bind_eq_ok_iff.mpr ⟨a, mapError_eq_ok_iff.mpr read', placed⟩
    · rw [if_neg same] at h ⊢
      obtain ⟨placement, read, placed⟩ := bind_eq_ok_iff.mp h
      exact bind_eq_ok_iff.mpr ⟨placement, place_steady alike tail steady.2 read, placed⟩

theorem readItems_steady {tooShort : Nat → Fault} {ending : Ending} : ∀ {τ σ : Type}
    (ms : Members τ σ) (index : Nat) (js ks : List Json) {as : τ} {rest : List Node}, ms.Steady →
    Json.ItemsResemble js ks →
    ms.readItems tooShort ending index (Json.itemNodes js) = .ok (as, rest) →
    ∃ rest', ms.readItems tooShort ending index (Json.itemNodes ks) = .ok (as, rest') ∧
      (rest = [] → rest' = [])
  | _, _, nil, _, js, ks, _, _, _, alike, h => by
    rw [readItems] at h
    cases h
    refine ⟨_, rfl, ?_⟩
    intro empty
    cases js with
    | nil =>
      cases alike
      rfl
    | cons j js => cases empty
  | _, _, cons head tail, index, [], _, as, rest, steady, alike, h => by
    cases alike
    exact ⟨rest, h, id⟩
  | _, _, cons head tail, index, j :: js, _, (a, as), rest, steady, alike, h => by
    obtain ⟨k, ks, rfl, first, others⟩ := alike
    rw [Json.itemNodes, readItems] at h ⊢
    obtain ⟨b, read, h⟩ := bind_eq_ok_iff.mp h
    obtain ⟨⟨bs, left⟩, more, h⟩ := bind_eq_ok_iff.mp h
    cases h
    have read' : head.codec.read k.toNode = .ok a := steady.1 first (mapError_eq_ok_iff.mp read)
    obtain ⟨left', more', empty⟩ :=
      readItems_steady tail (index + 1) js ks steady.2 others more
    refine ⟨left', ?_, empty⟩
    exact bind_eq_ok_iff.mpr ⟨a, mapError_eq_ok_iff.mpr read',
      bind_eq_ok_iff.mpr ⟨(as, left'), more', rfl⟩⟩

end Members

namespace Codec

open Members

variable {α τ σ : Type}

theorem readMembers_steady {format : RecordFormat} (unchecked : format.header.checked = false)
    {ms : Members τ σ} (steady : ms.Steady) : ∀ (members others : List (String × Json))
    {slots slots' : σ}, Json.MembersResemble members others →
    readMembers format ms (Json.memberEntries members) slots = .ok slots' →
    readMembers format ms (Json.memberEntries others) slots = .ok slots'
  | [], _, _, _, alike, h => by
    cases alike
    exact h
  | (name, j) :: members, _, slots, slots', alike, h => by
    obtain ⟨k, others, rfl, first, rest⟩ := alike
    obtain ⟨free, r, placed, more⟩ := (readMembers_cons_eq_ok_iff unchecked).mp h
    exact (readMembers_cons_eq_ok_iff unchecked).mpr ⟨free, r,
      place_steady first ms steady placed,
      readMembers_steady unchecked steady members others rest more⟩

theorem readMap_steady {format : RecordFormat} (unchecked : format.header.checked = false)
    {ms : Members τ σ} (steady : ms.Steady) {members others : List (String × Json)}
    (alike : Json.MembersResemble members others) {as : τ}
    (h : readMap format ms (Json.memberEntries members) .unmarked = .ok as) :
    readMap format ms (Json.memberEntries others) .unmarked = .ok as := by
  obtain ⟨slots, read, collected⟩ := readMap_eq_ok_iff.mp h
  exact readMap_eq_ok_iff.mpr ⟨slots, readMembers_steady unchecked steady members others alike read,
    collected⟩

theorem readPositions_steady {format : RecordFormat} {ms : Members τ σ} (steady : ms.Steady)
    {items others : List Json} (alike : Json.ItemsResemble items others) {as : τ}
    (h : readPositions format ms (Json.itemNodes items) .unmarked = .ok as) :
    readPositions format ms (Json.itemNodes others) .unmarked = .ok as := by
  unfold readPositions at h ⊢
  obtain ⟨⟨bs, left⟩, read, h⟩ := bind_eq_ok_iff.mp h
  obtain ⟨left', read', empty⟩ := Members.readItems_steady ms 0 items others steady alike read
  refine bind_eq_ok_iff.mpr ⟨(bs, left'), read', ?_⟩
  cases left with
  | nil =>
    rw [empty rfl]
    exact h
  | cons next more => cases h

/-- **A record is read steadily if its members are.** -/
theorem steady_record {format : RecordFormat} (unchecked : format.header.checked = false)
    {ms : Members τ σ} (steady : ms.Steady) {make : τ → α} {split : α → τ} :
    (record format ms make split).Steady := by
  intro j k a alike h
  cases j with
  | obj members =>
    rw [Json.Resembles] at alike
    obtain ⟨others, rfl, alike⟩ := alike
    obtain ⟨as, read, made⟩ := ofJson_record_obj.mp h
    exact ofJson_record_obj.mpr ⟨as, readMap_steady unchecked steady alike read, made⟩
  | arr items =>
    rw [Json.Resembles] at alike
    obtain ⟨others, rfl, alike⟩ := alike
    have unfolded (items : List Json) : (record format ms make split).ofJson (.arr items)
        = if Language.json = .json ∧ format.positional = true then
            make <$> readPositions format ms (Json.itemNodes items) .unmarked
          else .error ((Json.arr items).toNode.mismatch format.expected) := rfl
    rw [unfolded] at h ⊢
    split at h
    · rename_i positional
      rw [if_pos positional]
      obtain ⟨as, read, made⟩ := map_eq_ok_iff.mp h
      exact map_eq_ok_iff.mpr ⟨as, readPositions_steady steady alike read, made⟩
    · cases h
  | _ => cases h

/-! ## What a machine asks for -/

theorem steady_disk : disk.Steady := by
  have params : diskParams.Steady := by
    refine steady_record rfl ?_
    exact ⟨steady_int64, steady_text, trivial⟩
  refine steady_record rfl ?_
  exact ⟨params, trivial⟩

/-- **What a machine asks for is read steadily.** -/
theorem steady_machineProviderSpec : machineProviderSpec.Steady := by
  refine steady_record rfl ?_
  exact ⟨(steady_choice _ _).list, steady_text, steady_text, steady_text, steady_disk.list,
    steady_text, trivial⟩

end Codec

end NodeProvisioner
