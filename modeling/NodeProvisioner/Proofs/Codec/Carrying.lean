import NodeProvisioner.Json.Reader
import NodeProvisioner.Proofs.Codec.Records
import NodeProvisioner.Proofs.Time.Timestamps
import NodeProvisioner.Resource.ObjectMeta

/-!
# What codecs carry

A codec *carries* a value to a depth if the value it writes is plain and nested no deeper, and is
read back from its canonical form. That is what a printed text needs to be read back, and it passes
from the codecs of parts to that of the whole: to a list of items, to a map, and to a record whose
hidden members have the values that count when they are absent.
-/

namespace NodeProvisioner

namespace Codec

variable {α τ σ : Type}

/-- The value comes back from what the codec writes, and that can be printed. -/
structure Carries (c : Codec α) (depth : Nat) (a : α) : Prop where
  plain : (c.write a).isPlain = true
  shallow : (c.write a).depth ≤ depth
  reads : c.ofJson (c.write a).canonical = .ok a

theorem Carries.mono {c : Codec α} {d e : Nat} {a : α} (h : c.Carries d a) (le : d ≤ e) :
    c.Carries e a := ⟨h.plain, Nat.le_trans h.shallow le, h.reads⟩

/-! ## Scalars -/

theorem carries_textOf (expected : String) (d : Nat) (s : String) :
    (textOf expected).Carries d s := ⟨rfl, Nat.zero_le d, rfl⟩

theorem carries_text (d : Nat) (s : String) : text.Carries d s := carries_textOf _ d s

theorem carries_bool (d : Nat) (b : Bool) : bool.Carries d b := ⟨rfl, Nat.zero_le d, rfl⟩

theorem carries_int64 (d : Nat) (n : Int64) : int64.Carries d n := by
  have least := Int64.le_toInt n
  have greatest := Int64.toInt_lt n
  refine ⟨?_, Nat.zero_le d, ?_⟩
  · exact decide_eq_true (show Json.Fits n.toInt from ⟨least, by omega⟩)
  · have range : -0x8000000000000000 ≤ n.toInt ∧ n.toInt ≤ 0x7fffffffffffffff :=
      ⟨least, by omega⟩
    have read : int64.ofJson (.int n.toInt) = .ok (Int64.ofInt n.toInt) := if_pos range
    exact read.trans (by rw [Int64.ofInt_toInt])

/-- Any plain value is carried that has its members sorted. -/
theorem carries_any {d : Nat} {j : Json} (plain : j.isPlain = true) (shallow : j.depth ≤ d)
    (sorted : j.canonical = j) : any.Carries d j := by
  refine ⟨plain, shallow, ?_⟩
  have read : any.ofJson (any.write j).canonical = .ok j.canonical.canonical :=
    Json.ofNode_toNode j.canonical
  rw [read, sorted, sorted]

/-- A text in a format of its own is carried if it is read back. -/
theorem carries_formatted {expected : String} {parse : String → Except String α}
    {print : α → String} {a : α} (d : Nat) (h : parse (print a) = .ok a) :
    (formatted expected parse print).Carries d a := by
  refine ⟨rfl, Nat.zero_le d, bind_eq_ok_iff.mpr ⟨print a, rfl, ?_⟩⟩
  rw [h]
  rfl

theorem carries_timestamp (d : Nat) {t : Timestamp} (whole : t.IsWhole) :
    timestamp.Carries d t := by
  refine carries_formatted d ?_
  rw [Timestamp.parse_print whole]
  rfl

/-! ## Absent values -/

theorem isNull_toNode {j : Json} (h : j ≠ .null) : j.toNode.isNull = false := by
  cases j with
  | null => exact absurd rfl h
  | _ => rfl

theorem canonical_ne_null {j : Json} (h : j ≠ .null) : j.canonical ≠ .null := by
  cases j with
  | null => exact absurd rfl h
  | _ => exact nofun

theorem Carries.some {c : Codec α} {d : Nat} {a : α} (h : c.Carries d a)
    (ne : c.write a ≠ .null) : c.optional.Carries d (some a) := by
  refine ⟨h.plain, h.shallow, ?_⟩
  have read : c.optional.ofJson (c.write a).canonical
      = if (c.write a).canonical.toNode.isNull then .ok none
        else Option.some <$> c.ofJson (c.write a).canonical := rfl
  refine Eq.trans read ?_
  rw [isNull_toNode (canonical_ne_null ne), h.reads]
  rfl

theorem Carries.orElse {c : Codec α} {d : Nat} {a : α} (h : c.Carries d a)
    (ne : c.write a ≠ .null) (default : α) : (c.orElse default).Carries d a := by
  refine ⟨h.plain, h.shallow, ?_⟩
  have read : (c.orElse default).ofJson (c.write a).canonical
      = c.ofJson (c.write a).canonical := by
    have ne := canonical_ne_null ne
    cases eq : (c.write a).canonical with
    | null => exact absurd eq ne
    | _ => rfl
  exact read.trans h.reads

/-! ## Lists and maps -/

theorem readItems_carried {c : Codec α} {d : Nat} : ∀ (as : List α) (index : Nat),
    (∀ a ∈ as, c.Carries d a) →
    readItems c.read index (Json.itemNodes (Json.canonicalItems (as.map c.write))) = .ok as
  | [], _, _ => rfl
  | a :: as, index, h => by
    have first : c.read (c.write a).canonical.toNode = .ok a := (h a List.mem_cons_self).reads
    have rest := readItems_carried as (index + 1) fun b mem => h b (List.mem_cons_of_mem _ mem)
    rw [List.map_cons, Json.canonicalItems, Json.itemNodes, readItems, first, rest]
    rfl

theorem itemsPlain_carried {c : Codec α} {d : Nat} : ∀ as : List α,
    (∀ a ∈ as, c.Carries d a) → Json.itemsPlain (as.map c.write) = true
  | [], _ => rfl
  | a :: as, h => by
    rw [List.map_cons, Json.itemsPlain, (h a List.mem_cons_self).plain, Bool.true_and]
    exact itemsPlain_carried as fun b mem => h b (List.mem_cons_of_mem _ mem)

theorem itemsDepth_carried {c : Codec α} {d : Nat} : ∀ as : List α,
    (∀ a ∈ as, c.Carries d a) → Json.itemsDepth (as.map c.write) ≤ d
  | [], _ => Nat.zero_le d
  | a :: as, h => by
    rw [List.map_cons, Json.itemsDepth]
    exact Nat.max_le.mpr ⟨(h a List.mem_cons_self).shallow,
      itemsDepth_carried as fun b mem => h b (List.mem_cons_of_mem _ mem)⟩

/-- **A list is carried if its items are.** -/
theorem carries_list {c : Codec α} {d : Nat} {as : List α} (h : ∀ a ∈ as, c.Carries d a) :
    (list c).Carries (d + 1) as := by
  refine ⟨itemsPlain_carried as h, Nat.succ_le_succ (itemsDepth_carried as h), ?_⟩
  have read : (list c).ofJson ((list c).write as).canonical
      = (do
        let bs ← readItems c.read 0 (Json.itemNodes (Json.canonicalItems (as.map c.write)))
        Ending.unmarked.wanted
        return bs) := rfl
  rw [read, readItems_carried as 0 h]
  rfl

theorem readEntries_carried {c : Codec α} {d : Nat} : ∀ es : List (String × α),
    (∀ e ∈ es, c.Carries d e.2) →
    readEntries c.read (Json.memberEntries (Json.canonicalMembers
      (es.map fun e => (e.1, c.write e.2)))) = .ok es
  | [], _ => rfl
  | (key, a) :: es, h => by
    have first : c.read (c.write a).canonical.toNode = .ok a :=
      (h (key, a) List.mem_cons_self).reads
    have rest := readEntries_carried es fun b mem => h b (List.mem_cons_of_mem _ mem)
    rw [List.map_cons, Json.canonicalMembers, Json.memberEntries, readEntries]
    simp only [Entry.value]
    rw [first, rest]
    rfl

theorem membersPlain_append : ∀ a b : List (String × Json),
    Json.membersPlain (a ++ b) = (Json.membersPlain a && Json.membersPlain b)
  | [], _ => rfl
  | (k, j) :: a, b => by
    rw [List.cons_append, Json.membersPlain, Json.membersPlain, membersPlain_append a b,
      Bool.and_assoc]

theorem membersDepth_append : ∀ a b : List (String × Json),
    Json.membersDepth (a ++ b) = max (Json.membersDepth a) (Json.membersDepth b)
  | [], _ => (Nat.zero_max _).symm
  | (k, j) :: a, b => by
    rw [List.cons_append, Json.membersDepth, Json.membersDepth, membersDepth_append a b,
      Nat.max_assoc]

theorem membersPlain_carried {c : Codec α} {d : Nat} : ∀ es : List (String × α),
    (∀ e ∈ es, c.Carries d e.2) →
    Json.membersPlain (es.map fun e => (e.1, c.write e.2)) = true
  | [], _ => rfl
  | e :: es, h => by
    rw [List.map_cons, Json.membersPlain, (h e List.mem_cons_self).plain, Bool.true_and]
    exact membersPlain_carried es fun b mem => h b (List.mem_cons_of_mem _ mem)

theorem membersDepth_carried {c : Codec α} {d : Nat} : ∀ es : List (String × α),
    (∀ e ∈ es, c.Carries d e.2) →
    Json.membersDepth (es.map fun e => (e.1, c.write e.2)) ≤ d
  | [], _ => Nat.zero_le d
  | e :: es, h => by
    rw [List.map_cons, Json.membersDepth]
    exact Nat.max_le.mpr ⟨(h e List.mem_cons_self).shallow,
      membersDepth_carried es fun b mem => h b (List.mem_cons_of_mem _ mem)⟩

/-- **A map is carried if its values are.** -/
theorem carries_dict {c : Codec α} {d : Nat} {m : StringMap α}
    (h : ∀ e ∈ m.entries, c.Carries d e.2) : (dict c).Carries (d + 1) m := by
  refine ⟨membersPlain_carried m.entries h, Nat.succ_le_succ (membersDepth_carried m.entries h), ?_⟩
  have sorted : Json.sortMembers (Json.canonicalMembers (m.entries.map fun e => (e.1, c.write e.2)))
      = Json.canonicalMembers (m.entries.map fun e => (e.1, c.write e.2)) := by
    refine Json.sortMembers_of_sorted ?_
    rw [Json.canonicalMembers_eq, List.map_map]
    exact List.pairwise_map.mpr m.sorted
  have read : (dict c).ofJson ((dict c).write m).canonical
      = (do
        let es ← readEntries c.read (Json.memberEntries (Json.sortMembers
          (Json.canonicalMembers (m.entries.map fun e => (e.1, c.write e.2)))))
        Ending.unmarked.wanted
        return StringMap.ofList es) := rfl
  rw [read, sorted, readEntries_carried m.entries h]
  exact congrArg Except.ok (StringMap.ofList_entries m)

end Codec

/-! ## Records -/

/-- A member carries a value, or hides one that counts when it is absent. -/
def Member.Carries {α : Type} (member : Member α) (d : Nat) (a : α) : Prop :=
  if member.hidden a = true then member.absent = some a else member.codec.Carries d a

namespace Members

open Codec

variable {α τ σ : Type}

/-- The members carry the values of a record. -/
def Carry : {τ σ : Type} → Members τ σ → Nat → τ → Prop
  | _, _, nil, _, _ => True
  | _, _, cons head tail, d, (a, as) => head.Carries d a ∧ tail.Carry d as

theorem write_cons_hidden {head : Member α} {tail : Members τ σ} {a : α} {as : τ}
    (h : head.hidden a = true) : (cons head tail).write (a, as) = tail.write as := if_pos h

theorem write_cons_shown {head : Member α} {tail : Members τ σ} {a : α} {as : τ}
    (h : ¬ head.hidden a = true) :
    (cons head tail).write (a, as) = (head.name, head.codec.write a) :: tail.write as := if_neg h

/-- The value of the first member is written, unless it is hidden. -/
theorem mem_write_head {head : Member α} {tail : Members τ σ} {a : α} {as : τ}
    (h : ¬ head.hidden a = true) :
    (head.name, head.codec.write a) ∈ (cons head tail).write (a, as) := by
  rw [write_cons_shown h]
  exact List.mem_cons_self

/-- What is written of the later members is written. -/
theorem mem_write_tail {head : Member α} {tail : Members τ σ} {a : α} {as : τ}
    {m : String × Json} (h : m ∈ tail.write as) : m ∈ (cons head tail).write (a, as) := by
  rw [write]
  split
  · exact h
  · exact List.mem_cons_of_mem _ h

theorem names_write : ∀ {τ σ : Type} (ms : Members τ σ) (as : τ),
    ((ms.write as).map (·.1)).Sublist ms.names
  | _, _, nil, _ => List.Sublist.refl _
  | _, _, cons head tail, (a, as) => by
    have rest := names_write tail as
    by_cases h : head.hidden a = true
    · rw [write_cons_hidden h]
      exact rest.cons _
    · rw [write_cons_shown h]
      exact rest.cons_cons _

theorem membersPlain_write {d : Nat} : ∀ {τ σ : Type} (ms : Members τ σ) (as : τ),
    ms.Carry d as → Json.membersPlain (ms.write as) = true
  | _, _, nil, _, _ => rfl
  | _, _, cons head tail, (a, as), carry => by
    have rest := membersPlain_write tail as carry.2
    by_cases h : head.hidden a = true
    · rw [write_cons_hidden h]
      exact rest
    · have first : head.codec.Carries d a := (if_neg h).mp carry.1
      rw [write_cons_shown h, Json.membersPlain, first.plain, rest]
      rfl

theorem membersDepth_write {d : Nat} : ∀ {τ σ : Type} (ms : Members τ σ) (as : τ),
    ms.Carry d as → Json.membersDepth (ms.write as) ≤ d
  | _, _, nil, _, _ => Nat.zero_le d
  | _, _, cons head tail, (a, as), carry => by
    have rest := membersDepth_write tail as carry.2
    by_cases h : head.hidden a = true
    · rw [write_cons_hidden h]
      exact rest
    · have first : head.codec.Carries d a := (if_neg h).mp carry.1
      rw [write_cons_shown h, Json.membersDepth]
      exact Nat.max_le.mpr ⟨first.shallow, rest⟩

theorem among_eq_none {members : List (String × Json)} {name : String}
    (h : name ∉ members.map (·.1)) : among members name = Option.none := by
  rw [among, List.lookup_eq_none_iff]
  intro m mem
  have ne : name ≠ m.1 := fun same => h (List.mem_map.mpr ⟨m, mem, same.symm⟩)
  simpa using ne

/-- **The values are read back from what has been written of them.** -/
theorem reads_write {d : Nat} {look : String → Option Json} : ∀ {τ σ : Type} (ms : Members τ σ)
    (as : τ), ms.names.Nodup → ms.Carry d as →
    (∀ name ∈ ms.names, look name = (among (ms.write as) name).map Json.canonical) →
    ms.Reads look as
  | _, _, nil, _, _, _, _ => trivial
  | _, _, cons head tail, (a, as), distinct, carry, h => by
    rw [names, List.nodup_cons] at distinct
    have absent : among (tail.write as) head.name = Option.none :=
      among_eq_none fun mem => distinct.1 ((names_write tail as).subset mem)
    have own := h head.name List.mem_cons_self
    by_cases hidden : head.hidden a = true
    · have first : head.absent = some a := (if_pos hidden).mp carry.1
      rw [write_cons_hidden hidden] at h own
      refine ⟨?_, reads_write tail as distinct.2 carry.2 fun name mem =>
        h name (List.mem_cons_of_mem _ mem)⟩
      rw [absent] at own
      simp only [own, Option.map_none]
      exact first
    · have first : head.codec.Carries d a := (if_neg hidden).mp carry.1
      rw [write_cons_shown hidden] at h own
      refine ⟨?_, reads_write tail as distinct.2 carry.2 ?_⟩
      · rw [among_cons, if_pos rfl] at own
        simp only [own, Option.map_some]
        exact first.reads
      · intro name mem
        have ne : name ≠ head.name := fun same => distinct.1 (same ▸ mem)
        rw [h name (List.mem_cons_of_mem _ mem), among_cons, if_neg ne]

end Members

namespace Codec

open Members

variable {α τ σ : Type}

theorem membersPlain_header : ∀ header : List (String × String),
    Json.membersPlain (header.map fun m => (m.1, Json.str m.2)) = true
  | [] => rfl
  | _ :: rest => membersPlain_header rest

theorem membersDepth_header : ∀ header : List (String × String),
    Json.membersDepth (header.map fun m => (m.1, Json.str m.2)) = 0
  | [] => rfl
  | m :: rest => by
    rw [List.map_cons, Json.membersDepth, membersDepth_header rest]
    rfl

theorem among_append {a b : List (String × Json)} {name : String} (h : name ∉ a.map (·.1)) :
    among (a ++ b) name = among b name := by
  induction a with
  | nil => rfl
  | cons m a ih =>
    rw [List.map_cons, List.mem_cons, not_or] at h
    rw [List.cons_append, among_cons, if_neg h.1, ih h.2]

theorem among_canonicalMembers (members : List (String × Json)) (name : String) :
    among (Json.canonicalMembers members) name = (among members name).map Json.canonical := by
  rw [Json.canonicalMembers_eq]
  exact StringMap.lookup_map Json.canonical name members

/-- What is written of a member is nested less deep than the record. -/
theorem depth_lt_record {format : RecordFormat} {ms : Members τ σ} {make : τ → α} {split : α → τ}
    {a : α} (name : String) {j : Json} (mem : (name, j) ∈ ms.write (split a)) :
    j.depth < ((record format ms make split).write a).depth :=
  Nat.lt_succ_of_le (Json.depth_le_membersDepth (List.mem_append_right _ mem))

/-- What is written of an item is nested less deep than the list. -/
theorem depth_lt_list {c : Codec α} {as : List α} {a : α} (mem : a ∈ as) :
    (c.write a).depth < ((list c).write as).depth :=
  Nat.lt_succ_of_le (Json.depth_le_itemsDepth (List.mem_map_of_mem mem))

/-- The members that a record is written with, as a reader leaves them. -/
def written (format : RecordFormat) (ms : Members τ σ) (as : τ) : List (String × Json) :=
  Json.sortMembers (Json.canonicalMembers
    (format.header.members.map (fun m => (m.1, Json.str m.2)) ++ ms.write as))

theorem headerNames (header : List (String × String)) :
    (header.map fun m => (m.1, Json.str m.2)).map (·.1) = header.map (·.1) := by
  rw [List.map_map]
  rfl

section

variable (format : RecordFormat) {ms : Members τ σ}
  (distinct : (format.header.members.map (·.1) ++ ms.names).Nodup) (as : τ) {name : String}

include distinct

theorem lookup_written : among (written format ms as) name
    = (among (format.header.members.map (fun m => (m.1, Json.str m.2)) ++ ms.write as) name).map
      Json.canonical := by
  have once : ((Json.canonicalMembers (format.header.members.map
      (fun m => (m.1, Json.str m.2)) ++ ms.write as)).map (·.1)).Nodup := by
    rw [Json.canonicalMembers_eq, List.map_map, List.map_append]
    refine List.Nodup.sublist ?_ distinct
    refine List.Sublist.append ?_ (names_write ms as)
    rw [← headerNames]
    exact List.Sublist.refl _
  have sorted := Json.lookup_sortMembers once name
  exact sorted.trans (among_canonicalMembers _ name)

theorem among_written (mem : name ∈ ms.names) :
    among (written format ms as) name = (among (ms.write as) name).map Json.canonical := by
  obtain ⟨_, _, apart⟩ := List.nodup_append.mp distinct
  have own : name ∉ (format.header.members.map fun m => (m.1, Json.str m.2)).map (·.1) := by
    rw [headerNames]
    exact fun other => apart name other name mem rfl
  rw [lookup_written format distinct as, among_append own]

end

/-- **A record is carried if its members carry the values it is made of.** -/
theorem carries_record {format : RecordFormat} (unchecked : format.header.checked = false)
    {ms : Members τ σ} (distinct : (format.header.members.map (·.1) ++ ms.names).Nodup)
    {make : τ → α} {split : α → τ} {d : Nat} {a : α} (remade : make (split a) = a)
    (carry : ms.Carry d (split a)) : (record format ms make split).Carries (d + 1) a := by
  obtain ⟨_, distinctMembers, _⟩ := List.nodup_append.mp distinct
  refine ⟨?_, ?_, ?_⟩
  · have written := membersPlain_write ms (split a) carry
    exact (membersPlain_append _ _).trans (by rw [membersPlain_header, written]; rfl)
  · have written := membersDepth_write ms (split a) carry
    refine Nat.succ_le_succ ?_
    rw [membersDepth_append, membersDepth_header]
    exact Nat.max_le.mpr ⟨Nat.zero_le d, written⟩
  · refine (ofJson_record unchecked distinctMembers (Json.sorted_sortMembers _).nodup).mpr
      ⟨split a, ?_, remade⟩
    refine reads_write ms (split a) distinctMembers carry ?_
    exact fun name mem => among_written format distinct (split a) mem

end Codec

end NodeProvisioner
