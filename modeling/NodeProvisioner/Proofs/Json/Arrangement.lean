import Mathlib.Data.Nat.Basic
import Mathlib.Order.Basic
import NodeProvisioner.Proofs.Json.Canonical

/-!
# The order of members

A value whose objects name each member once may have its members put in another order, at any
depth, without a change to its canonical form. Where a name stands for several members, the last of
them is the one that the canonical form keeps.
-/

namespace NodeProvisioner

namespace StringMap

variable {α : Type}

/-- The value at a key after a list of entries has been put in: that of the last entry with this
key. -/
theorem lookup_foldl_insertEntry_last (key : String) (l acc : List (String × α)) :
    (l.foldl (fun sorted e => insertEntry e.1 e.2 sorted) acc).lookup key
      = (l.reverse.lookup key <|> acc.lookup key) := by
  induction l generalizing acc with
  | nil => rfl
  | cons e rest ih =>
    obtain ⟨k, v⟩ := e
    rw [List.foldl_cons, ih, lookup_insertEntry, List.reverse_cons, List.lookup_append]
    rw [show [(k, v)].lookup key = if key = k then some v else none from lookup_cons_ite key k v []]
    cases rest.reverse.lookup key with
    | some w => rfl
    | none => by_cases same : key = k <;> simp [same]

/-- Of a list that has each key once, an entry is found under its key. -/
theorem lookup_eq_some_iff {l : List (String × α)} (h : (l.map (·.1)).Nodup) {key : String}
    {value : α} : l.lookup key = some value ↔ (key, value) ∈ l := by
  induction l with
  | nil => exact ⟨nofun, nofun⟩
  | cons e rest ih =>
    obtain ⟨k, v⟩ := e
    rw [List.map_cons, List.nodup_cons] at h
    rw [lookup_cons_ite, List.mem_cons, ← ih h.2, Prod.mk.injEq]
    by_cases same : key = k
    · have absent : rest.lookup key = none := by
        rw [List.lookup_eq_none_iff]
        intro e mem
        have ne : e.1 ≠ k := fun eq => h.1 (List.mem_map.mpr ⟨e, mem, eq⟩)
        simpa [same] using Ne.symm ne
      rw [if_pos same, absent]
      simp [same, eq_comm]
    · rw [if_neg same]
      simp [same]

end StringMap

namespace Json

/-- The member of this name, of several the last. -/
def lastNamed? (name : String) (members : List (String × Json)) : Option Json :=
  members.reverse.lookup name

theorem lookup_sortMembers_last (members : List (String × Json)) (name : String) :
    (sortMembers members).lookup name = lastNamed? name members := by
  rw [sortMembers_eq, StringMap.entries_ofList, StringMap.lookup_foldl_insertEntry_last, lastNamed?]
  cases members.reverse.lookup name <;> rfl

/-- **The canonical form of an object has under each name what the last member of this name
has.** -/
theorem lookup_canonical (members : List (String × Json)) (name : String) :
    (sortMembers (canonicalMembers members)).lookup name
      = (lastNamed? name members).map canonical := by
  rw [lookup_sortMembers_last, lastNamed?, lastNamed?, canonicalMembers_eq, ← List.map_reverse]
  exact StringMap.lookup_map canonical name members.reverse

theorem canonical_eq_str_iff {j : Json} {s : String} : j.canonical = .str s ↔ j = .str s := by
  cases j with
  | arr items =>
    rw [canonical]
    exact ⟨nofun, nofun⟩
  | obj members =>
    rw [canonical]
    exact ⟨nofun, nofun⟩
  | _ => exact Iff.rfl

/-- Only an object has an object for its canonical form. -/
theorem eq_obj_of_canonical {j : Json} {members : List (String × Json)}
    (h : j.canonical = .obj members) :
    ∃ others, j = .obj others ∧ members = sortMembers (canonicalMembers others) := by
  cases j with
  | obj others =>
    rw [canonical, obj.injEq] at h
    exact ⟨others, rfl, h.symm⟩
  | _ => cases h

/-- Two lists of members have the same canonical form if the last members of each name have. -/
theorem canonical_obj_congr {ms ns : List (String × Json)}
    (h : ∀ name, (lastNamed? name ms).map canonical = (lastNamed? name ns).map canonical) :
    (obj ms).canonical = (obj ns).canonical := by
  rw [canonical, canonical]
  refine congrArg obj (StringMap.eq_of_lookup (sorted_sortMembers _) (sorted_sortMembers _) ?_)
  intro name
  rw [lookup_canonical, lookup_canonical, h name]

/-- No object in the value has two members of one name. A value of no depth is a scalar. -/
inductive NamesOnce : Json → Prop where
  | scalar {j : Json} : j.depth = 0 → NamesOnce j
  | arr {items : List Json} : (∀ j ∈ items, NamesOnce j) → NamesOnce (arr items)
  | obj {members : List (String × Json)} : (members.map (·.1)).Nodup →
      (∀ m ∈ members, NamesOnce m.2) → NamesOnce (obj members)

theorem namesOnce_arr_iff {items : List Json} :
    NamesOnce (.arr items) ↔ ∀ j ∈ items, NamesOnce j := by
  constructor
  · intro h
    cases h with
    | scalar none => exact absurd none (Nat.succ_ne_zero _)
    | arr all => exact all
  · exact NamesOnce.arr

theorem namesOnce_obj_iff {members : List (String × Json)} :
    NamesOnce (.obj members) ↔
      (members.map (·.1)).Nodup ∧ ∀ m ∈ members, NamesOnce m.2 := by
  constructor
  · intro h
    cases h with
    | scalar none => exact absurd none (Nat.succ_ne_zero _)
    | obj once all => exact ⟨once, all⟩
  · rintro ⟨once, all⟩
    exact .obj once all

/-- The values are the same but for the order of members, at any depth. -/
inductive Rearranged : Json → Json → Prop where
  | refl (j : Json) : Rearranged j j
  | trans {i j k : Json} : Rearranged i j → Rearranged j k → Rearranged i k
  | members {ms ns : List (String × Json)} : ms.Perm ns → Rearranged (obj ms) (obj ns)
  | item (before after : List Json) {j k : Json} : Rearranged j k →
      Rearranged (arr (before ++ j :: after)) (arr (before ++ k :: after))
  | member (before after : List (String × Json)) (name : String) {j k : Json} : Rearranged j k →
      Rearranged (obj (before ++ (name, j) :: after)) (obj (before ++ (name, k) :: after))

theorem lastNamed?_of_once {members : List (String × Json)} (once : (members.map (·.1)).Nodup)
    (name : String) : lastNamed? name members = members.lookup name := by
  rw [← lookup_sortMembers_last, lookup_sortMembers once]

/-- The order of members does not matter if each is named once. -/
theorem lastNamed?_perm {ms ns : List (String × Json)} (h : ms.Perm ns)
    (once : (ms.map (·.1)).Nodup) (name : String) : lastNamed? name ms = lastNamed? name ns := by
  have once' : (ns.map (·.1)).Nodup := (h.map _).nodup_iff.mp once
  rw [lastNamed?_of_once once, lastNamed?_of_once once']
  refine Option.ext fun j => ?_
  rw [StringMap.lookup_eq_some_iff once, StringMap.lookup_eq_some_iff once', h.mem_iff]

theorem canonicalItems_eq (js : List Json) : canonicalItems js = js.map canonical := by
  induction js with
  | nil => rfl
  | cons j js ih => rw [canonicalItems, ih, List.map_cons]

theorem itemsDepth_congr {js ks : List Json}
    (h : ∀ d, (∀ j ∈ js, j.depth ≤ d) ↔ ∀ k ∈ ks, k.depth ≤ d) : itemsDepth js = itemsDepth ks := by
  refine eq_of_forall_ge_iff fun d => ?_
  rw [itemsDepth_le_iff, h, itemsDepth_le_iff]

theorem membersDepth_congr {ms ns : List (String × Json)}
    (h : ∀ d, (∀ m ∈ ms, m.2.depth ≤ d) ↔ ∀ n ∈ ns, n.2.depth ≤ d) :
    membersDepth ms = membersDepth ns := by
  refine eq_of_forall_ge_iff fun d => ?_
  rw [membersDepth_le_iff, h, membersDepth_le_iff]

/-- **A value in which each member is named once keeps that, its canonical form and its depth when
members are put in another order.** -/
theorem Rearranged.canonical_eq {j k : Json} (h : j.Rearranged k) (once : j.NamesOnce) :
    k.NamesOnce ∧ j.canonical = k.canonical ∧ j.depth = k.depth := by
  induction h with
  | refl j => exact ⟨once, rfl, rfl⟩
  | trans _ _ first second =>
    obtain ⟨once, canonical, depth⟩ := first once
    obtain ⟨once, canonical', depth'⟩ := second once
    exact ⟨once, canonical.trans canonical', depth.trans depth'⟩
  | @members ms ns perm =>
    obtain ⟨distinct, all⟩ := namesOnce_obj_iff.mp once
    refine ⟨namesOnce_obj_iff.mpr ⟨(perm.map _).nodup_iff.mp distinct, ?_⟩, ?_, ?_⟩
    · exact fun m mem => all m (perm.mem_iff.mpr mem)
    · exact canonical_obj_congr fun name => by rw [lastNamed?_perm perm distinct]
    · refine congrArg (· + 1) (membersDepth_congr fun d => ?_)
      exact forall_congr' fun m => imp_congr perm.mem_iff Iff.rfl
  | item before after _ ih =>
    rw [namesOnce_arr_iff, List.forall_mem_append, List.forall_mem_cons] at once
    obtain ⟨first, here, last⟩ := once
    obtain ⟨once, canonical, depth⟩ := ih here
    refine ⟨?_, ?_, ?_⟩
    · rw [namesOnce_arr_iff, List.forall_mem_append, List.forall_mem_cons]
      exact ⟨first, once, last⟩
    · rw [Json.canonical, Json.canonical, canonicalItems_eq, canonicalItems_eq, List.map_append,
        List.map_append, List.map_cons, List.map_cons, canonical]
    · refine congrArg (· + 1) (itemsDepth_congr fun d => ?_)
      rw [List.forall_mem_append, List.forall_mem_append, List.forall_mem_cons,
        List.forall_mem_cons, depth]
  | member before after name _ ih =>
    rw [namesOnce_obj_iff, List.forall_mem_append, List.forall_mem_cons] at once
    obtain ⟨distinct, first, here, last⟩ := once
    obtain ⟨once, canonical, depth⟩ := ih here
    refine ⟨?_, ?_, ?_⟩
    · rw [namesOnce_obj_iff, List.forall_mem_append, List.forall_mem_cons]
      refine ⟨?_, first, once, last⟩
      rw [List.map_append, List.map_cons] at distinct ⊢
      exact distinct
    · rw [Json.canonical, Json.canonical, canonicalMembers_eq, canonicalMembers_eq, List.map_append,
        List.map_append, List.map_cons, List.map_cons, canonical]
    · refine congrArg (· + 1) (membersDepth_congr fun d => ?_)
      rw [List.forall_mem_append, List.forall_mem_append, List.forall_mem_cons,
        List.forall_mem_cons, depth]

end Json

end NodeProvisioner
