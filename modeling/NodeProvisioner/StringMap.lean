/-!
# Maps from strings

A map holds its entries sorted by key, each key once. Keys are ordered by their characters.

Main statements: `get?_insert` and `get?_erase` say what each operation does to a look-up;
`ext_get?`, that look-ups tell maps apart.
-/

namespace NodeProvisioner

/-- A map from strings: its entries, sorted by key. -/
structure StringMap (α : Type) where
  entries : List (String × α)
  sorted : entries.Pairwise (fun a b => a.1 < b.1) := by simp
deriving Repr

namespace StringMap

variable {α β : Type}

/-! ## Sorted lists of entries -/

/-- Puts an entry into a sorted list, in the place of one of the same key. -/
def insertEntry (key : String) (value : α) : List (String × α) → List (String × α)
  | [] => [(key, value)]
  | (k, v) :: rest =>
    if key < k then (key, value) :: (k, v) :: rest
    else if key = k then (key, value) :: rest
    else (k, v) :: insertEntry key value rest

theorem mem_insertEntry {key : String} {value : α} {e : String × α} {l : List (String × α)}
    (h : e ∈ insertEntry key value l) : e = (key, value) ∨ e ∈ l := by
  induction l with
  | nil => simpa [insertEntry] using h
  | cons head rest ih =>
    obtain ⟨k, v⟩ := head
    rw [insertEntry] at h
    split at h
    · simpa using h
    · split at h
      · rcases List.mem_cons.mp h with h | h
        · exact .inl h
        · exact .inr (List.mem_cons_of_mem _ h)
      · rcases List.mem_cons.mp h with h | h
        · exact .inr (h ▸ List.mem_cons_self)
        · rcases ih h with h | h
          · exact .inl h
          · exact .inr (List.mem_cons_of_mem _ h)

/-- Of two keys that differ, one comes before the other. -/
theorem lt_of_not_lt_of_ne {a b : String} (h : ¬ a < b) (ne : a ≠ b) : b < a := by
  rcases Decidable.em (b < a) with hb | hb
  · exact hb
  · exact absurd (String.le_antisymm (String.not_lt.mp hb) (String.not_lt.mp h)) ne

theorem sorted_insertEntry (key : String) (value : α) {l : List (String × α)}
    (h : l.Pairwise (fun a b => a.1 < b.1)) :
    (insertEntry key value l).Pairwise (fun a b => a.1 < b.1) := by
  induction l with
  | nil => simp [insertEntry]
  | cons head rest ih =>
    obtain ⟨k, v⟩ := head
    obtain ⟨first, tail⟩ := List.pairwise_cons.mp h
    rw [insertEntry]
    split
    · rename_i lt
      refine List.pairwise_cons.mpr ⟨?_, h⟩
      intro e he
      rcases List.mem_cons.mp he with he | he
      · exact he ▸ lt
      · exact String.lt_trans lt (first e he)
    · split
      · rename_i eq
        subst eq
        exact List.pairwise_cons.mpr ⟨first, tail⟩
      · rename_i not_lt ne
        refine List.pairwise_cons.mpr ⟨?_, ih tail⟩
        intro e he
        rcases mem_insertEntry he with he | he
        · exact he ▸ lt_of_not_lt_of_ne not_lt ne
        · exact first e he

/-! ## Operations -/

/-- The map without entries. -/
def empty : StringMap α := { entries := [] }

instance : EmptyCollection (StringMap α) := ⟨empty⟩

instance : Inhabited (StringMap α) := ⟨empty⟩

/-- The map with the value at the key. -/
def insert (m : StringMap α) (key : String) (value : α) : StringMap α :=
  ⟨insertEntry key value m.entries, sorted_insertEntry key value m.sorted⟩

/-- The map without the key. -/
def erase (m : StringMap α) (key : String) : StringMap α :=
  ⟨m.entries.filter (·.1 ≠ key), m.sorted.sublist List.filter_sublist⟩

/-- The value at the key. -/
def get? (m : StringMap α) (key : String) : Option α := m.entries.lookup key

/-- There is a value at the key. -/
def contains (m : StringMap α) (key : String) : Bool := (m.get? key).isSome

/-- There are no entries. -/
def isEmpty (m : StringMap α) : Bool := m.entries.isEmpty

/-- The keys in order. -/
def keys (m : StringMap α) : List String := m.entries.map (·.1)

/-- The map of the entries; of several of one key the last counts. -/
def ofList (entries : List (String × α)) : StringMap α :=
  entries.foldl (fun m e => m.insert e.1 e.2) empty

instance [BEq α] : BEq (StringMap α) := ⟨fun a b => a.entries == b.entries⟩

instance [DecidableEq α] : DecidableEq (StringMap α) := fun a b =>
  if h : a.entries = b.entries then .isTrue (by cases a; cases b; cases h; rfl)
  else .isFalse fun e => h (e ▸ rfl)

/-! ## Looking up -/

theorem lookup_cons_ite (k j : String) (v : α) (rest : List (String × α)) :
    ((j, v) :: rest).lookup k = if k = j then some v else rest.lookup k := by
  by_cases h : k = j
  · simp [h]
  · have : (k == j) = false := by simpa using h
    simp [List.lookup_cons, this, h]

theorem lookup_insertEntry (key k : String) (value : α) (l : List (String × α)) :
    (insertEntry key value l).lookup k = if k = key then some value else l.lookup k := by
  induction l with
  | nil => rw [insertEntry, lookup_cons_ite]
  | cons head rest ih =>
    obtain ⟨j, v⟩ := head
    rw [insertEntry]
    split
    · rw [lookup_cons_ite]
    · split
      · rename_i eq
        subst eq
        rw [lookup_cons_ite, lookup_cons_ite]
        by_cases h : k = key <;> simp [h]
      · rename_i ne
        rw [lookup_cons_ite, lookup_cons_ite, ih]
        by_cases hk : k = j
        · subst hk
          simp [Ne.symm ne]
        · simp [hk]

theorem get?_insert (m : StringMap α) (key k : String) (value : α) :
    (m.insert key value).get? k = if k = key then some value else m.get? k :=
  lookup_insertEntry key k value m.entries

theorem lookup_filter_ne (key k : String) (l : List (String × α)) :
    (l.filter (·.1 ≠ key)).lookup k = if k = key then none else l.lookup k := by
  induction l with
  | nil => simp
  | cons head rest ih =>
    obtain ⟨j, v⟩ := head
    by_cases hj : j = key
    · subst hj
      rw [List.filter_cons_of_neg (by simp), ih, lookup_cons_ite]
      by_cases hk : k = j <;> simp [hk]
    · rw [List.filter_cons_of_pos (by simp [hj]), lookup_cons_ite, lookup_cons_ite, ih]
      by_cases hk : k = j
      · subst hk
        simp [hj]
      · simp [hk]

theorem get?_erase (m : StringMap α) (key k : String) :
    (m.erase key).get? k = if k = key then none else m.get? k :=
  lookup_filter_ne key k m.entries

theorem lookup_map (f : α → β) (key : String) (l : List (String × α)) :
    (l.map fun e => (e.1, f e.2)).lookup key = (l.lookup key).map f := by
  induction l with
  | nil => rfl
  | cons head rest ih =>
    obtain ⟨j, v⟩ := head
    rw [List.map_cons, lookup_cons_ite, lookup_cons_ite, ih]
    split <;> rfl

@[simp] theorem get?_empty (k : String) : (empty : StringMap α).get? k = none := rfl

/-! ## Equality -/

/-- No later entry has a key that is not beyond that of the first. -/
theorem lookup_tail {k key : String} {value : α} {rest : List (String × α)}
    (h : ((k, value) :: rest).Pairwise (fun a b => a.1 < b.1)) (le : ¬ k < key) :
    rest.lookup key = none := by
  rw [List.lookup_eq_none_iff]
  intro e mem
  have lt : k < e.1 := (List.pairwise_cons.mp h).1 e mem
  have ne : key ≠ e.1 := fun same => le (same ▸ lt)
  simpa using ne

/-- Sorted lists in which the same is found at every key are the same. -/
theorem eq_of_lookup : ∀ {l l' : List (String × α)}, l.Pairwise (fun a b => a.1 < b.1) →
    l'.Pairwise (fun a b => a.1 < b.1) → (∀ key, l.lookup key = l'.lookup key) → l = l'
  | [], [], _, _, _ => rfl
  | [], (k, v) :: rest, _, _, same => by
    have found := same k
    rw [lookup_cons_ite, if_pos rfl] at found
    cases found
  | (k, v) :: rest, [], _, _, same => by
    have found := same k
    rw [lookup_cons_ite, if_pos rfl] at found
    cases found
  | (k, v) :: rest, (k', v') :: rest', h, h', same => by
    -- the lesser of two first keys that differ would be found in one list only
    obtain rfl : k = k' := by
      refine Decidable.byContradiction fun ne => ?_
      rcases Decidable.em (k < k') with lt | not_lt
      · have found := same k
        rw [lookup_cons_ite, if_pos rfl, lookup_cons_ite, if_neg ne,
          lookup_tail h' fun gt => String.lt_irrefl k (String.lt_trans lt gt)] at found
        cases found
      · have gt := lt_of_not_lt_of_ne not_lt ne
        have found := same k'
        rw [lookup_cons_ite, if_neg (Ne.symm ne), lookup_tail h not_lt, lookup_cons_ite,
          if_pos rfl] at found
        cases found
    have first := same k
    rw [lookup_cons_ite, if_pos rfl, lookup_cons_ite, if_pos rfl] at first
    cases first
    have rest : rest = rest' := by
      refine eq_of_lookup h.of_cons h'.of_cons fun key => ?_
      by_cases eq : key = k
      · rw [eq, lookup_tail h (String.lt_irrefl k), lookup_tail h' (String.lt_irrefl k)]
      · have other := same key
        rwa [lookup_cons_ite, if_neg eq, lookup_cons_ite, if_neg eq] at other
    rw [rest]

/-- **Maps in which the same is found at every key are the same.** -/
theorem ext_get? {m n : StringMap α} (h : ∀ key, m.get? key = n.get? key) : m = n := by
  obtain ⟨entries, sorted⟩ := m
  obtain ⟨entries', sorted'⟩ := n
  obtain rfl : entries = entries' := eq_of_lookup sorted sorted' h
  rfl

end StringMap

end NodeProvisioner
