import NodeProvisioner.Proofs.Json.Numbers
import NodeProvisioner.StringMap

/-!
# Sorted members, and values that resemble each other

The canonical form of a value sorts the members of its objects. Sorting members and filling a map
from strings are the same thing, so what is known of such maps carries over.

A reader may not give back every number as it was printed. A value *resembles* another if it is the
same but for such numbers. For a plain value, one without floating-point numbers and with integers
of sixty-four bits only, that leaves nothing out. Integers that fit are all that it takes for a
value to be read at all: it is bounded then.
-/

namespace NodeProvisioner

/-! ## Filling a map -/

namespace StringMap

variable {α β : Type}

/-- The entries come in the order of their keys, each key once. -/
abbrev Sorted (l : List (String × α)) : Prop := l.Pairwise fun a b => a.1 < b.1

theorem Sorted.nodup {l : List (String × α)} (h : Sorted l) : (l.map (·.1)).Nodup := by
  refine List.pairwise_map.mpr (h.imp ?_)
  intro a b lt eq
  exact String.lt_irrefl b.1 (eq ▸ lt)

/-- An entry whose key comes last goes to the end. -/
theorem insertEntry_last (key : String) (value : α) : ∀ l : List (String × α),
    (∀ e ∈ l, e.1 < key) → insertEntry key value l = l ++ [(key, value)]
  | [], _ => rfl
  | (k, v) :: rest, h => by
    have lt := h (k, v) List.mem_cons_self
    have ne : key ≠ k := by
      rintro rfl
      exact String.lt_irrefl key lt
    have rest := insertEntry_last key value rest fun e mem => h e (List.mem_cons_of_mem _ mem)
    rw [insertEntry, if_neg (fun gt => String.lt_irrefl _ (String.lt_trans gt lt)), if_neg ne, rest,
      List.cons_append]

/-- Entries that come in order are put one after the other. -/
theorem foldl_insertEntry_sorted : ∀ (l acc : List (String × α)), Sorted (acc ++ l) →
    l.foldl (fun sorted e => insertEntry e.1 e.2 sorted) acc = acc ++ l
  | [], acc, _ => (List.append_nil acc).symm
  | (k, v) :: rest, acc, h => by
    have last := insertEntry_last k v acc fun e mem =>
      (List.pairwise_append.mp h).2.2 e mem (k, v) List.mem_cons_self
    rw [List.foldl_cons, last, foldl_insertEntry_sorted rest]
    · rw [List.append_assoc, List.singleton_append]
    · rw [List.append_assoc, List.singleton_append]
      exact h

/-- The value at a key after a list of entries has been put in, each key once. -/
theorem lookup_foldl_insertEntry (key : String) : ∀ (l acc : List (String × α)),
    (l.map (·.1)).Nodup →
    (l.foldl (fun sorted e => insertEntry e.1 e.2 sorted) acc).lookup key
      = (l.lookup key <|> acc.lookup key)
  | [], _, _ => by rw [List.foldl_nil, List.lookup_nil]; rfl
  | (k, v) :: rest, acc, h => by
    rw [List.map_cons, List.nodup_cons] at h
    rw [List.foldl_cons, lookup_foldl_insertEntry key rest _ h.2, lookup_insertEntry,
      lookup_cons_ite]
    by_cases eq : key = k
    · have absent : rest.lookup key = none := by
        rw [List.lookup_eq_none_iff]
        intro e mem
        have ne : e.1 ≠ k := fun same => h.1 (List.mem_map.mpr ⟨e, mem, same⟩)
        simpa [eq] using Ne.symm ne
      simp [eq, eq ▸ absent]
    · simp [eq]

theorem entries_ofList (l : List (String × α)) :
    (ofList l).entries = l.foldl (fun sorted e => insertEntry e.1 e.2 sorted) [] := by
  have general : ∀ (l : List (String × α)) (m : StringMap α),
      (l.foldl (fun m e => m.insert e.1 e.2) m).entries
        = l.foldl (fun sorted e => insertEntry e.1 e.2 sorted) m.entries := by
    intro l
    induction l with
    | nil => exact fun _ => rfl
    | cons e rest ih => exact fun m => ih (m.insert e.1 e.2)
  exact general l empty

/-- **The map of the entries of a map is that map.** -/
theorem ofList_entries (m : StringMap α) : ofList m.entries = m := by
  have eq : (ofList m.entries).entries = m.entries := by
    rw [entries_ofList, foldl_insertEntry_sorted m.entries [] m.sorted, List.nil_append]
  cases m
  cases h : ofList _
  simp_all

end StringMap

namespace Json

/-! ## Sorted members -/

theorem insertMember_eq (name : String) (value : Json) : ∀ l : List (String × Json),
    insertMember name value l = StringMap.insertEntry name value l
  | [] => rfl
  | (k, v) :: rest => by
    rw [insertMember, StringMap.insertEntry, insertMember_eq name value rest]

theorem sortMembers_eq (ms : List (String × Json)) :
    sortMembers ms = (StringMap.ofList ms).entries := by
  rw [StringMap.entries_ofList, sortMembers]
  congr
  funext sorted m
  exact insertMember_eq m.1 m.2 sorted

theorem sorted_sortMembers (ms : List (String × Json)) : StringMap.Sorted (sortMembers ms) := by
  rw [sortMembers_eq]
  exact (StringMap.ofList ms).sorted

theorem sortMembers_of_sorted {ms : List (String × Json)} (h : StringMap.Sorted ms) :
    sortMembers ms = ms := by
  rw [sortMembers_eq, StringMap.entries_ofList, StringMap.foldl_insertEntry_sorted ms [] h,
    List.nil_append]

theorem lookup_sortMembers {ms : List (String × Json)} (h : (ms.map (·.1)).Nodup)
    (name : String) : (sortMembers ms).lookup name = ms.lookup name := by
  rw [sortMembers_eq, StringMap.entries_ofList, StringMap.lookup_foldl_insertEntry name ms [] h]
  cases ms.lookup name <;> rfl

/-- Sorting adds no members. -/
theorem mem_of_mem_sortMembers {m : String × Json} : ∀ {ms : List (String × Json)},
    m ∈ sortMembers ms → m ∈ ms := by
  have general : ∀ ms acc : List (String × Json),
      m ∈ ms.foldl (fun sorted n => StringMap.insertEntry n.1 n.2 sorted) acc →
        m ∈ ms ∨ m ∈ acc := by
    intro ms
    induction ms with
    | nil => exact fun _ => .inr
    | cons n ms ih =>
      intro acc mem
      rcases ih _ mem with mem | mem
      · exact .inl (List.mem_cons_of_mem _ mem)
      · rcases StringMap.mem_insertEntry mem with rfl | mem
        · exact .inl List.mem_cons_self
        · exact .inr mem
  intro ms mem
  rw [sortMembers_eq, StringMap.entries_ofList] at mem
  exact (general ms [] mem).resolve_right List.not_mem_nil

theorem canonicalMembers_eq : ∀ ms : List (String × Json),
    canonicalMembers ms = ms.map fun m => (m.1, m.2.canonical)
  | [] => rfl
  | (k, j) :: ms => by rw [canonicalMembers, canonicalMembers_eq ms, List.map_cons]

/-! ## From the document of a value to the value -/

mutual

/-- **The value of the document of a value is its canonical form.** -/
theorem ofNode_toNode : ∀ j : Json, ofNode j.toNode = .ok j.canonical
  | null => rfl
  | bool _ => rfl
  | int _ => rfl
  | float _ => rfl
  | str _ => rfl
  | arr items => by
    rw [toNode, Node.ofList, ofNode, ofNodes_itemNodes items, canonical]
    rfl
  | obj members => by
    rw [toNode, Node.ofEntries, ofNode, ofEntries_memberEntries members, canonical]
    rfl

theorem ofNodes_itemNodes : ∀ js : List Json, ofNodes (itemNodes js) = .ok (canonicalItems js)
  | [] => rfl
  | j :: js => by
    rw [itemNodes, ofNodes, ofNode_toNode j, ofNodes_itemNodes js, canonicalItems]
    rfl

theorem ofEntries_memberEntries : ∀ ms : List (String × Json),
    ofEntries (memberEntries ms) = .ok (canonicalMembers ms)
  | [] => rfl
  | (k, j) :: ms => by
    rw [memberEntries, ofEntries, ofNode_toNode j, ofEntries_memberEntries ms, canonicalMembers]
    rfl

end

/-! ## Plain values -/

mutual

/-- Every number is an integer that fits. -/
def isPlain : Json → Bool
  | int i => Fits i
  | float _ => false
  | arr items => itemsPlain items
  | obj members => membersPlain members
  | _ => true

def itemsPlain : List Json → Bool
  | [] => true
  | j :: rest => j.isPlain && itemsPlain rest

def membersPlain : List (String × Json) → Bool
  | [] => true
  | (_, j) :: rest => j.isPlain && membersPlain rest

end

theorem membersPlain_iff : ∀ {ms : List (String × Json)},
    membersPlain ms = true ↔ ∀ m ∈ ms, m.2.isPlain = true
  | [] => ⟨fun _ => List.forall_mem_nil _, fun _ => rfl⟩
  | (_, j) :: rest => by
    rw [membersPlain, Bool.and_eq_true, membersPlain_iff, List.forall_mem_cons]

mutual

/-- Sorting members leaves a value plain. -/
theorem isPlain_canonical : ∀ {j : Json}, j.isPlain = true → j.canonical.isPlain = true
  | null, _ => rfl
  | bool _, _ => rfl
  | int _, h => h
  | float _, h => h
  | str _, _ => rfl
  | arr items, h => @itemsPlain_canonical items h
  | obj members, h => membersPlain_iff.mpr fun m mem =>
      membersPlain_iff.mp (@membersPlain_canonical members h) m (mem_of_mem_sortMembers mem)

theorem itemsPlain_canonical : ∀ {js : List Json}, itemsPlain js = true →
    itemsPlain (canonicalItems js) = true
  | [], _ => rfl
  | j :: js, h => by
    rw [itemsPlain, Bool.and_eq_true] at h
    rw [canonicalItems, itemsPlain, isPlain_canonical h.1, itemsPlain_canonical h.2]
    rfl

theorem membersPlain_canonical : ∀ {ms : List (String × Json)}, membersPlain ms = true →
    membersPlain (canonicalMembers ms) = true
  | [], _ => rfl
  | (name, j) :: ms, h => by
    rw [membersPlain, Bool.and_eq_true] at h
    rw [canonicalMembers, membersPlain, isPlain_canonical h.1, membersPlain_canonical h.2]
    rfl

end

mutual

/-- Every integer fits, whatever other numbers there are. -/
def isBounded : Json → Bool
  | int i => Fits i
  | arr items => itemsBounded items
  | obj members => membersBounded members
  | _ => true

def itemsBounded : List Json → Bool
  | [] => true
  | j :: rest => j.isBounded && itemsBounded rest

def membersBounded : List (String × Json) → Bool
  | [] => true
  | (_, j) :: rest => j.isBounded && membersBounded rest

end

theorem itemsBounded_iff : ∀ {js : List Json},
    itemsBounded js = true ↔ ∀ j ∈ js, j.isBounded = true
  | [] => ⟨fun _ => List.forall_mem_nil _, fun _ => rfl⟩
  | j :: rest => by
    rw [itemsBounded, Bool.and_eq_true, itemsBounded_iff, List.forall_mem_cons]

theorem membersBounded_iff : ∀ {ms : List (String × Json)},
    membersBounded ms = true ↔ ∀ m ∈ ms, m.2.isBounded = true
  | [] => ⟨fun _ => List.forall_mem_nil _, fun _ => rfl⟩
  | (_, j) :: rest => by
    rw [membersBounded, Bool.and_eq_true, membersBounded_iff, List.forall_mem_cons]

mutual

theorem isBounded_of_isPlain : ∀ {j : Json}, j.isPlain = true → j.isBounded = true
  | null, _ => rfl
  | bool _, _ => rfl
  | int _, h => h
  | float _, h => nomatch h
  | str _, _ => rfl
  | arr items, h => @itemsBounded_of_itemsPlain items h
  | obj members, h => @membersBounded_of_membersPlain members h

theorem itemsBounded_of_itemsPlain : ∀ {js : List Json}, itemsPlain js = true →
    itemsBounded js = true
  | [], _ => rfl
  | j :: js, h => by
    rw [itemsPlain, Bool.and_eq_true] at h
    rw [itemsBounded, isBounded_of_isPlain h.1, itemsBounded_of_itemsPlain h.2]
    rfl

theorem membersBounded_of_membersPlain : ∀ {ms : List (String × Json)}, membersPlain ms = true →
    membersBounded ms = true
  | [], _ => rfl
  | (name, j) :: ms, h => by
    rw [membersPlain, Bool.and_eq_true] at h
    rw [membersBounded, isBounded_of_isPlain h.1, membersBounded_of_membersPlain h.2]
    rfl

end

mutual

/-- How deep lists and objects are nested. -/
def depth : Json → Nat
  | arr items => itemsDepth items + 1
  | obj members => membersDepth members + 1
  | _ => 0

def itemsDepth : List Json → Nat
  | [] => 0
  | j :: rest => max j.depth (itemsDepth rest)

def membersDepth : List (String × Json) → Nat
  | [] => 0
  | (_, j) :: rest => max j.depth (membersDepth rest)

end

theorem depth_le_itemsDepth {j : Json} : ∀ {js : List Json}, j ∈ js → j.depth ≤ itemsDepth js
  | k :: js, mem => by
    rw [itemsDepth]
    rcases List.mem_cons.mp mem with rfl | mem
    · exact Nat.le_max_left _ _
    · exact Nat.le_trans (depth_le_itemsDepth mem) (Nat.le_max_right _ _)

theorem depth_le_membersDepth {m : String × Json} : ∀ {ms : List (String × Json)}, m ∈ ms →
    m.2.depth ≤ membersDepth ms
  | (_, k) :: ms, mem => by
    rw [membersDepth]
    rcases List.mem_cons.mp mem with rfl | mem
    · exact Nat.le_max_left _ _
    · exact Nat.le_trans (depth_le_membersDepth mem) (Nat.le_max_right _ _)

theorem itemsDepth_le_iff {k : Nat} : ∀ {js : List Json},
    itemsDepth js ≤ k ↔ ∀ j ∈ js, j.depth ≤ k
  | [] => ⟨fun _ => List.forall_mem_nil _, fun _ => Nat.zero_le k⟩
  | j :: js => by rw [itemsDepth, Nat.max_le, itemsDepth_le_iff, List.forall_mem_cons]

theorem membersDepth_le_iff {k : Nat} : ∀ {ms : List (String × Json)},
    membersDepth ms ≤ k ↔ ∀ m ∈ ms, m.2.depth ≤ k
  | [] => ⟨fun _ => List.forall_mem_nil _, fun _ => Nat.zero_le k⟩
  | (name, j) :: ms => by
    rw [membersDepth, Nat.max_le, membersDepth_le_iff, List.forall_mem_cons]

/-! ## Resemblance -/

/-- A number that need not be read back as itself. -/
def IsLoose : Json → Prop
  | float _ => True
  | int i => ¬ Fits i
  | _ => False

/-- What a reader may make of a loose number. -/
def IsStandIn (j : Json) : Prop := j = null ∨ j.IsLoose

mutual

/-- The second value is the first one, but for what a reader has made of its loose numbers. -/
def Resembles : Json → Json → Prop
  | null, j => j = null
  | bool b, j => j = bool b
  | int i, j => if Fits i then j = int i else j.IsStandIn
  | float _, j => j.IsStandIn
  | str s, j => j = str s
  | arr items, j => ∃ others, j = arr others ∧ ItemsResemble items others
  | obj members, j => ∃ others, j = obj others ∧ MembersResemble members others

def ItemsResemble : List Json → List Json → Prop
  | [], others => others = []
  | j :: rest, others => ∃ k more, others = k :: more ∧ j.Resembles k ∧ ItemsResemble rest more

def MembersResemble : List (String × Json) → List (String × Json) → Prop
  | [], others => others = []
  | (name, j) :: rest, others =>
    ∃ k more, others = (name, k) :: more ∧ j.Resembles k ∧ MembersResemble rest more

end

theorem resembles_int {i : Int} {k : Json} :
    (int i).Resembles k ↔ if Fits i then k = int i else k.IsStandIn := Iff.rfl

theorem canonical_of_isLoose {j : Json} (h : j.IsLoose) : j.canonical = j := by
  cases j <;> first | rfl | exact absurd h id

theorem resembles_of_isLoose {j k : Json} (h : j.IsLoose) (standIn : k.IsStandIn) :
    j.Resembles k := by
  cases j with
  | int i =>
    rw [Resembles, if_neg (by exact h)]
    exact standIn
  | float x => exact standIn
  | _ => exact absurd h id

theorem insertMember_resembles {name : String} {j k : Json} (value : j.Resembles k) :
    ∀ (ms ns : List (String × Json)), MembersResemble ms ns →
      MembersResemble (insertMember name j ms) (insertMember name k ns)
  | [], _, h => by
    cases h
    exact ⟨k, [], rfl, value, rfl⟩
  | (m, x) :: ms, _, h => by
    obtain ⟨y, ns, rfl, first, rest⟩ := h
    rw [insertMember, insertMember]
    split
    · exact ⟨k, _, rfl, value, y, ns, rfl, first, rest⟩
    · split
      · exact ⟨k, ns, rfl, value, rest⟩
      · exact ⟨y, _, rfl, first, insertMember_resembles value ms ns rest⟩

theorem sortMembers_resembles {ms ns : List (String × Json)} (h : MembersResemble ms ns) :
    MembersResemble (sortMembers ms) (sortMembers ns) := by
  have general : ∀ (ms ns acc bcc : List (String × Json)), MembersResemble ms ns →
      MembersResemble acc bcc → MembersResemble
        (ms.foldl (fun sorted m => insertMember m.1 m.2 sorted) acc)
        (ns.foldl (fun sorted m => insertMember m.1 m.2 sorted) bcc) := by
    intro ms
    induction ms with
    | nil =>
      rintro _ acc bcc rfl start
      exact start
    | cons m ms ih =>
      rintro _ acc bcc ⟨y, ns, rfl, first, rest⟩ start
      exact ih ns _ _ rest (insertMember_resembles first acc bcc start)
  exact general ms ns [] [] h rfl

/-- Members that resemble each other have the same names, and values that resemble each other. -/
theorem MembersResemble.lookup : ∀ {ms ns : List (String × Json)}, MembersResemble ms ns →
    ∀ name, (ms.lookup name = none ∧ ns.lookup name = none) ∨
      ∃ j k, ms.lookup name = some j ∧ ns.lookup name = some k ∧ j.Resembles k
  | [], _, h, _ => by
    cases h
    exact .inl ⟨rfl, rfl⟩
  | (m, x) :: ms, _, h, name => by
    obtain ⟨y, ns, rfl, first, rest⟩ := h
    rw [StringMap.lookup_cons_ite, StringMap.lookup_cons_ite]
    split
    · exact .inr ⟨x, y, rfl, rfl, first⟩
    · exact rest.lookup name

theorem MembersResemble.names : ∀ {ms ns : List (String × Json)}, MembersResemble ms ns →
    ns.map (·.1) = ms.map (·.1)
  | [], _, h => by
    cases h
    rfl
  | (m, x) :: ms, _, h => by
    obtain ⟨y, ns, rfl, _, rest⟩ := h
    rw [List.map_cons, List.map_cons, rest.names]

mutual

/-- **Sorting members keeps resemblance.** -/
theorem Resembles.canonical : ∀ {j k : Json}, j.Resembles k → j.canonical.Resembles k.canonical
  | null, _, h => by
    cases h
    rfl
  | bool _, _, h => by
    cases h
    rfl
  | int i, k, h => by
    have alike := resembles_int.mp h
    refine resembles_int.mpr ?_
    by_cases fits : Fits i
    · rw [if_pos fits] at alike ⊢
      rw [alike]
      rfl
    · -- an integer out of range resembles whatever is loose, and that has no members to sort
      rw [if_neg fits] at alike ⊢
      rcases alike with rfl | loose
      · exact .inl rfl
      · rw [canonical_of_isLoose loose]
        exact .inr loose
  | float _, k, h => by
    rcases h with rfl | loose
    · exact .inl rfl
    · rw [canonical_of_isLoose loose]
      exact .inr loose
  | str _, _, h => by
    cases h
    rfl
  | arr items, _, h => by
    obtain ⟨others, rfl, alike⟩ := h
    rw [Json.canonical, Json.canonical]
    exact ⟨_, rfl, alike.canonical⟩
  | obj members, _, h => by
    obtain ⟨others, rfl, alike⟩ := h
    rw [Json.canonical, Json.canonical]
    exact ⟨_, rfl, sortMembers_resembles alike.canonical⟩

theorem ItemsResemble.canonical : ∀ {js ks : List Json}, ItemsResemble js ks →
    ItemsResemble (canonicalItems js) (canonicalItems ks)
  | [], _, h => by
    cases h
    rfl
  | _ :: _, _, h => by
    obtain ⟨k, ks, rfl, first, rest⟩ := h
    exact ⟨k.canonical, _, rfl, first.canonical, rest.canonical⟩

theorem MembersResemble.canonical : ∀ {ms ns : List (String × Json)}, MembersResemble ms ns →
    MembersResemble (canonicalMembers ms) (canonicalMembers ns)
  | [], _, h => by
    cases h
    rfl
  | (_, _) :: _, _, h => by
    obtain ⟨k, ns, rfl, first, rest⟩ := h
    exact ⟨k.canonical, _, rfl, first.canonical, rest.canonical⟩

end

theorem IsStandIn.depth {j : Json} (h : j.IsStandIn) : j.depth = 0 := by
  obtain rfl | loose := h
  · rfl
  · cases j <;> first | rfl | exact absurd loose id

mutual

/-- Values that resemble each other are nested alike. -/
theorem Resembles.depth : ∀ {j k : Json}, j.Resembles k → k.depth = j.depth
  | null, _, h => h ▸ rfl
  | bool _, _, h => h ▸ rfl
  | int i, k, h => by
    have alike := resembles_int.mp h
    split at alike
    · rw [alike]
    · exact alike.depth
  | float _, _, h => IsStandIn.depth h
  | str _, _, h => h ▸ rfl
  | arr _, _, ⟨_, same, alike⟩ => by rw [same, Json.depth, Json.depth, alike.depth]
  | obj _, _, ⟨_, same, alike⟩ => by rw [same, Json.depth, Json.depth, alike.depth]

theorem ItemsResemble.depth : ∀ {js ks : List Json}, ItemsResemble js ks →
    itemsDepth ks = itemsDepth js
  | [], _, h => h ▸ rfl
  | _ :: _, _, ⟨_, _, same, first, rest⟩ => by
    rw [same, itemsDepth, itemsDepth, first.depth, rest.depth]

theorem MembersResemble.depth : ∀ {ms ns : List (String × Json)}, MembersResemble ms ns →
    membersDepth ns = membersDepth ms
  | [], _, h => h ▸ rfl
  | (_, _) :: _, _, ⟨_, _, same, first, rest⟩ => by
    rw [same, membersDepth, membersDepth, first.depth, rest.depth]

end

mutual

/-- **A plain value resembles nothing but itself.** -/
theorem Resembles.eq_of_isPlain : ∀ {j k : Json}, j.Resembles k → j.isPlain = true → k = j
  | null, _, h, _ => h
  | bool _, _, h, _ => h
  | int _, _, h, plain => (if_pos (of_decide_eq_true plain)).mp (resembles_int.mp h)
  | float _, _, _, plain => nomatch plain
  | str _, _, h, _ => h
  | arr _, _, ⟨_, same, alike⟩, plain => by rw [same, alike.eq_of_isPlain plain]
  | obj _, _, ⟨_, same, alike⟩, plain => by rw [same, alike.eq_of_isPlain plain]

theorem ItemsResemble.eq_of_isPlain : ∀ {js ks : List Json}, ItemsResemble js ks →
    itemsPlain js = true → ks = js
  | [], _, h, _ => h
  | j :: js, _, ⟨k, more, same, first, rest⟩, plain => by
    rw [itemsPlain, Bool.and_eq_true] at plain
    rw [same, first.eq_of_isPlain plain.1, rest.eq_of_isPlain plain.2]

theorem MembersResemble.eq_of_isPlain : ∀ {ms ns : List (String × Json)}, MembersResemble ms ns →
    membersPlain ms = true → ns = ms
  | [], _, h, _ => h
  | (name, j) :: ms, _, ⟨k, more, same, first, rest⟩, plain => by
    rw [membersPlain, Bool.and_eq_true] at plain
    rw [same, first.eq_of_isPlain plain.1, rest.eq_of_isPlain plain.2]

end

/-! ## Equality -/

mutual

/-- **Values that compare as equal resemble each other.** -/
theorem resembles_of_beq : ∀ {j k : Json}, j.beq k = true → j.Resembles k
  | null, k, h => by
    cases k with
    | null => rfl
    | _ => cases h
  | bool a, k, h => by
    cases k with
    | bool b =>
      rw [beq, beq_iff_eq] at h
      rw [h]
      rfl
    | _ => cases h
  | int m, k, h => by
    cases k with
    | int n =>
      rw [beq, beq_iff_eq] at h
      subst h
      rw [Resembles]
      split
      · rfl
      · rename_i loose
        exact .inr loose
    | _ => cases h
  | float x, k, h => by
    cases k with
    | float y => exact .inr trivial
    | _ => cases h
  | str s, k, h => by
    cases k with
    | str t =>
      rw [beq, beq_iff_eq] at h
      rw [h]
      rfl
    | _ => cases h
  | arr items, k, h => by
    cases k with
    | arr others => exact ⟨others, rfl, itemsResemble_of_beq h⟩
    | _ => cases h
  | obj members, k, h => by
    cases k with
    | obj others => exact ⟨others, rfl, membersResemble_of_beq h⟩
    | _ => cases h

theorem itemsResemble_of_beq : ∀ {js ks : List Json}, beqItems js ks = true →
    ItemsResemble js ks
  | [], ks, h => by
    cases ks with
    | nil => rfl
    | cons k ks => cases h
  | j :: js, ks, h => by
    cases ks with
    | nil => cases h
    | cons k ks =>
      rw [beqItems, Bool.and_eq_true] at h
      exact ⟨k, ks, rfl, resembles_of_beq h.1, itemsResemble_of_beq h.2⟩

theorem membersResemble_of_beq : ∀ {ms ns : List (String × Json)}, beqMembers ms ns = true →
    MembersResemble ms ns
  | [], ns, h => by
    cases ns with
    | nil => rfl
    | cons n ns => cases h
  | (name, j) :: ms, ns, h => by
    cases ns with
    | nil => cases h
    | cons n ns =>
      obtain ⟨other, k⟩ := n
      rw [beqMembers, Bool.and_eq_true, Bool.and_eq_true, beq_iff_eq] at h
      obtain ⟨⟨rfl, first⟩, rest⟩ := h
      exact ⟨k, ns, rfl, resembles_of_beq first, membersResemble_of_beq rest⟩

end

mutual

/-- **A plain value compares as equal to itself.** -/
theorem beq_self : ∀ {j : Json}, j.isPlain = true → j.beq j = true
  | null, _ => rfl
  | bool b, _ => by rw [beq, beq_self_eq_true]
  | int i, _ => by rw [beq, beq_self_eq_true]
  | float _, h => by cases h
  | str s, _ => by rw [beq, beq_self_eq_true]
  | arr items, h => @beqItems_self items h
  | obj members, h => @beqMembers_self members h

theorem beqItems_self : ∀ {js : List Json}, itemsPlain js = true → beqItems js js = true
  | [], _ => rfl
  | j :: js, h => by
    rw [itemsPlain, Bool.and_eq_true] at h
    rw [beqItems, beq_self h.1, beqItems_self h.2]
    rfl

theorem beqMembers_self : ∀ {ms : List (String × Json)}, membersPlain ms = true →
    beqMembers ms ms = true
  | [], _ => rfl
  | (name, j) :: ms, h => by
    rw [membersPlain, Bool.and_eq_true] at h
    rw [beqMembers, beq_self_eq_true, beq_self h.1, beqMembers_self h.2]
    rfl

end

end Json

end NodeProvisioner
