import NodeProvisioner.Proofs.Codec.Machines
import NodeProvisioner.Proofs.Json.Documents

/-!
# What a codec keeps of a document

A document that a codec reads may hold more than the codec knows, and what is written afterwards
holds only that. A shape says how the values of a codec stand in a document. With it, each place of
a document can be asked two things: whether the value written keeps what the document has there
(`Keeps`), and whether the shape covers the place (`Covers`). A codec holds a shape if the answers
are always the same.

Places that are not in the document, and members that are `null`, are kept in any case. Times are
compared to the second, and numbers as they are read.
-/

namespace NodeProvisioner

namespace Node

/-- The text that the document is. -/
def text? : Node → Option String
  | scalar (.text s) _ _ => some s
  | _ => none

/-- The document is an empty text or an empty list. -/
def isEmpty : Node → Bool
  | scalar (.text s) _ _ => s.isEmpty
  | list items _ _ _ => items.isEmpty
  | _ => false

/-- The value of the last entry of this name. -/
def lastNamed (name : String) : List Entry → Option Node
  | [] => none
  | entry :: rest =>
    (lastNamed name rest).or (if entry.key.text? = some name then some entry.value else none)

theorem exists_of_lastNamed {name : String} {entries : List Entry} {v : Node}
    (h : lastNamed name entries = some v) : ∃ entry ∈ entries, entry.value = v := by
  induction entries with
  | nil => cases h
  | cons entry entries ih =>
    rw [lastNamed, Option.or_eq_some_iff] at h
    obtain later | ⟨_, own⟩ := h
    · obtain ⟨entry', mem, rfl⟩ := ih later
      exact ⟨entry', List.mem_cons_of_mem _ mem, rfl⟩
    · split at own
      · exact ⟨entry, List.mem_cons_self, Option.some.inj own⟩
      · cases own

variable (path : List Step)

/-- The document is a list, and so is the value. If the path leads into an item, this is kept. -/
def ItemKept (kept : List Step → Node → Json → Prop) : Node → Json → Prop
  | list items _ _ _, .arr js => js.length = items.length ∧
      ∀ index rest v j, path = .item index :: rest → items[index]? = some v →
        js[index]? = some j → kept rest v j
  | _, _ => False

/-- The document is a map, and the value an object. If the path leads into a member that is not
`null`, this is there and is kept. -/
def MemberKept (kept : String → List Step → Node → Json → Prop) : Node → Json → Prop
  | map entries _ _ _, .obj members =>
      ∀ name rest v, path = .member name :: rest → lastNamed name entries = some v →
        v.isNull = true ∨ ∃ j, members.lookup name = some j ∧ kept name rest v j
  | _, _ => False

/-- The document is a list. If the path leads into an item, this is covered. -/
def ItemCovered (covered : List Step → Node → Prop) : Node → Prop
  | list items _ _ _ =>
      ∀ index rest v, path = .item index :: rest → items[index]? = some v → covered rest v
  | _ => False

/-- The document is a map. If the path leads into a member that is not `null`, this is covered. -/
def MemberCovered (covered : String → List Step → Node → Prop) : Node → Prop
  | map entries _ _ _ =>
      ∀ name rest v, path = .member name :: rest → lastNamed name entries = some v →
        v.isNull = true ∨ covered name rest v
  | _ => False

end Node

/-- How a value stands in a document. -/
inductive Shape where
  /-- It is any value. -/
  | value
  /-- It is always this text. -/
  | fixed (text : String)
  | time
  /-- It is left out where it is empty. -/
  | nonempty (shape : Shape)
  | list (shape : Shape)
  /-- It is a map of any names, some of which are for others to change. -/
  | dict (free : List String)
  | record (members : List (String × Shape))

namespace Shape

mutual

/-- What the document has at the place is in the value too. -/
def Keeps : Shape → List Step → Node → Json → Prop
  | value, _, n, j => Json.ofNode n = .ok j
  | fixed _, _, n, j => Json.ofNode n = .ok j
  | time, _, n, j => ∃ s t s' t', n.text? = some s ∧ Timestamp.parse s = .ok t ∧
      j = .str s' ∧ Timestamp.parse s' = .ok t' ∧ t'.seconds = t.seconds
  | nonempty shape, path, n, j => shape.Keeps path n j
  | list shape, path, n, j => n.ItemKept path shape.Keeps j
  | dict free, path, n, j =>
      n.MemberKept path (fun name _ v j => name ∈ free ∨ Json.ofNode v = .ok j) j
  | record members, path, n, j => n.MemberKept path (KeepsMember members) j

/-- What the document has at a place within the member is in the value too. A member that the
record does not know is any value. -/
def KeepsMember : List (String × Shape) → String → List Step → Node → Json → Prop
  | [], _, _, n, j => Json.ofNode n = .ok j
  | (known, shape) :: members, name, path, n, j =>
    if name = known then shape.Keeps path n j else KeepsMember members name path n j

end

mutual

/-- The place is one that the shape provides for. -/
def Covers : Shape → List Step → Node → Prop
  | value, _, _ => True
  | fixed text, _, n => Json.ofNode n = .ok (.str text)
  | time, _, _ => True
  | nonempty shape, path, n => n.isEmpty = false ∧ shape.Covers path n
  | list shape, path, n => n.ItemCovered path shape.Covers
  | dict _, _, _ => True
  | record members, path, n => n.MemberCovered path (CoversMember members)

/-- The place within the member is one that the record provides for. -/
def CoversMember : List (String × Shape) → String → List Step → Node → Prop
  | [], _, _, _ => False
  | (known, shape) :: members, name, path, n =>
    if name = known then shape.Covers path n else CoversMember members name path n

end

end Shape

namespace Codec

variable {α : Type}

/-- Having read the first value from a document, the codec writes the second so that just those
places are kept that the shape covers. -/
def Holds (c : Codec α) (shape : Shape) (a b : α) : Prop :=
  ∀ n : Node, n.IsUnspelled → c.read n = .ok a →
    ∀ path, shape.Keeps path n (c.write b) ↔ shape.Covers path n

/-! ## Scalars -/

theorem read_textOf_eq_ok {expected : String} {n : Node} (h : n.IsUnspelled) {s : String}
    (read : (textOf expected).read n = .ok s) : ∃ extent, n = .scalar (.text s) none extent := by
  cases h with
  | scalar value extent =>
    cases value with
    | text s' => exact ⟨extent, Except.ok.inj read ▸ rfl⟩
    | _ => cases read
  | _ => cases read

theorem isEmpty_of_read_text {n : Node} (h : n.IsUnspelled) {s : String}
    (read : text.read n = .ok s) : s.isEmpty = n.isEmpty := by
  obtain ⟨extent, rfl⟩ := read_textOf_eq_ok h read
  rfl

/-- A codec that writes the value that it has read holds it. -/
theorem holds_value {c : Codec α} {a : α}
    (h : ∀ n : Node, n.IsUnspelled → c.read n = .ok a → Json.ofNode n = .ok (c.write a)) :
    c.Holds .value a a := by
  intro n unspelled read path
  exact iff_of_true (h n unspelled read) trivial

theorem holds_text (s : String) : text.Holds .value s s := by
  refine holds_value fun n unspelled read => ?_
  obtain ⟨extent, rfl⟩ := read_textOf_eq_ok unspelled read
  rfl

theorem holds_bool (b : Bool) : bool.Holds .value b b := by
  refine holds_value fun n unspelled read => ?_
  cases unspelled with
  | scalar value extent =>
    cases value with
    | bool b' => exact congrArg (fun b => Except.ok (Json.bool b)) (Except.ok.inj read)
    | _ => cases read
  | _ => cases read

theorem holds_int64 (i : Int64) : int64.Holds .value i i := by
  refine holds_value fun n unspelled read => ?_
  cases unspelled with
  | scalar value extent =>
    cases value with
    | int m =>
      have read' : (if -0x8000000000000000 ≤ m ∧ m ≤ 0x7fffffffffffffff
          then Except.ok (Int64.ofInt m) else Except.error _) = Except.ok i := read
      split at read'
      · rename_i fits
        obtain rfl := Except.ok.inj read'
        have same : (Int64.ofInt m).toInt = m := Int64.toInt_ofInt_of_le fits.1 (by omega)
        exact congrArg (fun m => Except.ok (Json.int m)) same.symm
      · cases read'
    | _ => cases read
  | _ => cases read

theorem holds_any (j : Json) : any.Holds .value j j := holds_value fun _ _ read => read

theorem read_formatted_eq_ok {expected : String} {parse : String → Except String α}
    {print : α → String} {n : Node} (h : n.IsUnspelled) {a : α}
    (read : (formatted expected parse print).read n = .ok a) :
    ∃ s, n.text? = some s ∧ parse s = .ok a := by
  obtain ⟨s, isText, parsed⟩ := bind_eq_ok_iff.mp read
  obtain ⟨extent, rfl⟩ := read_textOf_eq_ok h isText
  refine ⟨s, rfl, ?_⟩
  split at parsed
  · rename_i eq
    exact Except.ok.inj parsed ▸ eq
  · cases parsed

/-- A time that has been read is written as the same second. -/
theorem holds_timestamp (t : Timestamp) : timestamp.Holds .time t t := by
  intro n unspelled read path
  obtain ⟨s, isText, parsed⟩ := read_formatted_eq_ok unspelled read
  have parsed := mapError_eq_ok_iff.mp parsed
  obtain ⟨t', again, same⟩ := Timestamp.parse_print_of_parse parsed
  exact iff_of_true ⟨s, t, _, t', isText, parsed, rfl, again, same⟩ trivial

/-! ## Lists and maps -/

/-- The items that have been read stand in the list in the same order. -/
theorem readItems_eq_ok {read : Node → Except Fault α} {items : List Node} {index : Nat}
    {as : List α} (h : readItems read index items = .ok as) :
    as.length = items.length ∧
      ∀ (i : Nat) v a, items[i]? = some v → as[i]? = some a → read v = .ok a := by
  induction items generalizing index as with
  | nil =>
    obtain rfl := Except.ok.inj h
    exact ⟨rfl, nofun⟩
  | cons item items ih =>
    obtain ⟨a, first, h⟩ := bind_eq_ok_iff.mp h
    obtain ⟨more, rest, ⟨⟩⟩ := bind_eq_ok_iff.mp h
    obtain ⟨same, each⟩ := ih rest
    refine ⟨congrArg Nat.succ same, ?_⟩
    intro i v b there read
    cases i with
    | zero =>
      cases there
      cases read
      exact mapError_eq_ok_iff.mp first
    | succ i => exact each i v b there read

theorem read_list_eq_ok {c : Codec α} {items : List Node} {language : Language}
    {first : Option Place} {ending : Ending} {as : List α}
    (read : (list c).read (.list items language first ending) = .ok as) :
    as.length = items.length ∧
      ∀ (i : Nat) v a, items[i]? = some v → as[i]? = some a → c.read v = .ok a := by
  obtain ⟨_, own, ended⟩ := bind_eq_ok_iff.mp read
  obtain ⟨_, _, ⟨⟩⟩ := bind_eq_ok_iff.mp ended
  exact readItems_eq_ok own

theorem isEmpty_of_read_list {c : Codec α} {n : Node} (h : n.IsUnspelled) {as : List α}
    (read : (list c).read n = .ok as) : as.isEmpty = n.isEmpty := by
  cases h with
  | @list items language first ending each =>
    have same := (read_list_eq_ok read).1
    rw [Node.isEmpty, Bool.eq_iff_iff, List.isEmpty_iff_length_eq_zero,
      List.isEmpty_iff_length_eq_zero, same]
  | _ => cases read

/-- A list is held if each of its items is. -/
theorem holds_list {c : Codec α} {shape : Shape} {as : List α} (h : ∀ a ∈ as, c.Holds shape a a) :
    (list c).Holds (.list shape) as as := by
  intro n unspelled read path
  cases unspelled with
  | @list items language first ending each =>
    obtain ⟨same, readAll⟩ := read_list_eq_ok read
    -- an item and what is written of it stand at the same index
    have item {i : Nat} {v : Node} {a : α} (there : items[i]? = some v) (value : as[i]? = some a)
        (rest : List Step) : shape.Keeps rest v (c.write a) ↔ shape.Covers rest v :=
      h a (List.mem_of_getElem? value) v (each v (List.mem_of_getElem? there))
        (readAll i v a there value) rest
    have written {i : Nat} {j : Json} :
        (as.map c.write)[i]? = some j ↔ ∃ a, as[i]? = some a ∧ c.write a = j := by
      rw [List.getElem?_map, Option.map_eq_some_iff]
    constructor
    · rintro ⟨_, kept⟩ i rest v rfl there
      have short : i < as.length := same ▸ (List.getElem?_eq_some_iff.mp there).1
      have value : as[i]? = some as[i] := List.getElem?_eq_getElem short
      exact (item there value rest).mp (kept i rest v _ rfl there (written.mpr ⟨_, value, rfl⟩))
    · intro covered
      refine ⟨(List.length_map c.write).trans same, ?_⟩
      intro i rest v j eq there found
      obtain ⟨a, value, rfl⟩ := written.mp found
      exact (item there value rest).mpr (covered i rest v eq there)
  | _ => cases read

/-- Of several values of one key the last one is in the map. -/
theorem readEntries_eq_ok {read : Node → Except Fault α} {entries : List Entry}
    (keys : ∀ entry ∈ entries, entry.key.IsUnspelled) {as : List (String × α)}
    (h : readEntries read entries = .ok as) (name : String) (m : StringMap α) :
    match Node.lastNamed name entries with
    | some v => ∃ a, read v = .ok a ∧ (as.foldl (fun m e => m.insert e.1 e.2) m).get? name = some a
    | none => (as.foldl (fun m e => m.insert e.1 e.2) m).get? name = m.get? name := by
  induction entries generalizing as m with
  | nil =>
    obtain rfl := Except.ok.inj h
    rfl
  | cons entry entries ih =>
    obtain ⟨own, others⟩ := List.forall_mem_cons.mp keys
    obtain ⟨key, isText, h⟩ := bind_eq_ok_iff.mp h
    obtain ⟨a, first, h⟩ := bind_eq_ok_iff.mp h
    obtain ⟨more, rest, ⟨⟩⟩ := bind_eq_ok_iff.mp h
    obtain ⟨extent, spelled⟩ := read_textOf_eq_ok own isText
    have later := ih others rest (m.insert key a)
    rw [Node.lastNamed, spelled, List.foldl_cons]
    cases found : Node.lastNamed name entries with
    | some v =>
      rw [found] at later
      exact later
    | none =>
      rw [found] at later
      simp only at later
      rw [Option.none_or, later, StringMap.get?_insert]
      simp only [Node.text?, Option.some.injEq]
      by_cases same : key = name
      · rw [if_pos same, if_pos same.symm]
        exact ⟨a, mapError_eq_ok_iff.mp first, rfl⟩
      · rw [if_neg same, if_neg (Ne.symm same)]

/-- A map of texts is held by a map that agrees with it, but for what others may change. -/
theorem holds_dict {free : List String} {m m' : StringMap String}
    (same : ∀ name, name ∉ free → m'.get? name = m.get? name)
    (there : ∀ name ∈ free, (m'.get? name).isSome) : (dict text).Holds (.dict free) m m' := by
  intro n unspelled read path
  refine iff_of_true ?_ trivial
  cases unspelled with
  | @map entries language first ending keys values =>
    obtain ⟨as, own, ended⟩ := bind_eq_ok_iff.mp read
    obtain ⟨_, _, ⟨⟩⟩ := bind_eq_ok_iff.mp ended
    intro name rest v eq found
    have written : (m'.entries.map fun e => (e.1, text.write e.2)).lookup name
        = (m'.get? name).map text.write := StringMap.lookup_map text.write name m'.entries
    refine .inr ?_
    rw [written]
    by_cases isFree : name ∈ free
    · obtain ⟨s, stands⟩ := Option.isSome_iff_exists.mp (there name isFree)
      exact ⟨.str s, by rw [stands]; rfl, .inl isFree⟩
    · have value := readEntries_eq_ok keys own name .empty
      rw [found] at value
      obtain ⟨s, isText, stands⟩ := value
      obtain ⟨entry, mem, rfl⟩ := Node.exists_of_lastNamed found
      obtain ⟨extent, spelled⟩ := read_textOf_eq_ok (values entry mem) isText
      refine ⟨.str s, ?_, .inr ?_⟩
      · rw [same name isFree]
        exact congrArg (Option.map text.write) stands
      · rw [spelled]
        rfl
  | _ => cases read

end Codec

end NodeProvisioner
