import Mathlib.Logic.Function.Basic
import NodeProvisioner.Proofs.Keeping.Shapes

/-!
# What a record keeps of a document

A reader of a record takes the entries of a map in order, and keeps each in its slot: in the end a
slot has what the last entry of its name has been read as (`Members.FilledFrom`). Entries that the
record does not know leave no trace. So a record holds the shape that is made of its header and of
the shapes of its members.

Main statement: `holds_record`.
-/

namespace NodeProvisioner

/-! ## Members -/

/-- Having read the first value from a document that is not `null`, the member writes the second so
that just those places are kept that the shape covers. -/
def Member.Holds {α : Type} (member : Member α) (shape : Shape) (a b : α) : Prop :=
  ∀ n : Node, n.IsUnspelled → n.isNull = false → member.codec.read n = .ok a → ∀ path,
    (member.hidden b = false ∧ shape.Keeps path n (member.codec.write b)) ↔ shape.Covers path n

namespace Member

variable {α : Type} {name : String} {c : Codec α} {shape : Shape}

theorem holds_of_shown {member : Member α} {a b : α} (shown : member.hidden b = false)
    (h : member.codec.Holds shape a b) : member.Holds shape a b := by
  intro n unspelled _ read path
  exact (and_iff_right shown).trans (h n unspelled read path)

theorem holds_required {a b : α} (h : c.Holds shape a b) : (required name c).Holds shape a b :=
  holds_of_shown rfl h

theorem holds_defaulted {a b default : α} (h : c.Holds shape a b) :
    (defaulted name c default).Holds shape a b := holds_of_shown rfl h

/-- A value that may be `null` is read from anything else as if it might not. -/
theorem holds_blank {a b default : α} (h : c.Holds shape a b) :
    (Codec.blank name c default).Holds shape a b := by
  intro n unspelled present read path
  refine (and_iff_right rfl).trans (h n unspelled ?_ path)
  cases unspelled with
  | scalar value extent =>
    cases value with
    | null => cases present
    | _ => exact read
  | _ => exact read

theorem holds_optional {a b : Option α}
    (h : ∀ x, a = some x → ∃ y, b = some y ∧ c.Holds shape x y) :
    (optional name c).Holds shape a b := by
  intro n unspelled present read path
  have read' : (if n.isNull = true then .ok none else some <$> c.read n) = Except.ok a := read
  rw [if_neg (present ▸ Bool.false_ne_true)] at read'
  obtain ⟨x, own, rfl⟩ := map_eq_ok_iff.mp read'
  obtain ⟨y, rfl, held⟩ := h x rfl
  exact (and_iff_right rfl).trans (held n unspelled own path)

/-- A member that may be absent holds what it holds where it is there. -/
theorem holds_optionalSame (h : ∀ x, c.Holds shape x x) {a : Option α} :
    (optional name c).Holds shape a a := holds_optional fun x eq => ⟨x, eq, h x⟩

theorem holds_keyed {a b : Option α} (h : ∀ x, a = some x → ∃ y, b = some y ∧ c.Holds shape x y) :
    (keyed name c).Holds shape a b := (holds_optional h : (optional name c).Holds shape a b)

/-- A member that is not written where it is empty holds what is not. -/
theorem holds_omitted {a default : α} {hidden : α → Bool} (h : c.Holds shape a a)
    (hides : ∀ n : Node, n.IsUnspelled → c.read n = .ok a → hidden a = n.isEmpty) :
    (omitted name c default hidden).Holds (.nonempty shape) a a := by
  intro n unspelled _ read path
  have same : hidden a = n.isEmpty := hides n unspelled read
  exact and_congr (same ▸ Iff.rfl) (h n unspelled read path)

end Member

namespace Members

variable {τ σ : Type}

/-- The members hold the shapes of these names. -/
def Hold : {τ σ : Type} → Members τ σ → List (String × Shape) → τ → τ → Prop
  | _, _, nil, shapes, _, _ => shapes = []
  | _, _, cons _ _, [], _, _ => False
  | _, _, cons head tail, (name, shape) :: shapes, (a, as), (b, bs) =>
    head.name = name ∧ head.Holds shape a b ∧ tail.Hold shapes as bs

/-- The values of the record have been read from the documents that are there for them. -/
def ReadFrom : {τ σ : Type} → Members τ σ → (String → Option Node) → τ → Prop
  | _, _, nil, _, _ => True
  | _, _, cons head tail, look, (a, as) =>
    (∀ v, look head.name = some v → head.codec.read v = .ok a) ∧ tail.ReadFrom look as

/-- The slots have what has been read from the documents that are there for them. -/
def FilledFrom : {τ σ : Type} → Members τ σ → (String → Option Node) → σ → Prop
  | _, _, nil, _, _ => True
  | _, _, cons head tail, look, (slot, slots) =>
    (∀ v, look head.name = some v → ∃ a, head.codec.read v = .ok a ∧ slot = some a) ∧
      tail.FilledFrom look slots

/-! ## Reading -/

theorem filledFrom_congr {look look' : String → Option Node} : ∀ {τ σ : Type} (ms : Members τ σ)
    {slots : σ}, (∀ name ∈ ms.names, look' name = look name) → ms.FilledFrom look slots →
    ms.FilledFrom look' slots
  | _, _, nil, _, _, _ => trivial
  | _, _, cons head tail, (_, _), same, filled =>
    ⟨fun v there => filled.1 v (same head.name List.mem_cons_self ▸ there),
      filledFrom_congr tail (fun name mem => same name (List.mem_cons_of_mem _ mem)) filled.2⟩

theorem filledFrom_none : ∀ {τ σ : Type} (ms : Members τ σ),
    ms.FilledFrom (fun _ => Option.none) ms.none
  | _, _, nil => trivial
  | _, _, cons _ tail => ⟨nofun, filledFrom_none tail⟩

/-- An entry fills its slot, if the record knows it. -/
theorem filledFrom_place {name : String} {v : Node} {look : String → Option Node} :
    ∀ {τ σ : Type} (ms : Members τ σ) {slots : σ} {r : Option σ}, ms.names.Nodup →
    ms.place name v slots = .ok r → ms.FilledFrom look slots →
    ms.FilledFrom (Function.update look name (some v)) (r.getD slots)
  | _, _, nil, _, _, _, _, _ => trivial
  | _, _, cons head tail, (slot, slots), r, distinct, placed, filled => by
    obtain ⟨own, others⟩ := filled
    rw [names, List.nodup_cons] at distinct
    rw [place] at placed
    by_cases same : head.name = name
    · rw [if_pos same] at placed
      obtain ⟨a, read, ⟨⟩⟩ := bind_eq_ok_iff.mp placed
      constructor
      · intro v' there
        rw [same, Function.update_self] at there
        cases there
        exact ⟨a, mapError_eq_ok_iff.mp read, rfl⟩
      · -- no later member has the same name
        refine filledFrom_congr tail (fun other mem => ?_) others
        exact Function.update_of_ne (fun eq => distinct.1 (same.trans eq.symm ▸ mem)) _ _
    · rw [if_neg same] at placed
      obtain ⟨r', rest, ⟨⟩⟩ := bind_eq_ok_iff.mp placed
      have later := filledFrom_place tail distinct.2 rest others
      have first (v' : Node) (there : Function.update look name (some v) head.name = some v') :
          ∃ a, head.codec.read v' = .ok a ∧ slot = some a := by
        rw [Function.update_of_ne same] at there
        exact own v' there
      cases r' with
      | none => exact ⟨first, later⟩
      | some slots' => exact ⟨first, later⟩

/-- A record is made of what is in its slots. -/
theorem readFrom_collect {look : String → Option Node} : ∀ {τ σ : Type} (ms : Members τ σ)
    {slots : σ} {as : τ}, ms.FilledFrom look slots → ms.collect slots = .ok as →
    ms.ReadFrom look as
  | _, _, nil, _, _, _, _ => trivial
  | _, _, cons head tail, (slot, slots), (a, as), filled, collected => by
    obtain ⟨own, others⟩ := filled
    obtain ⟨first, rest⟩ := collect_cons_eq_ok_iff.mp collected
    refine ⟨fun v there => ?_, readFrom_collect tail others rest⟩
    obtain ⟨a', read, rfl⟩ := own v there
    exact Option.some.inj first ▸ read

end Members

namespace Codec

open Members

variable {α τ σ : Type} {format : RecordFormat} {ms : Members τ σ}

/-- **The last entry of each name fills the slot.** -/
theorem filledFrom_readMembers (unchecked : format.header.checked = false)
    (distinct : ms.names.Nodup) : ∀ {entries : List Entry} {look : String → Option Node}
    {slots slots' : σ}, (∀ entry ∈ entries, entry.key.IsUnspelled) →
    readMembers format ms entries slots = .ok slots' → ms.FilledFrom look slots →
    ms.FilledFrom (fun name => (Node.lastNamed name entries).or (look name)) slots'
  | [], _, _, _, _, read, filled => Except.ok.inj read ▸ filled
  | entry :: entries, look, slots, slots', keys, read, filled => by
    obtain ⟨own, others⟩ := List.forall_mem_cons.mp keys
    rw [readMembers] at read
    obtain ⟨name, isText, read⟩ := bind_eq_ok_iff.mp read
    obtain ⟨extent, spelled⟩ := read_textOf_eq_ok own isText
    have later : ms.FilledFrom (fun name' => (Node.lastNamed name' entries).or
        (Function.update look name (some entry.value) name')) slots' := by
      simp only [unchecked, Bool.false_eq_true, if_false] at read
      split at read
      · cases read
      · obtain ⟨r, placed, rest⟩ := bind_eq_ok_iff.mp read
        have first := filledFrom_place ms distinct placed filled
        cases r with
        | some slots₁ => exact filledFrom_readMembers unchecked distinct others rest first
        | none =>
          obtain ⟨_, _, rest⟩ := bind_eq_ok_iff.mp rest
          exact filledFrom_readMembers unchecked distinct others rest first
    -- an entry counts unless there is a later one of its name
    refine filledFrom_congr ms (fun name' _ => ?_) later
    rw [Node.lastNamed, Option.or_assoc, spelled]
    congr 1
    simp only [Node.text?, Option.some.injEq]
    by_cases same : name = name'
    · rw [if_pos same, same, Function.update_self]
      rfl
    · rw [if_neg same, Function.update_of_ne (Ne.symm same)]
      rfl

/-- **The values of a record are read from the last entries of their names.** -/
theorem readFrom_readMap (unchecked : format.header.checked = false) (distinct : ms.names.Nodup)
    {entries : List Entry} {ending : Ending} {as : τ}
    (keys : ∀ entry ∈ entries, entry.key.IsUnspelled)
    (read : readMap format ms entries ending = .ok as) :
    ms.ReadFrom (fun name => Node.lastNamed name entries) as := by
  obtain ⟨slots, filled, read⟩ := bind_eq_ok_iff.mp read
  obtain ⟨_, _, read⟩ := bind_eq_ok_iff.mp read
  have collected : ms.collect slots = .ok as := by
    split at read
    · rename_i eq
      exact Except.ok.inj read ▸ eq
    · cases read
  refine readFrom_collect ms (filledFrom_congr ms (fun name _ => ?_)
    (filledFrom_readMembers unchecked distinct keys filled (filledFrom_none ms))) collected
  exact (Option.or_none).symm

/-! ## The whole record -/

section

variable {look : String → Option Node} {name : String} {v : Node} (there : look name = some v)
  (unspelled : v.IsUnspelled) (present : v.isNull = false) (path : List Step)

include there unspelled present

/-- What stands under a name is kept if a member of this name holds it. -/
theorem kept_iff_of_hold : ∀ {τ σ : Type} (ms : Members τ σ) {shapes : List (String × Shape)}
    {as bs : τ}, ms.names.Nodup → ms.Hold shapes as bs → ms.ReadFrom look as →
    ((∃ j, (ms.write bs).lookup name = some j ∧ Shape.KeepsMember shapes name path v j) ↔
      Shape.CoversMember shapes name path v)
  | _, _, nil, shapes, _, _, _, held, _ => by
    obtain rfl : shapes = [] := held
    exact iff_of_false nofun id
  | _, _, cons _ _, [], _, _, _, held, _ => held.elim
  | _, _, cons head tail, (known, shape) :: shapes, (a, as), (b, bs), distinct, held, read => by
    obtain ⟨rfl, own, others⟩ := held
    rw [names, List.nodup_cons] at distinct
    have rest := kept_iff_of_hold tail distinct.2 others read.2
    simp only [Shape.KeepsMember, Shape.CoversMember]
    by_cases same : name = head.name
    · have first := own v unspelled present (read.1 v (same ▸ there)) path
      simp only [if_pos same]
      rw [← first]
      cases hidden : head.hidden b with
      | true =>
        -- a member that is hidden is not written, and no later one has its name
        have absent : (tail.write bs).lookup name = Option.none :=
          among_eq_none fun mem => distinct.1 (same ▸ (names_write tail bs).subset mem)
        rw [write_cons_hidden hidden, absent]
        constructor
        · rintro ⟨_, ⟨⟩, _⟩
        · rintro ⟨⟨⟩, _⟩
      | false =>
        rw [write_cons_shown (hidden ▸ Bool.false_ne_true), StringMap.lookup_cons_ite,
          if_pos same]
        constructor
        · rintro ⟨_, ⟨⟩, kept⟩
          exact ⟨rfl, kept⟩
        · rintro ⟨_, kept⟩
          exact ⟨_, rfl, kept⟩
    · simp only [if_neg same]
      rw [← rest]
      cases hidden : head.hidden b with
      | true => rw [write_cons_hidden hidden]
      | false =>
        rw [write_cons_shown (hidden ▸ Bool.false_ne_true), StringMap.lookup_cons_ite,
          if_neg same]

end

/-- The shapes of a header. -/
def headerShapes (header : Header) : List (String × Shape) :=
  header.members.map fun m => (m.1, .fixed m.2)

/-- A header in front holds its texts. -/
theorem kept_iff_of_header {name : String} {path : List Step} {v : Node}
    {members : List (String × Json)} {shapes : List (String × Shape)}
    (h : (∃ j, members.lookup name = some j ∧ Shape.KeepsMember shapes name path v j) ↔
      Shape.CoversMember shapes name path v) (header : List (String × String)) :
    (∃ j, (header.map (fun m => (m.1, Json.str m.2)) ++ members).lookup name = some j ∧
        Shape.KeepsMember (header.map (fun m => (m.1, Shape.fixed m.2)) ++ shapes) name path v j) ↔
      Shape.CoversMember (header.map (fun m => (m.1, Shape.fixed m.2)) ++ shapes) name path v := by
  induction header with
  | nil => exact h
  | cons m header ih =>
    simp only [List.map_cons, List.cons_append, Shape.KeepsMember, Shape.CoversMember]
    rw [StringMap.lookup_cons_ite]
    by_cases same : name = m.1
    · simp only [if_pos same]
      constructor
      · rintro ⟨_, ⟨⟩, kept⟩
        exact kept
      · intro kept
        exact ⟨_, rfl, kept⟩
    · simp only [if_neg same]
      exact ih

/-- **A record holds its header and its members.** -/
theorem holds_record {make : τ → α} {split : α → τ} (unchecked : format.header.checked = false)
    (distinct : ms.names.Nodup) (whole : ∀ as, split (make as) = as)
    {shapes : List (String × Shape)} {a b : α} (h : ms.Hold shapes (split a) (split b)) :
    (record format ms make split).Holds (.record (headerShapes format.header ++ shapes)) a b := by
  intro n unspelled read path
  cases unspelled with
  | @map entries language first ending keys values =>
    obtain ⟨as, read', rfl⟩ := map_eq_ok_iff.mp read
    rw [whole] at h
    have source := readFrom_readMap unchecked distinct keys read'
    have each {name : String} {v : Node} (there : Node.lastNamed name entries = some v)
        (present : v.isNull = false) (rest : List Step) :
        (∃ j, (format.header.members.map (fun m => (m.1, Json.str m.2)) ++
            ms.write (split b)).lookup name = some j ∧
            Shape.KeepsMember (headerShapes format.header ++ shapes) name rest v j) ↔
          Shape.CoversMember (headerShapes format.header ++ shapes) name rest v := by
      obtain ⟨entry, mem, rfl⟩ := Node.exists_of_lastNamed there
      exact kept_iff_of_header (kept_iff_of_hold there (values entry mem) present rest ms distinct h
        source) format.header.members
    constructor
    · intro kept name rest v eq there
      cases present : v.isNull with
      | true => exact .inl rfl
      | false =>
        have own := (kept name rest v eq there).resolve_left (present ▸ Bool.false_ne_true)
        exact .inr ((each there present rest).mp own)
    · intro covered name rest v eq there
      cases present : v.isNull with
      | true => exact .inl rfl
      | false =>
        have own := (covered name rest v eq there).resolve_left (present ▸ Bool.false_ne_true)
        exact .inr ((each there present rest).mpr own)
  | _ => exact iff_of_false id id

end Codec

end NodeProvisioner
