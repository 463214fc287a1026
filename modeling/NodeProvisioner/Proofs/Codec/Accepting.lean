import NodeProvisioner.Proofs.Codec.Returning

/-!
# What can be read at all

A codec *accepts* a value to a depth if the document it writes is bounded and nested no deeper, and
can be read whatever a reader has made of the loose numbers in it. Unlike what is carried, what is
accepted need not come back as it was. A codec for opaque values accepts all that is bounded, and
one for records accepts what its members accept.

Main statement: the codec of machines accepts every machine that is *readable*, whatever numbers it
holds besides those that only the provider understands.
-/

namespace NodeProvisioner

namespace Codec

variable {α τ σ : Type}

/-- What the codec writes can be printed and read. -/
structure Accepts (c : Codec α) (depth : Nat) (a : α) : Prop where
  bounded : (c.write a).isBounded = true
  shallow : (c.write a).depth ≤ depth
  reads : ∀ k, (c.write a).canonical.Resembles k → ∃ b, c.ofJson k = .ok b

/-- What is carried is accepted. -/
theorem Carries.accepts {c : Codec α} {d : Nat} {a : α} (h : c.Carries d a) : c.Accepts d a := by
  refine ⟨Json.isBounded_of_isPlain h.plain, h.shallow, fun k alike => ⟨a, ?_⟩⟩
  rw [alike.eq_of_isPlain (Json.isPlain_canonical h.plain)]
  exact h.reads

theorem accepts_any {d : Nat} {j : Json} (bounded : j.isBounded = true) (shallow : j.depth ≤ d) :
    any.Accepts d j := ⟨bounded, shallow, fun k _ => ⟨k.canonical, Json.ofNode_toNode k⟩⟩

theorem Accepts.some {c : Codec α} {d : Nat} {a : α} (h : c.Accepts d a) :
    c.optional.Accepts d (some a) := by
  refine ⟨h.bounded, h.shallow, fun k alike => ?_⟩
  have read : c.optional.ofJson k
      = if k.toNode.isNull then .ok none else Option.some <$> c.ofJson k := rfl
  obtain ⟨b, eq⟩ := h.reads k alike
  rw [read, eq]
  split
  · exact ⟨_, rfl⟩
  · exact ⟨_, rfl⟩

/-! ## Lists -/

theorem readItems_accepted {c : Codec α} {d : Nat} : ∀ (as : List α) (index : Nat)
    {ks : List Json}, (∀ a ∈ as, c.Accepts d a) →
    Json.ItemsResemble (Json.canonicalItems (as.map c.write)) ks →
    ∃ bs, readItems c.read index (Json.itemNodes ks) = .ok bs
  | [], _, _, _, alike => by
    cases alike
    exact ⟨[], rfl⟩
  | a :: as, index, _, h, alike => by
    obtain ⟨accepted, others⟩ := List.forall_mem_cons.mp h
    obtain ⟨k, ks, rfl, first, rest⟩ := alike
    obtain ⟨b, eq⟩ := accepted.reads k first
    obtain ⟨bs, eqs⟩ := readItems_accepted as (index + 1) others rest
    have read : c.read k.toNode = .ok b := eq
    rw [Json.itemNodes, readItems, read, eqs]
    exact ⟨b :: bs, rfl⟩

/-- **A list is accepted if its items are.** -/
theorem accepts_list {c : Codec α} {d : Nat} {as : List α} (h : ∀ a ∈ as, c.Accepts d a) :
    (list c).Accepts (d + 1) as := by
  refine ⟨Json.itemsBounded_iff.mpr (List.forall_mem_map.mpr fun a mem => (h a mem).bounded),
    Nat.succ_le_succ (Json.itemsDepth_le_iff.mpr ?_), ?_⟩
  · exact List.forall_mem_map.mpr fun a mem => (h a mem).shallow
  · intro k alike
    obtain ⟨ks, rfl, items⟩ : ∃ ks, k = .arr ks ∧
      Json.ItemsResemble (Json.canonicalItems (as.map c.write)) ks := alike
    obtain ⟨bs, eq⟩ := readItems_accepted as 0 h items
    have read : (list c).ofJson (.arr ks) = (do
        let bs ← readItems c.read 0 (Json.itemNodes ks)
        Ending.unmarked.wanted
        return bs) := rfl
    rw [read, eq]
    exact ⟨bs, rfl⟩

end Codec

/-! ## Records -/

/-- A member accepts a value, or hides it and something counts when it is absent. -/
def Member.Accepts {α : Type} (member : Member α) (d : Nat) (a : α) : Prop :=
  if member.hidden a = true then member.absent.isSome = true else member.codec.Accepts d a

theorem Member.Carries.accepts {α : Type} {member : Member α} {d : Nat} {a : α}
    (h : member.Carries d a) : member.Accepts d a := by
  unfold Member.Accepts
  split
  · rename_i hidden
    rw [(if_pos hidden).mp h]
    rfl
  · rename_i shown
    exact Codec.Carries.accepts ((if_neg shown).mp h)

theorem Member.accepts_required {α : Type} {name : String} {c : Codec α} {d : Nat} {a : α}
    (h : c.Accepts d a) : (required name c).Accepts d a := (if_neg Bool.false_ne_true).mpr h

theorem Member.accepts_defaulted {α : Type} {name : String} {c : Codec α} {d : Nat} {a default : α}
    (h : c.Accepts d a) : (defaulted name c default).Accepts d a := (if_neg Bool.false_ne_true).mpr h

theorem Member.accepts_optional {α : Type} {name : String} {c : Codec α} {d : Nat} {a : Option α}
    (h : ∀ b, a = some b → c.Accepts d b) : (optional name c).Accepts d a := by
  cases a with
  | none => rfl
  | some b => exact (h b rfl).some

namespace Members

open Codec

variable {τ σ : Type}

/-- The members accept the values of a record. -/
def Accept : {τ σ : Type} → Members τ σ → Nat → τ → Prop
  | _, _, nil, _, _ => True
  | _, _, cons head tail, d, (a, as) => head.Accepts d a ∧ tail.Accept d as

theorem Accept.forall_mem_write {d : Nat} : ∀ {τ σ : Type} {ms : Members τ σ} {as : τ},
    ms.Accept d as → ∀ m ∈ ms.write as, m.2.isBounded = true ∧ m.2.depth ≤ d
  | _, _, nil, _, _ => List.forall_mem_nil _
  | _, _, cons head tail, (a, as), accept => by
    have rest := Accept.forall_mem_write accept.2
    by_cases h : head.hidden a = true
    · rw [write_cons_hidden h]
      exact rest
    · have first : head.codec.Accepts d a := (if_neg h).mp accept.1
      rw [write_cons_shown h]
      exact List.forall_mem_cons.mpr ⟨⟨first.bounded, first.shallow⟩, rest⟩

/-- **What answers to the members that have been written can be read.** -/
theorem exists_reads_of_accept {d : Nat} {look : String → Option Json} : ∀ {τ σ : Type}
    (ms : Members τ σ) (as : τ), ms.names.Nodup → ms.Accept d as →
    (∀ name ∈ ms.names, Answers (among (ms.write as) name) (look name)) →
    ∃ bs, ms.Reads look bs
  | _, _, nil, _, _, _, _ => ⟨(), trivial⟩
  | _, _, cons head tail, (a, as), distinct, accept, h => by
    rw [names, List.nodup_cons] at distinct
    have absent : among (tail.write as) head.name = Option.none :=
      among_eq_none fun mem => distinct.1 ((names_write tail as).subset mem)
    have own := h head.name List.mem_cons_self
    by_cases hidden : head.hidden a = true
    · rw [write_cons_hidden hidden] at h own
      obtain ⟨bs, rest⟩ := exists_reads_of_accept tail as distinct.2 accept.2 fun name mem =>
        h name (List.mem_cons_of_mem _ mem)
      obtain ⟨b, first⟩ := Option.isSome_iff_exists.mp ((if_pos hidden).mp accept.1)
      rw [absent] at own
      obtain ⟨_, nothing⟩ | ⟨j, k, sent, _, _⟩ := own
      · exact ⟨(b, bs), by simp only [nothing]; exact first, rest⟩
      · cases sent
    · rw [write_cons_shown hidden] at h own
      obtain ⟨bs, rest⟩ := exists_reads_of_accept tail as distinct.2 accept.2 fun name mem => by
        have ne : name ≠ head.name := fun same => distinct.1 (same ▸ mem)
        have other := h name (List.mem_cons_of_mem _ mem)
        rwa [among_cons, if_neg ne] at other
      rw [among_cons, if_pos rfl] at own
      obtain ⟨sent, _⟩ | ⟨j, k, sent, got, alike⟩ := own
      · cases sent
      · cases sent
        have accepted : head.codec.Accepts d a := (if_neg hidden).mp accept.1
        obtain ⟨b, first⟩ := accepted.reads k alike
        exact ⟨(b, bs), by simp only [got]; exact first, rest⟩

end Members

namespace Codec

open Members

variable {α τ σ : Type}

/-- **A record is accepted if its members accept the values it is made of.** -/
theorem accepts_record {format : RecordFormat} (unchecked : format.header.checked = false)
    {ms : Members τ σ} (distinct : (format.header.members.map (·.1) ++ ms.names).Nodup)
    {make : τ → α} {split : α → τ} {d : Nat} {a : α} (accept : ms.Accept d (split a)) :
    (record format ms make split).Accepts (d + 1) a := by
  obtain ⟨_, distinctMembers, _⟩ := List.nodup_append.mp distinct
  have written : ∀ m ∈ format.header.members.map (fun m => (m.1, Json.str m.2)) ++ ms.write (split a),
      m.2.isBounded = true ∧ m.2.depth ≤ d := by
    refine List.forall_mem_append.mpr ⟨?_, accept.forall_mem_write⟩
    exact List.forall_mem_map.mpr fun _ _ => ⟨rfl, Nat.zero_le d⟩
  refine ⟨Json.membersBounded_iff.mpr fun m mem => (written m mem).1,
    Nat.succ_le_succ (Json.membersDepth_le_iff.mpr fun m mem => (written m mem).2), ?_⟩
  intro k alike
  obtain ⟨members, rfl, same⟩ : ∃ members, k = .obj members ∧
    Json.MembersResemble (Codec.written format ms (split a)) members := alike
  have once : (members.map (·.1)).Nodup := by
    rw [same.names]
    exact (Json.sorted_sortMembers _).nodup
  obtain ⟨bs, reads⟩ := exists_reads_of_accept ms (split a) distinctMembers accept
    fun name mem => answers_of_resemble distinct same mem
  exact ⟨make bs, (ofJson_record unchecked distinctMembers once).mpr ⟨bs, reads, rfl⟩⟩

end Codec

/-! ## Machines -/

structure ManagedFields.IsReadable (f : ManagedFields) : Prop where
  fields : ∀ j, f.fields = some j → j.isBounded = true ∧ j.depth ≤ 123
  time : ∀ t, f.time = some t → t.IsWhole

structure ObjectMeta.IsReadable (m : ObjectMeta) : Prop where
  creation : ∀ t, m.creationTimestamp = some t → t.IsWhole
  deletion : ∀ t, m.deletionTimestamp = some t → t.IsWhole
  managed : ∀ fs, m.managedFields = some fs → ∀ f ∈ fs, f.IsReadable

/-- A machine whose text can be read. What only the provider understands is read back as it was. -/
structure Machine.IsReadable (m : Machine) : Prop where
  metadata : m.metadata.IsReadable
  value : ∀ j, m.spec.providerSpec.value = some j →
    j.IsNormal ∧ j.isPlain = true ∧ j.depth ≤ 124

theorem Machine.IsPlain.isReadable {m : Machine} (h : m.IsPlain) : m.IsReadable := by
  refine ⟨⟨h.metadata.creation, h.metadata.deletion, fun fs eq f mem => ⟨?_, ?_⟩⟩, fun j eq => ?_⟩
  · intro j eq'
    have kept := (h.metadata.managed fs eq f mem).fields j eq'
    exact ⟨Json.isBounded_of_isPlain kept.plain, kept.shallow⟩
  · exact (h.metadata.managed fs eq f mem).time
  · have kept := h.value j eq
    exact ⟨kept.normal, kept.plain, kept.shallow⟩

/-- An annotation does not make metadata less readable. -/
theorem ObjectMeta.IsReadable.annotate {m : ObjectMeta} (h : m.IsReadable) (key value : String) :
    (m.annotate key value).IsReadable := ⟨h.creation, h.deletion, h.managed⟩

namespace Codec

open Member

theorem accepts_managedFields {f : ManagedFields} (h : f.IsReadable) :
    managedFields.Accepts 124 f := by
  refine accepts_record rfl (by decide) ?_
  refine ⟨(carries_textOption _).accepts, (carries_textOption _).accepts, accepts_optional ?_,
    (carries_textOption _).accepts, (carries_textOption _).accepts, (carries_textOption _).accepts,
    (carries_optional ?_).accepts, trivial⟩
  · intro j eq
    obtain ⟨bounded, shallow⟩ := h.fields j eq
    exact accepts_any bounded shallow
  · intro t eq
    exact ⟨carries_timestamp _ (h.time t eq), nofun⟩

theorem accepts_objectMeta {m : ObjectMeta} (h : m.IsReadable) : objectMeta.Accepts 126 m := by
  refine accepts_record rfl (by decide) ?_
  refine ⟨(carries_optional fun a _ => ⟨carries_textMap 124 a, nofun⟩).accepts,
    (carries_optional ?_).accepts,
    (carries_optional fun n _ => ⟨carries_int64 _ n, nofun⟩).accepts, (carries_optional ?_).accepts,
    (carries_optional fun a _ => ⟨carries_texts 124 a, nofun⟩).accepts,
    (carries_textOption _).accepts,
    (carries_optional fun n _ => ⟨carries_int64 _ n, nofun⟩).accepts,
    (carries_optional fun a _ => ⟨carries_textMap 124 a, nofun⟩).accepts, accepts_optional ?_,
    (carries_textOption _).accepts, (carries_textOption _).accepts, (carries_optional ?_).accepts,
    (carries_textOption _).accepts, (carries_textOption _).accepts, (carries_textOption _).accepts,
    trivial⟩
  · intro t eq
    exact ⟨carries_timestamp _ (h.creation t eq), nofun⟩
  · intro t eq
    exact ⟨carries_timestamp _ (h.deletion t eq), nofun⟩
  · intro fs eq
    exact accepts_list fun f mem => accepts_managedFields (h.managed fs eq f mem)
  · intro os _
    exact ⟨carries_list fun o _ => (carries_ownerReference o).mono (by decide), nofun⟩

theorem accepts_machineSpec {s : MachineSpec}
    (h : ∀ j, s.providerSpec.value = some j → j.isBounded = true ∧ j.depth ≤ 124) :
    machineSpec.Accepts 126 s := by
  have value : providerSpec.Accepts 125 s.providerSpec := by
    refine accepts_record rfl (by decide) ⟨accepts_optional fun j eq => ?_, trivial⟩
    obtain ⟨bounded, shallow⟩ := h j eq
    exact accepts_any bounded shallow
  refine accepts_record rfl (by decide) ?_
  exact ⟨accepts_defaulted value,
    (carries_defaulted ((carries_versions _).mono (by decide))).accepts,
    (carries_textOption _).accepts, trivial⟩

/-- **The codec of machines accepts every readable machine.** -/
theorem accepts_machine {m : Machine} (h : m.IsReadable) :
    machine.Accepts Json.depthLimit m := by
  have spec : machineSpec.Accepts 126 m.spec := accepts_machineSpec fun j eq =>
    have kept := h.value j eq
    ⟨Json.isBounded_of_isPlain kept.2.1, kept.2.2⟩
  refine accepts_record (d := 126) rfl (by decide) ?_
  exact ⟨accepts_required (accepts_objectMeta h.metadata), accepts_required spec,
    (carries_keyed fun s _ => ⟨(carries_machineStatus s).mono (by decide), nofun⟩).accepts, trivial⟩

end Codec

end NodeProvisioner
