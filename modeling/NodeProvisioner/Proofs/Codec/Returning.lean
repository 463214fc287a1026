import NodeProvisioner.Proofs.Codec.Machines
import NodeProvisioner.Proofs.Codec.Steadiness

/-!
# What comes back

A value that is not plain need not be read back as it was written: a reader may replace a number
by another. What comes back is then what the codec reads from *some* document that resembles the
one written. Most of a machine comes back as it was even so: its name, and what it asks for.
-/

namespace NodeProvisioner

namespace Codec

variable {α τ σ : Type}

/-- The second value is what may come back of the first. -/
def Returns (c : Codec α) (a b : α) : Prop :=
  ∃ k, (c.write a).canonical.Resembles k ∧ c.ofJson k = .ok b

theorem Returns.text {s t : String} (h : text.Returns s t) : t = s := by
  obtain ⟨k, alike, read⟩ := h
  have same : k = .str s := alike
  rw [same] at read
  exact (Except.ok.inj read).symm

/-- **What is carried comes back as it was, if anything comes back.** -/
theorem Returns.carried {c : Codec α} {d : Nat} {a b : α} (h : c.Returns a b)
    (carried : c.Carries d a) : b = a := by
  obtain ⟨k, alike, read⟩ := h
  rw [alike.eq_of_isPlain (Json.isPlain_canonical carried.plain), carried.reads] at read
  exact (Except.ok.inj read).symm

/-- An opaque value is read with its members sorted. -/
theorem Returns.any {j k : Json} (normal : j.IsNormal) (h : any.Returns j k) : j.Resembles k := by
  obtain ⟨l, alike, read⟩ := h
  have read' : Codec.any.ofJson l = .ok l.canonical := Json.ofNode_toNode l
  have same : k = l.canonical := Except.ok.inj (read.symm.trans read')
  have alike' : j.canonical.Resembles l := alike
  rw [normal] at alike'
  have := alike'.canonical
  rwa [normal, ← same] at this

/-- A value that is there comes back, unless it comes back as `null`. -/
theorem Returns.some {c : Codec α} {a : α} {b : Option α} (h : c.optional.Returns (some a) b) :
    (b = none ∧ (c.write a).canonical.Resembles .null) ∨ ∃ b', b = some b' ∧ c.Returns a b' := by
  obtain ⟨k, alike, read⟩ := h
  have read' : c.optional.ofJson k
      = if k.toNode.isNull = true then .ok none else Option.some <$> c.ofJson k := rfl
  rw [read'] at read
  split at read
  · rename_i isNull
    have same : k = .null := by
      cases k with
      | null => rfl
      | _ => cases isNull
    exact .inl ⟨(Except.ok.inj read).symm, same ▸ alike⟩
  · obtain ⟨b', result, rfl⟩ := map_eq_ok_iff.mp read
    exact .inr ⟨b', rfl, k, alike, result⟩

end Codec

/-! ## Records -/

/-- What may come back of the value of a member: if it is not written, what counts when the member
is absent. -/
def Member.Returns {α : Type} (member : Member α) (a b : α) : Prop :=
  if member.hidden a = true then member.absent = some b else member.codec.Returns a b

/-- A text that may be absent comes back. -/
theorem Member.Returns.textOption {name : String} {s t : Option String}
    (h : (Member.optional name Codec.text).Returns s t) : t = s := by
  cases s with
  | none => exact (Option.some.inj h).symm
  | some s =>
    obtain ⟨_, alike⟩ | ⟨t', rfl, same⟩ := Codec.Returns.some h
    · cases alike
    · exact congrArg some same.text

namespace Members

open Codec

variable {τ σ : Type}

/-- What may come back of the values of a record. -/
def Return : {τ σ : Type} → Members τ σ → τ → τ → Prop
  | _, _, nil, _, _ => True
  | _, _, cons head tail, (a, as), (b, bs) => head.Returns a b ∧ tail.Return as bs

/-- A member that was written is there, and resembles what was written; no other is there. -/
def Answers (sent got : Option Json) : Prop :=
  (sent = .none ∧ got = .none) ∨ ∃ j k, sent = some j ∧ got = some k ∧ j.canonical.Resembles k

theorem return_of_reads {look : String → Option Json} : ∀ {τ σ : Type} (ms : Members τ σ)
    (as bs : τ), ms.names.Nodup → ms.Reads look bs →
    (∀ name ∈ ms.names, Answers (among (ms.write as) name) (look name)) → ms.Return as bs
  | _, _, nil, _, _, _, _, _ => trivial
  | _, _, cons head tail, (a, as), (b, bs), distinct, reads, h => by
    rw [names, List.nodup_cons] at distinct
    have absent : among (tail.write as) head.name = Option.none :=
      among_eq_none fun mem => distinct.1 ((names_write tail as).subset mem)
    have own := h head.name List.mem_cons_self
    obtain ⟨first, rest⟩ := reads
    -- a member that is hidden has not been written, so what counts is what stands in for it
    by_cases hidden : head.hidden a = true
    · rw [write_cons_hidden hidden] at h own
      refine ⟨(if_pos hidden).mpr ?_, return_of_reads tail as bs distinct.2 rest fun name mem =>
        h name (List.mem_cons_of_mem _ mem)⟩
      rw [absent] at own
      obtain ⟨_, nothing⟩ | ⟨j, k, sent, _, _⟩ := own
      · rw [nothing] at first
        exact first
      · cases sent
    · rw [write_cons_shown hidden] at h own
      refine ⟨(if_neg hidden).mpr ?_, return_of_reads tail as bs distinct.2 rest ?_⟩
      · rw [among_cons, if_pos rfl] at own
        obtain ⟨sent, _⟩ | ⟨j, k, sent, got, alike⟩ := own
        · cases sent
        · cases sent
          simp only [got] at first
          exact ⟨k, alike, first⟩
      · intro name mem
        have ne : name ≠ head.name := fun same => distinct.1 (same ▸ mem)
        have other := h name (List.mem_cons_of_mem _ mem)
        rwa [among_cons, if_neg ne] at other

/-- What is looked up in a document that resembles a record answers to what was written. -/
theorem answers_of_resemble {format : RecordFormat} {ms : Members τ σ}
    (distinct : (format.header.members.map (·.1) ++ ms.names).Nodup) {as : τ}
    {members : List (String × Json)} (alike : Json.MembersResemble (written format ms as) members)
    {name : String} (mem : name ∈ ms.names) :
    Answers (among (ms.write as) name) (among members name) := by
  have sent := among_written format distinct as mem
  obtain ⟨unsent, nothing⟩ | ⟨j, k, found, found', alike'⟩ := alike.lookup name
  · rw [among, unsent] at sent
    exact .inl ⟨Option.map_eq_none_iff.mp sent.symm, nothing⟩
  · rw [among, found] at sent
    obtain ⟨i, wrote, rfl⟩ := Option.map_eq_some_iff.mp sent.symm
    exact .inr ⟨i, k, wrote, found', alike'⟩

end Members

namespace Codec

open Members

variable {α τ σ : Type}

/-- **What may come back of a record is made of what may come back of its members.** -/
theorem Returns.record {format : RecordFormat} {ms : Members τ σ} {make : τ → α} {split : α → τ}
    {a b : α} (h : (record format ms make split).Returns a b)
    (unchecked : format.header.checked = false)
    (distinct : (format.header.members.map (·.1) ++ ms.names).Nodup) :
    ∃ bs, ms.Return (split a) bs ∧ make bs = b := by
  obtain ⟨k, alike, read⟩ := h
  have alike' : (Json.obj (written format ms (split a))).Resembles k := alike
  rw [Json.Resembles] at alike'
  obtain ⟨members, rfl, same⟩ := alike'
  have once : (members.map (·.1)).Nodup := by
    rw [same.names]
    exact (Json.sorted_sortMembers _).nodup
  obtain ⟨_, distinctMembers, _⟩ := List.nodup_append.mp distinct
  obtain ⟨bs, reads, made⟩ := (ofJson_record unchecked distinctMembers once).mp read
  exact ⟨bs, return_of_reads ms (split a) bs distinctMembers reads fun name mem =>
    answers_of_resemble distinct same mem, made⟩

end Codec

end NodeProvisioner
