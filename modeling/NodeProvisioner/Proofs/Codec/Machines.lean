import NodeProvisioner.Proofs.Codec.Carrying
import NodeProvisioner.Resource.Machine

/-!
# Plain machines

A machine is plain if all of it can be printed and read back: its timestamps are of whole seconds
and of years of four digits, the opaque values it holds have only integers for numbers, and these
values are such as a reader leaves them: sorted, not `null` where that would stand for nothing, and
nested no deeper than a reader follows.

Main statement: the codec of machines carries every plain machine.
-/

namespace NodeProvisioner

/-! ## Plain records -/

/-- The members of all objects are sorted and named once, as in a map. -/
def Json.IsNormal (j : Json) : Prop := j.canonical = j

/-- An object whose members are sorted by name is as a reader leaves it, if their values are. -/
theorem Json.isNormal_obj {members : List (String × Json)}
    (names : (members.map (·.1)).Pairwise (· < ·)) (values : ∀ m ∈ members, m.2.IsNormal) :
    (obj members).IsNormal := by
  have same : canonicalMembers members = members := by
    rw [canonicalMembers_eq]
    refine (List.map_congr_left fun m mem => ?_).trans (List.map_id members)
    rw [values m mem]
    rfl
  rw [IsNormal, canonical, same]
  exact congrArg obj (sortMembers_of_sorted (List.pairwise_map.mp names))

/-- An opaque value that can be kept in a text: it is as a reader leaves it, and it has only
integers for numbers. -/
structure Json.IsKept (depth : Nat) (j : Json) : Prop where
  present : j ≠ .null
  normal : j.IsNormal
  plain : j.isPlain = true
  shallow : j.depth ≤ depth

structure ManagedFields.IsPlain (f : ManagedFields) : Prop where
  fields : ∀ j, f.fields = some j → j.IsKept 123
  time : ∀ t, f.time = some t → t.IsWhole

structure ObjectMeta.IsPlain (m : ObjectMeta) : Prop where
  creation : ∀ t, m.creationTimestamp = some t → t.IsWhole
  deletion : ∀ t, m.deletionTimestamp = some t → t.IsWhole
  managed : ∀ fs, m.managedFields = some fs → ∀ f ∈ fs, f.IsPlain

structure Machine.IsPlain (m : Machine) : Prop where
  metadata : m.metadata.IsPlain
  value : ∀ j, m.spec.providerSpec.value = some j → j.IsKept 124

/-- An annotation does not make metadata less plain. -/
theorem ObjectMeta.IsPlain.annotate {m : ObjectMeta} (h : m.IsPlain) (key value : String) :
    (m.annotate key value).IsPlain := ⟨h.creation, h.deletion, h.managed⟩

/-! ## Members -/

namespace Member

variable {α : Type} {name : String} {c : Codec α} {d : Nat}

theorem carries_required {a : α} (h : c.Carries d a) : (required name c).Carries d a :=
  (if_neg Bool.false_ne_true).mpr h

theorem carries_defaulted {a default : α} (h : c.Carries d a) :
    (defaulted name c default).Carries d a := (if_neg Bool.false_ne_true).mpr h

theorem carries_omitted {a default : α} {hidden : α → Bool} (h : c.Carries d a)
    (hides : hidden a = true → a = default) : (omitted name c default hidden).Carries d a := by
  unfold Member.Carries
  split
  · rename_i eq
    exact congrArg some (hides eq).symm
  · exact h

theorem carries_optional {a : Option α} (h : ∀ b, a = some b → c.Carries d b ∧ c.write b ≠ .null) :
    (optional name c).Carries d a := by
  cases a with
  | none => rfl
  | some b => exact (h b rfl).1.some (h b rfl).2

theorem carries_keyed {a : Option α} (h : ∀ b, a = some b → c.Carries d b ∧ c.write b ≠ .null) :
    (keyed name c).Carries d a := (carries_optional h : (optional name c).Carries d a)

/-- A text that may be absent. -/
theorem carries_textOption (a : Option String) : (optional name Codec.text).Carries d a :=
  carries_optional fun b _ => ⟨Codec.carries_text d b, nofun⟩

end Member

namespace Codec

open Member

/-! ## Metadata -/

theorem carries_managedFields {f : ManagedFields} (h : f.IsPlain) :
    managedFields.Carries 124 f := by
  refine carries_record rfl (by decide) rfl ?_
  refine ⟨carries_textOption _, carries_textOption _, carries_optional ?_, carries_textOption _,
    carries_textOption _, carries_textOption _, carries_optional ?_, trivial⟩
  · intro j eq
    have kept := h.fields j eq
    exact ⟨carries_any kept.plain kept.shallow kept.normal, kept.present⟩
  · intro t eq
    exact ⟨carries_timestamp _ (h.time t eq), nofun⟩

/-- A text that may be `null`, but is written in any case. -/
theorem carries_blank {name : String} (d : Nat) (s default : String) :
    (blank name text default).Carries d s :=
  carries_defaulted ((carries_text d s).orElse nofun default)

theorem carries_ownerReference (o : OwnerReference) : ownerReference.Carries 1 o := by
  refine carries_record rfl (by decide) rfl ?_
  exact ⟨carries_blank _ _ _, carries_optional fun b _ => ⟨carries_bool 0 b, nofun⟩,
    carries_optional fun b _ => ⟨carries_bool 0 b, nofun⟩, carries_blank _ _ _,
    carries_blank _ _ _, carries_blank _ _ _, trivial⟩

theorem carries_texts (d : Nat) (texts : List String) : (list text).Carries (d + 1) texts :=
  carries_list fun s _ => carries_text d s

theorem carries_textMap (d : Nat) (m : StringMap String) : (dict text).Carries (d + 1) m :=
  carries_dict fun e _ => carries_text d e.2

theorem carries_objectMeta {m : ObjectMeta} (h : m.IsPlain) : objectMeta.Carries 126 m := by
  refine carries_record rfl (by decide) rfl ?_
  refine ⟨carries_optional fun a _ => ⟨carries_textMap 124 a, nofun⟩, carries_optional ?_,
    carries_optional fun n _ => ⟨carries_int64 _ n, nofun⟩, carries_optional ?_,
    carries_optional fun a _ => ⟨carries_texts 124 a, nofun⟩, carries_textOption _,
    carries_optional fun n _ => ⟨carries_int64 _ n, nofun⟩,
    carries_optional fun a _ => ⟨carries_textMap 124 a, nofun⟩, carries_optional ?_,
    carries_textOption _, carries_textOption _, carries_optional ?_, carries_textOption _,
    carries_textOption _, carries_textOption _, trivial⟩
  · intro t eq
    exact ⟨carries_timestamp _ (h.creation t eq), nofun⟩
  · intro t eq
    exact ⟨carries_timestamp _ (h.deletion t eq), nofun⟩
  · intro fs eq
    exact ⟨carries_list fun f mem => carries_managedFields (h.managed fs eq f mem), nofun⟩
  · intro os _
    exact ⟨carries_list fun o _ => (carries_ownerReference o).mono (by decide), nofun⟩

/-! ## Specs and states -/

theorem carries_versions (v : Versions) : versions.Carries 1 v := by
  refine carries_record rfl (by decide) rfl ?_
  exact ⟨carries_defaulted (carries_text 0 _),
    carries_omitted (carries_text 0 _) String.isEmpty_iff.mp, trivial⟩

theorem carries_providerSpec {p : ProviderSpec} (h : ∀ j, p.value = some j → j.IsKept 124) :
    providerSpec.Carries 125 p := by
  refine carries_record rfl (by decide) rfl ⟨carries_optional ?_, trivial⟩
  intro j eq
  have kept := h j eq
  exact ⟨carries_any kept.plain kept.shallow kept.normal, kept.present⟩

theorem carries_machineSpec {s : MachineSpec}
    (h : ∀ j, s.providerSpec.value = some j → j.IsKept 124) : machineSpec.Carries 126 s := by
  refine carries_record rfl (by decide) rfl ?_
  exact ⟨carries_defaulted (carries_providerSpec h),
    carries_defaulted ((carries_versions _).mono (by decide)), carries_textOption _, trivial⟩

theorem carries_machineAddress (a : MachineAddress) : machineAddress.Carries 1 a := by
  refine carries_record rfl (by decide) rfl ?_
  exact ⟨carries_required (carries_text 0 _), carries_required (carries_text 0 _), trivial⟩

theorem carries_machineStatus (s : MachineStatus) : machineStatus.Carries 3 s := by
  refine carries_record rfl (by decide) rfl ?_
  exact ⟨carries_omitted (carries_list fun a _ => carries_machineAddress a) List.isEmpty_iff.mp,
    carries_textOption _, carries_textOption _, carries_textOption _, trivial⟩

/-- **The codec of machines carries every plain machine.** -/
theorem carries_machine {m : Machine} (h : m.IsPlain) : machine.Carries Json.depthLimit m := by
  refine carries_record (d := 126) rfl (by decide) rfl ?_
  exact ⟨carries_required (carries_objectMeta h.metadata),
    carries_required (carries_machineSpec h.value),
    carries_keyed fun s _ => ⟨(carries_machineStatus s).mono (by decide), nofun⟩, trivial⟩

end Codec

end NodeProvisioner
