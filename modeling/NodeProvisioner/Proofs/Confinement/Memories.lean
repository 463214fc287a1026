import Mathlib.Data.List.Basic
import NodeProvisioner.Proofs.Confinement.Reaches

/-!
# Memories within and beyond a reach

What is confined to a reach leaves alone what lies beyond it, and does not depend on it. So two
programs with reaches that do not meet may be run in either order.

Main statements: `Memory.localAt_getInstance` and its companions, that what a memory does at a
place within a reach is local; `Memory.LocalAt.swap`, that local operations may change places.
-/

namespace NodeProvisioner

namespace Reach

variable (r : Reach)

/-- The key of an instance within the reach. -/
def IsPlaceKey (k : String) : Prop := ∃ zone name, r.place zone name ∧ k = Memory.key zone name

/-- The key of the record within the reach. -/
def recordKey : String := Memory.key r.space r.name

/-- The reaches do not meet. -/
structure IsApart (r r' : Reach) : Prop where
  instances : ∀ k, r.IsPlaceKey k → ¬ r'.IsPlaceKey k
  record : r.recordKey ≠ r'.recordKey

variable {r}

theorem IsApart.symm {r' : Reach} (h : r.IsApart r') : r'.IsApart r :=
  ⟨fun k own other => h.instances k other own, h.record.symm⟩

end Reach

namespace Memory

/-- Where places hold no slash, keys tell places and names apart. -/
theorem key_eq_key_iff {place place' name name' : String} (plain : '/' ∉ place.toList)
    (plain' : '/' ∉ place'.toList) :
    key place name = key place' name' ↔ place = place' ∧ name = name' := by
  refine ⟨fun same => ?_, fun ⟨place, name⟩ => place ▸ name ▸ rfl⟩
  have letters (p n : String) : (key p n).toList = p.toList ++ '/' :: n.toList := by
    simp [key, toString]
  have lists := congrArg String.toList same
  rw [letters, letters] at lists
  -- the first slash of a key ends its place
  have lengths : place.toList.length = place'.toList.length := by
    have first := congrArg (List.idxOf '/') lists
    rw [List.idxOf_append_of_notMem plain, List.idxOf_append_of_notMem plain'] at first
    simpa only [List.idxOf_cons_self, Nat.add_zero] using first
  obtain ⟨places, rest⟩ := List.append_inj lists lengths
  exact ⟨String.toList_inj.mp places, String.toList_inj.mp (List.cons.inj rest).2⟩

theorem ext {a b : Memory} (instances : a.instances = b.instances)
    (records : a.records = b.records) : a = b := by
  cases a
  cases b
  cases instances
  cases records
  rfl

/-- The memories are the same within the reach. -/
structure AgreesWithin (r : Reach) (a b : Memory) : Prop where
  instances : ∀ k, r.IsPlaceKey k → a.instances.get? k = b.instances.get? k
  record : a.records.get? r.recordKey = b.records.get? r.recordKey

/-- The memories are the same beyond the reach. -/
structure AgreesBeyond (r : Reach) (a b : Memory) : Prop where
  instances : ∀ k, ¬ r.IsPlaceKey k → a.instances.get? k = b.instances.get? k
  records : ∀ k, k ≠ r.recordKey → a.records.get? k = b.records.get? k

/-- The record within the reach is filed where it belongs. -/
def Files (r : Reach) (m : Memory) : Prop :=
  ∀ record, m.records.get? r.recordKey = some record → record.IsFiled r.space r.name

variable {r : Reach} {a b : Memory}

theorem AgreesBeyond.refl (r : Reach) (a : Memory) : a.AgreesBeyond r a :=
  ⟨fun _ _ => rfl, fun _ _ => rfl⟩

theorem AgreesBeyond.trans {c : Memory} (h : a.AgreesBeyond r b) (h' : b.AgreesBeyond r c) :
    a.AgreesBeyond r c :=
  ⟨fun k beyond => (h.instances k beyond).trans (h'.instances k beyond),
    fun k beyond => (h.records k beyond).trans (h'.records k beyond)⟩

theorem AgreesWithin.files (h : a.AgreesWithin r b) (filed : a.Files r) : b.Files r :=
  fun record found => filed record (h.record.trans found)

/-! ## Operations within a reach -/

/-- On this memory the operation leaves alone what is beyond the reach, and does not depend on
it. -/
structure LocalAt {ρ : Type} (r : Reach) (f : Memory → ρ × Memory) (a : Memory) : Prop where
  beyond : a.AgreesBeyond r (f a).2
  files : (f a).2.Files r
  within : ∀ b, a.AgreesWithin r b → (f b).1 = (f a).1 ∧ (f a).2.AgreesWithin r (f b).2

variable {ρ ρ' : Type}

/-- What does not look at the memory depends on nothing. -/
theorem localAt_const (x : ρ) (filed : a.Files r) : LocalAt r (fun a => (x, a)) a :=
  ⟨.refl r a, filed, fun _ same => ⟨rfl, same⟩⟩

theorem LocalAt.congr {f g : Memory → ρ × Memory} (h : LocalAt r f a) (eq : ∀ a, g a = f a) :
    LocalAt r g a :=
  funext eq ▸ h

theorem LocalAt.bind {f : Memory → ρ × Memory} {g : ρ → Memory → ρ' × Memory}
    (h : LocalAt r f a) (rest : LocalAt r (g (f a).1) (f a).2) :
    LocalAt r (fun a => g (f a).1 (f a).2) a := by
  refine ⟨h.beyond.trans rest.beyond, rest.files, fun b same => ?_⟩
  obtain ⟨answer, same'⟩ := h.within b same
  simp only [answer]
  exact rest.within _ same'

theorem LocalAt.map {f : Memory → ρ × Memory} (h : LocalAt r f a) (g : ρ → ρ') :
    LocalAt r (fun a => (g (f a).1, (f a).2)) a :=
  ⟨h.beyond, h.files, fun b same => ⟨congrArg g (h.within b same).1, (h.within b same).2⟩⟩

/-- What is left alone is the same as what is put there once more. -/
theorem get?_eq_ite {α : Type} {m : StringMap α} {k : String} {x : Option α}
    (there : m.get? k = x) (j : String) : m.get? j = if j = k then x else m.get? j := by
  split
  · rename_i same
    rw [same, there]
  · rfl

/-- An operation on one instance within the reach is local. -/
theorem localAt_instance {f : Memory → ρ × Memory} {k : String} (own : r.IsPlaceKey k)
    (out : Option Instance → ρ) (edit : Option Instance → Option Instance)
    (answers : ∀ a x, a.instances.get? k = x → (f a).1 = out x)
    (records : ∀ a x, a.instances.get? k = x → (f a).2.records = a.records)
    (edits : ∀ a x, a.instances.get? k = x → ∀ j, (f a).2.instances.get? j
      = if j = k then edit x else a.instances.get? j)
    (filed : a.Files r) : LocalAt r f a := by
  refine ⟨⟨fun j beyond => ?_, fun _ _ => by rw [records a _ rfl]⟩, fun record => ?_,
    fun b same => ⟨?_, fun j within => ?_, ?_⟩⟩
  · rw [edits a _ rfl, if_neg fun eq : j = k => beyond (eq ▸ own)]
  · rw [records a _ rfl]
    exact filed record
  · rw [answers a _ rfl, answers b _ rfl, same.instances k own]
  · rw [edits a _ rfl, edits b _ rfl, same.instances k own, same.instances j within]
  · rw [records a _ rfl, records b _ rfl, same.record]

/-- An operation on the record within the reach is local, if it leaves a record where it belongs. -/
theorem localAt_record {f : Memory → ρ × Memory} (out : Option Machine → ρ)
    (edit : Option Machine → Option Machine)
    (answers : ∀ a x, a.records.get? r.recordKey = x → (f a).1 = out x)
    (instances : ∀ a x, a.records.get? r.recordKey = x → (f a).2.instances = a.instances)
    (edits : ∀ a x, a.records.get? r.recordKey = x → ∀ j, (f a).2.records.get? j
      = if j = r.recordKey then edit x else a.records.get? j)
    (files : ∀ record, edit (a.records.get? r.recordKey) = some record →
      record.IsFiled r.space r.name) : LocalAt r f a := by
  refine ⟨⟨fun _ _ => by rw [instances a _ rfl], fun j beyond => ?_⟩, fun record => ?_,
    fun b same => ⟨?_, fun j within => ?_, ?_⟩⟩
  · rw [edits a _ rfl, if_neg beyond]
  · rw [edits a _ rfl, if_pos rfl]
    exact files record
  · rw [answers a _ rfl, answers b _ rfl, same.record]
  · rw [instances a _ rfl, instances b _ rfl, same.instances j within]
  · rw [edits a _ rfl, edits b _ rfl, same.record]

theorem localAt_getInstance {zone name : String} (own : r.IsPlaceKey (key zone name))
    (filed : a.Files r) : LocalAt r (fun a => (a.getInstance zone name, a)) a :=
  localAt_instance own id id (fun _ _ there => there) (fun _ _ _ => rfl)
    (fun _ _ there => get?_eq_ite there) filed

theorem localAt_insertInstance {zone : String} {wanted : Instance}
    (own : r.IsPlaceKey (key zone wanted.name)) (filed : a.Files r) :
    LocalAt r (·.insertInstance zone wanted) a := by
  refine localAt_instance own (fun found => if found.isSome then
      .error (.api 409 s!"The resource '{key zone wanted.name}' already exists")
      else .ok (done "insert" (key zone wanted.name)))
    (fun found => some (found.getD wanted)) (fun a x there => ?_) (fun a x there => ?_)
    (fun a x there j => ?_) filed
  all_goals
    cases x <;> simp only [insertInstance, StringMap.contains, there]
  · rfl
  · rfl
  · rfl
  · rfl
  · exact StringMap.get?_insert ..
  · exact get?_eq_ite there j

theorem localAt_deleteInstance {zone name : String} (own : r.IsPlaceKey (key zone name))
    (filed : a.Files r) : LocalAt r (·.deleteInstance zone name) a := by
  refine localAt_instance own (fun found => if found.isSome then .ok (done "delete" (key zone name))
      else .error (.api 404 s!"The resource '{key zone name}' was not found"))
    (fun _ => none) (fun a x there => ?_) (fun a x there => ?_) (fun a x there j => ?_) filed
  all_goals
    cases x <;> simp only [deleteInstance, StringMap.contains, there]
  · rfl
  · rfl
  · rfl
  · rfl
  · exact get?_eq_ite there j
  · exact StringMap.get?_erase ..

theorem localAt_readRecord (filed : a.Files r) :
    LocalAt r (fun a => (a.readRecord r.space r.name, a)) a :=
  localAt_record id id (fun _ _ there => there) (fun _ _ _ => rfl)
    (fun _ _ there => get?_eq_ite there) filed

/-- What replacing a record that is stored as said is answered with. -/
def answerOf (m : Machine) : Option Machine → Except Error Machine
  | none => .error (.recordGone m.namespaceText m.metadata.nameOrStem)
  | some stored =>
    if stored.metadata.resourceVersion ≠ m.metadata.resourceVersion then
      .error (.conflict m.namespaceText m.metadata.nameOrStem)
    else .ok (withVersion m (nextVersion stored.metadata.resourceVersion))

/-- A record that is replaced is stored as it is answered. -/
theorem writeRecord_eq {m : Machine} {x : Option Machine}
    (there : a.records.get? (Memory.recordKey m) = x) : a.writeRecord m =
      match answerOf m x with
      | .ok written =>
        (.ok written, { a with records := a.records.insert (Memory.recordKey m) written })
      | .error e => (.error e, a) := by
  cases x with
  | none => simp only [writeRecord, there, answerOf]
  | some stored =>
    simp only [writeRecord, there, answerOf]
    split <;> rfl

theorem eq_of_answerOf {m written : Machine} {x : Option Machine}
    (h : answerOf m x = .ok written) : ∃ version, written = withVersion m version := by
  unfold answerOf at h
  split at h
  · cases h
  · split at h <;> cases h
    exact ⟨_, rfl⟩

theorem localAt_writeRecord {m : Machine} (own : m.IsFiled r.space r.name) (filed : a.Files r) :
    LocalAt r (·.writeRecord m) a := by
  have key : Memory.recordKey m = r.recordKey := by
    rw [Memory.recordKey, own.space, own.name]
    rfl
  refine localAt_record (answerOf m) (fun x => match answerOf m x with
      | .ok written => some written
      | .error _ => x) (fun a x there => ?_) (fun a x there => ?_) (fun a x there j => ?_)
    fun record stored => ?_
  · rw [writeRecord_eq (key ▸ there)]
    cases answerOf m x <;> rfl
  · rw [writeRecord_eq (key ▸ there)]
    cases answerOf m x <;> rfl
  · rw [writeRecord_eq (key ▸ there)]
    cases answerOf m x with
    | ok record =>
      rw [← key]
      exact StringMap.get?_insert ..
    | error e => exact get?_eq_ite there j
  · cases answer : answerOf m (a.records.get? r.recordKey) with
    | error e =>
      rw [answer] at stored
      exact filed record stored
    | ok written =>
      rw [answer] at stored
      obtain rfl := Option.some.inj stored
      obtain ⟨version, rfl⟩ := eq_of_answerOf answer
      exact own.withVersion version

/-! ## Reaches apart -/

variable {r' : Reach} {f : Memory → ρ × Memory} {g : Memory → ρ' × Memory}

theorem AgreesBeyond.within (h : a.AgreesBeyond r b) (apart : r.IsApart r') :
    a.AgreesWithin r' b :=
  ⟨fun k own => h.instances k fun other => apart.instances k other own,
    h.records _ (Ne.symm apart.record)⟩

/-- Two edits at keys apart end in the same map, whichever comes first. -/
theorem eq_of_apart {α : Type} (own own' : String → Prop) {m first second x y : StringMap α}
    (apart : ∀ k, own k → ¬ own' k) (kept : ∀ k, ¬ own k → m.get? k = first.get? k)
    (kept' : ∀ k, ¬ own' k → m.get? k = second.get? k)
    (later : ∀ k, ¬ own' k → first.get? k = x.get? k)
    (later' : ∀ k, ¬ own k → second.get? k = y.get? k)
    (same : ∀ k, own k → first.get? k = y.get? k)
    (same' : ∀ k, own' k → second.get? k = x.get? k) : x = y := by
  refine StringMap.ext_get? fun k => ?_
  by_cases mine : own k
  · rw [← later k (apart k mine), same k mine]
  · by_cases other : own' k
    · rw [← same' k other, later' k mine]
    · rw [← later k other, ← kept k mine, kept' k other, later' k mine]

/-- **Local operations on reaches apart may change places**: neither depends on the other, and
together they leave the same memory. -/
theorem LocalAt.swap (apart : r.IsApart r') (filed : a.Files r) (filed' : a.Files r')
    (hf : ∀ a, a.Files r → LocalAt r f a) (hg : ∀ a, a.Files r' → LocalAt r' g a) :
    (f (g a).2).1 = (f a).1 ∧ (g (f a).2).1 = (g a).1 ∧ (g (f a).2).2 = (f (g a).2).2 := by
  have kept : a.AgreesWithin r' (f a).2 := (hf a filed).beyond.within apart
  have kept' : a.AgreesWithin r (g a).2 := (hg a filed').beyond.within apart.symm
  obtain ⟨same, ends⟩ := (hf a filed).within _ kept'
  obtain ⟨same', ends'⟩ := (hg a filed').within _ kept
  have later := (hg _ (kept.files filed')).beyond
  have later' := (hf _ (kept'.files filed)).beyond
  have instances := eq_of_apart r.IsPlaceKey r'.IsPlaceKey apart.instances
    (hf a filed).beyond.instances (hg a filed').beyond.instances later.instances later'.instances
    ends.instances ends'.instances
  have records := eq_of_apart (· = r.recordKey) (· = r'.recordKey)
    (fun _ own other => apart.record (own.symm.trans other)) (hf a filed).beyond.records
    (hg a filed').beyond.records later.records later'.records
    (fun _ own => own ▸ ends.record) (fun _ own => own ▸ ends'.record)
  exact ⟨same, same', ext instances records⟩

end Memory

end NodeProvisioner
