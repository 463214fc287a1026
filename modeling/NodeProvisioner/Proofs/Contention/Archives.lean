import NodeProvisioner.Proofs.Decimal.Naturals
import NodeProvisioner.Proofs.Runs.Ends
import NodeProvisioner.Proofs.Snapshots.Writes
import NodeProvisioner.Simulation.Memory

/-!
# Archives of records

A store of records that many use at once is an *archive*: it files each record under its own key,
and it notes who has put what in the place of what. It accepts a record in the place of another one
only if both have the same version, and gives what it accepts a version that no record at this key
has had before.

Main statement: `written_writeRecord`, that the store in memory accepts and refuses records in the
way of an archive, as long as it can count versions.
-/

namespace NodeProvisioner

variable {ι : Type}

/-! ## Commits -/

/-- What one writer, or `none` for any other one, has put in the place of what at a key. -/
structure Commit (ι : Type) where
  writer : Option ι
  key : String
  before : Option Machine
  after : Option Machine

/-- Records under their own keys, and all that has been committed, the last commit first. -/
structure Archive (ι : Type) where
  records : StringMap Machine
  commits : List (Commit ι) := []
  filed : ∀ {key m}, records.get? key = some m → Memory.recordKey m = key

namespace Archive

/-- The archive after a record has been put into it. -/
def write (a : Archive ι) (writer : Option ι) (m : Machine) : Archive ι where
  records := a.records.insert (Memory.recordKey m) m
  commits := ⟨writer, Memory.recordKey m, a.records.get? (Memory.recordKey m), some m⟩ :: a.commits
  filed := by
    intro key n found
    rw [StringMap.get?_insert] at found
    split at found
    · rename_i same
      exact Option.some.inj found ▸ same.symm
    · exact a.filed found

/-- The archive after somebody has taken a record out of it. -/
def remove (a : Archive ι) (key : String) : Archive ι where
  records := a.records.erase key
  commits := ⟨none, key, a.records.get? key, none⟩ :: a.commits
  filed := by
    intro other n found
    rw [StringMap.get?_erase] at found
    split at found
    · cases found
    · exact a.filed found

theorem get?_write {a : Archive ι} {writer : Option ι} {m : Machine} {key : String} :
    (a.write writer m).records.get? key
      = if key = Memory.recordKey m then some m else a.records.get? key :=
  StringMap.get?_insert a.records _ key m

theorem get?_remove {a : Archive ι} {gone key : String} :
    (a.remove gone).records.get? key = if key = gone then none else a.records.get? key :=
  StringMap.get?_erase a.records gone key

/-! ## What has been held -/

/-- The record is at the key, or has been there. -/
def Held (a : Archive ι) (key : String) (m : Machine) : Prop :=
  a.records.get? key = some m ∨
    ∃ c ∈ a.commits, c.key = key ∧ (c.before = some m ∨ c.after = some m)

/-- No record at the key has had the version. -/
def Fresh (a : Archive ι) (key version : String) : Prop :=
  ∀ m, a.Held key m → m.metadata.resourceVersion ≠ some version

variable {a : Archive ι} {key : String} {m n : Machine}

theorem held_write {writer : Option ι} :
    (a.write writer n).Held key m ↔ a.Held key m ∨ (Memory.recordKey n = key ∧ n = m) := by
  constructor
  · rintro (found | ⟨c, mem, at_key, there⟩)
    · rw [get?_write] at found
      split at found
      · rename_i same
        exact .inr ⟨same.symm, Option.some.inj found⟩
      · exact .inl (.inl found)
    · obtain rfl | earlier := List.mem_cons.mp mem
      · cases at_key
        obtain before | after := there
        · exact .inl (.inl before)
        · exact .inr ⟨rfl, Option.some.inj after⟩
      · exact .inl (.inr ⟨c, earlier, at_key, there⟩)
  · rintro ((found | ⟨c, mem, there⟩) | ⟨rfl, rfl⟩)
    · by_cases same : key = Memory.recordKey n
      · -- what was there has been replaced, and is noted in the commit
        exact .inr ⟨_, List.mem_cons_self, same.symm, .inl (same ▸ found)⟩
      · refine .inl ?_
        rwa [get?_write, if_neg same]
    · exact .inr ⟨c, List.mem_cons_of_mem _ mem, there⟩
    · exact .inr ⟨_, List.mem_cons_self, rfl, .inr rfl⟩

theorem held_remove {gone : String} : (a.remove gone).Held key m ↔ a.Held key m := by
  constructor
  · rintro (found | ⟨c, mem, at_key, there⟩)
    · rw [get?_remove] at found
      split at found
      · cases found
      · exact .inl found
    · obtain rfl | earlier := List.mem_cons.mp mem
      · cases at_key
        obtain before | after := there
        · exact .inl before
        · cases after
      · exact .inr ⟨c, earlier, at_key, there⟩
  · rintro (found | ⟨c, mem, there⟩)
    · by_cases same : key = gone
      · exact .inr ⟨_, List.mem_cons_self, same.symm, .inl (same ▸ found)⟩
      · refine .inl ?_
        rwa [get?_remove, if_neg same]
    · exact .inr ⟨c, List.mem_cons_of_mem _ mem, there⟩

/-! ## Writes -/

/-- What a writer may be answered with that asks for a record to be written, and what becomes of the
archive: the record must be there, and of the same version. -/
inductive Written (a : Archive ι) (writer : Option ι) (m : Machine) :
    Except Error Machine → Archive ι → Prop where
  | gone (absent : a.records.get? (Memory.recordKey m) = none) :
    a.Written writer m (.error (.recordGone m.namespaceText m.metadata.nameOrStem)) a
  | stale {stored : Machine} (found : a.records.get? (Memory.recordKey m) = some stored)
      (differs : stored.metadata.resourceVersion ≠ m.metadata.resourceVersion) :
    a.Written writer m (.error (.conflict m.namespaceText m.metadata.nameOrStem)) a
  | accepted {stored : Machine} {version : String}
      (found : a.records.get? (Memory.recordKey m) = some stored)
      (same : stored.metadata.resourceVersion = m.metadata.resourceVersion)
      (fresh : a.Fresh (Memory.recordKey m) version) :
    a.Written writer m (.ok (Memory.withVersion m version))
      (a.write writer (Memory.withVersion m version))

/-- What the calls of a writer are answered with. Only records are read and written. -/
def rules (writer : Option ι) : Program.Rules Call.Answer (Archive ι)
  | .readRecord ns name, a, answer, b => answer = .ok (a.records.get? (Memory.key ns name)) ∧ b = a
  | .writeRecord m, a, answer, b => a.Written writer m answer b
  | _, _, _, _ => False

/-! ## The store in memory -/

/-- The versions at the key have been counted up to a number, and the record there has this one. -/
structure Counted (a : Archive ι) (key : String) (n : Nat) : Prop where
  current : ∀ m, a.records.get? key = some m → m.metadata.resourceVersion = some (toString n)
  past : ∀ m, a.Held key m → ∃ k ≤ n, m.metadata.resourceVersion = some (toString k)

theorem ofDigits_toString (n : Nat) : Decimal.ofDigits (toString n).toList = n := by
  have digits : (toString n).toList = Nat.toDigits 10 n := String.toList_ofList
  rw [digits]
  exact Json.ofDigits_toDigits n

theorem nextVersion_toString {n : Nat} (h : n < 1 <<< 64) :
    Memory.nextVersion (some (toString n)) = toString (n + 1) := by
  have spelled : Decimal.Spells n (String.ofList (toString n).toList) := by
    rw [String.ofList_toList]
    exact Decimal.spells_toString n
  have read : Decimal.natural? 64 (toString n).toList = some n :=
    Decimal.natural?_eq_some_iff.mpr ⟨h, spelled⟩
  show toString ((Decimal.natural? 64 (toString n).toList).getD 0 + 1) = _
  rw [read]
  rfl

/-- **The store in memory is such an archive**, and counts on by at most one. -/
theorem written_writeRecord {memory : Memory} (same : memory.records = a.records)
    (writer : Option ι) {n : Nat} (counted : a.Counted (Memory.recordKey m) n) (h : n < 1 <<< 64) :
    ∃ b, a.Written writer m (memory.writeRecord m).1 b ∧
      (memory.writeRecord m).2.records = b.records ∧
      ∃ k ≤ n + 1, b.Counted (Memory.recordKey m) k := by
  unfold Memory.writeRecord
  rw [same]
  cases found : a.records.get? (Memory.recordKey m) with
  | none => exact ⟨a, .gone found, same, n, Nat.le_succ n, counted⟩
  | some stored =>
    by_cases differs : stored.metadata.resourceVersion ≠ m.metadata.resourceVersion
    · simp only [if_pos differs]
      exact ⟨a, .stale found differs, same, n, Nat.le_succ n, counted⟩
    · have next : Memory.nextVersion stored.metadata.resourceVersion = toString (n + 1) := by
        rw [counted.current stored found, nextVersion_toString h]
      simp only [if_neg differs, next]
      refine ⟨_, .accepted found (not_not.mp differs) ?_, rfl, n + 1, Nat.le_refl _, ?_, ?_⟩
      · -- no number up to the last one has the digits of the next
        intro past held again
        obtain ⟨k, le, version⟩ := counted.past past held
        have digits := Option.some.inj (version.symm.trans again)
        have eq := congrArg (fun v : String => Decimal.ofDigits v.toList) digits
        simp only [ofDigits_toString] at eq
        omega
      · intro current stands
        have written := get?_write.symm.trans stands
        rw [if_pos (by rfl)] at written
        exact Option.some.inj written ▸ rfl
      · intro past held
        obtain earlier | ⟨_, rfl⟩ := held_write.mp held
        · obtain ⟨k, le, version⟩ := counted.past past earlier
          exact ⟨k, Nat.le_succ_of_le le, version⟩
        · exact ⟨n + 1, Nat.le_refl _, rfl⟩

end Archive

end NodeProvisioner
