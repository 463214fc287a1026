import NodeProvisioner.Proofs.Runs.Workers

/-!
# No orphans and no duplicates

Where no call fails, an instance of a machine stands nowhere but in the zone of the machine of which
a snapshot has been taken last: whatever is edited between passes, and whatever the passes end in.

A pass deletes what its snapshot shows before it makes anything, so nothing stands when an
instance is inserted; and what is inserted is recorded at once.
-/

namespace NodeProvisioner

variable {w : Setting}

/-- An instance stands only where the machine last recorded asks for it. -/
def Lone (changes : List Change) : Prop :=
  ∀ zone, standing zone changes ≠ none → ∃ last spec, lastRecorded changes = some last ∧
    MachineProviderSpec.ofMachine last = .ok spec ∧ spec.zone = zone

namespace Lone

variable {changes : List Change}

theorem unique (h : Lone changes) {zone other : String} (first : standing zone changes ≠ none)
    (second : standing other changes ≠ none) : zone = other := by
  obtain ⟨last, spec, recorded, asked, rfl⟩ := h zone first
  obtain ⟨last', spec', recorded', asked', rfl⟩ := h other second
  cases recorded.symm.trans recorded'
  cases asked.symm.trans asked'
  rfl

/-- Deleting an instance leaves no other. -/
theorem deleted (h : Lone changes) (zone name : String) : Lone (.deleted zone name :: changes) := by
  intro other stands
  rw [standing] at stands
  split at stands
  · exact absurd rfl stands
  · exact h other stands

/-- An instance is inserted and recorded where none stands. -/
theorem created {m record : Machine} {spec : MachineProviderSpec} {made : Instance}
    (empty : ∀ zone, standing zone changes = none)
    (asked : MachineProviderSpec.ofMachine m = .ok spec) :
    Lone (.recorded m record :: .inserted spec.zone m made :: changes) := by
  intro zone stands
  rw [standing, standing] at stands
  split at stands
  · rename_i same
    exact ⟨m, spec, rfl, asked, same.symm⟩
  · exact absurd (empty zone) stands

theorem of_empty (empty : ∀ zone, standing zone changes = none) : Lone changes :=
  fun zone stands => absurd (empty zone) stands

end Lone

/-! ## A step -/

section

variable {c : Cluster} {m : Machine} {memory : Memory} {past new : List Change} {r : Option Outcome}

/-- Where nothing stands, creating leaves at most the instance that it records. -/
theorem Creates.lone (accounts : Accounts w past memory)
    (empty : ∀ zone, standing zone past = none)
    (h : Creates False w.system w.provisions c m m w.name memory new r) : Lone (new ++ past) := by
  cases h with
  | stopped => exact .of_empty empty
  | @found spec i _ _ there =>
    rw [accounts.instances, empty] at there
    cases there
  | unrecorded _ _ _ may => exact may.elim
  | created asked => exact .created empty asked

theorem Deletes.lone (lone : Lone past) {current : Machine}
    (h : Deletes False c current memory new r) : Lone (new ++ past) := by
  cases h with
  | stopped => exact lone
  | absent => exact lone
  | deleted => exact lone.deleted _ _

/-- When what the snapshot shows has been deleted, nothing stands. -/
theorem Deletes.empty (accounts : Accounts w past memory) (lone : Lone past)
    (books : Books w past m) {current : Machine} (shown : m.snapshot? = .ok (some current))
    {outcome : Outcome} (h : Deletes False c current memory new (some outcome)) :
    ∀ zone, standing zone (new ++ past) = none := by
  obtain ⟨last, recorded, decoded, _⟩ := books.name_of_shown shown
  -- the snapshot asks for the zone that the machine recorded asks for
  have only {spec : MachineProviderSpec} (asked : MachineProviderSpec.ofMachine current = .ok spec)
      {zone : String} (stands : standing zone past ≠ none) : spec.zone = zone := by
    obtain ⟨last', spec', recorded', asked', rfl⟩ := lone zone stands
    cases recorded.symm.trans recorded'
    have shows := Snapshot.ofMachine_of_decode (books.kept last recorded).2.2 decoded asked'
    cases asked.symm.trans shows
    rfl
  intro zone
  by_contra stands
  cases h with
  | @absent spec asked absent =>
    obtain rfl := only asked stands
    rw [books.called shown, accounts.instances, Option.map_eq_none_iff] at absent
    exact stands absent
  | deleted asked =>
    rw [List.singleton_append, standing] at stands
    split at stands
    · exact stands rfl
    · rename_i other
      exact other (only asked stands).symm

theorem Reconciles.lone (accounts : Accounts w past memory) (lone : Lone past)
    (books : Books w past m)
    (h : Reconciles False w.system w.provisions c m w.name memory new r) :
    Lone (new ++ past) := by
  cases h with
  | terminated _ deletes => exact deletes.lone lone
  | unreadable => exact lone
  | created _ shown creates =>
    refine creates.lone accounts ?_
    intro zone
    by_contra stands
    obtain ⟨last, _, recorded, _⟩ := lone zone stands
    exact Machine.snapshot?_ne_none (books.kept last recorded).1 shown
  | unchanged => exact lone
  | refused => exact lone
  | kept _ _ _ _ deletes => exact deletes.lone lone
  -- deleting has gone well, so creating begins where nothing stands
  | replaced _ shown _ _ deletes creates =>
    have called := deletes.isOf (w := w) (m := m) (books.called shown)
    rw [List.append_assoc]
    exact creates.lone (accounts.applyAll books.named books.normal called)
      (deletes.empty accounts lone books shown)

end

/-! ## A run -/

namespace Setting

variable {s t : Scene} {past : List Scene}

theorem Step.lone {changes : List Change} (h : w.Step False s t)
    (accounts : Accounts w changes s.memory) (lone : Lone changes) : Lone (t.log ++ changes) := by
  cases h with
  | pass ends =>
    obtain ⟨c, m, _, _, books, _, reconciles⟩ := ends.reconciles accounts
    exact reconciles.lone accounts lone books
  | edit => exact lone

theorem Run.lone (h : w.Run False (s :: past)) : Lone (changesOf (s :: past)) :=
  h.invariant (.of_empty fun _ => rfl) fun step accounts lone => step.lone accounts lone

/-- **In every run in which no call fails there is at most one instance of the machine over all
zones. If there is one, a snapshot has been taken, the record carries it, and the instance lies at
the zone and the name of the machine that has been recorded last.** -/
theorem Run.one_instance (h : w.Run False (s :: past)) :
    (∀ zone other, w.instanceIn s zone ≠ none → w.instanceIn s other ≠ none → zone = other) ∧
    ∀ zone, w.instanceIn s zone ≠ none → ∃ last spec record,
      lastRecorded (changesOf (s :: past)) = some last ∧ w.record s = some record ∧
      record.metadata.annotation? snapshotKey = some (Snapshot.encode last) ∧
      MachineProviderSpec.ofMachine last = .ok spec ∧ spec.zone = zone ∧
      last.IsNamed w.space w.name := by
  have accounts := h.accounts
  have lone := h.lone
  have stands {zone : String} (there : w.instanceIn s zone ≠ none) :
      standing zone (changesOf (s :: past)) ≠ none := by
    intro none
    have absent := accounts.instances zone
    rw [none] at absent
    exact there absent
  refine ⟨fun zone other first second => lone.unique (stands first) (stands second), ?_⟩
  intro zone there
  obtain ⟨last, spec, recorded, asked, same⟩ := lone zone (stands there)
  obtain ⟨record, found, books⟩ := accounts.record
  obtain ⟨text, named, _⟩ := books.kept last recorded
  exact ⟨last, spec, record, recorded, found, text, asked, same, named⟩

/-- The first pass over a worker makes the one instance that it has. -/
theorem Run.one_instance_of_worker : ∃ w s t, Run w False [t, s] ∧
    w.instanceIn t "zone-a" ≠ none ∧ ∀ zone, w.instanceIn t zone ≠ none → "zone-a" = zone := by
  let w := Setting.ofWorkers "project" ⟨"10.0.0.1", 443⟩ "image" "1.9.4" "default" "worker"
  let m := Machine.worker "default" "worker" "zone-a" "small" "1.9.4"
  have fresh : w.Fresh (.holding m) := fresh_holding (Machine.isNamed_worker ..)
    (Machine.isPlain_worker ..).isNormal rfl
  obtain ⟨t, made, ends, _, log⟩ := created_ofWorkers "project" ⟨"10.0.0.1", 443⟩ "image" "default"
    "worker" "zone-a" "small" "1.9.4" (by decide) (by decide) (by decide) (by decide)
  have run : w.Run False [t, .holding m] := .next (.start fresh) (.pass ends)
  have there : w.instanceIn t "zone-a" ≠ none := by
    have stands := run.accounts.instances "zone-a"
    rw [changesOf, List.flatMap_cons, log] at stands
    rw [instanceIn, stands]
    exact Option.some_ne_none _
  exact ⟨w, .holding m, t, run, there, fun zone also => run.one_instance.1 _ zone there also⟩

end Setting

end NodeProvisioner
