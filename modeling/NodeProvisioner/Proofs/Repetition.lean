import NodeProvisioner.Proofs.Calls.Passes
import NodeProvisioner.Proofs.Snapshots.RoundTrip

/-!
# Repeated passes

A pass that ends well leaves a record at rest: one that asks for what its snapshot shows. A pass
over a record at rest makes no call at all, whoever makes it, and leaves it at rest.

What makes this so is that the snapshot is the last thing that a pass writes, that it is put onto
the record as it stands in the store, and that its text reads as what the record asks for.

Main statement: `Provisions.reconcile_rests`.
-/

namespace NodeProvisioner

/-- The record is to stay, and it asks for what its snapshot shows. -/
structure Machine.IsAtRest (m : Machine) : Prop where
  lasting : m.isTerminating = false
  shown : ∃ current, m.snapshot? = .ok (some current) ∧ current.differs m = false

/-- A record that has just got a snapshot of itself is at rest, if it can be read from its text and
asks for something valid. -/
theorem Machine.IsLegible.isAtRest_recordOf {m : Machine} (legible : m.IsLegible)
    (lasting : m.isTerminating = false) {spec : MachineProviderSpec}
    (asked : MachineProviderSpec.ofMachine m = .ok spec) : (Pass.recordOf m m).IsAtRest where
  lasting := lasting
  shown := Pass.exists_shown_recordOf legible.isReadable asked m

namespace Provisions

variable {fails : Prop} {S : SignatureSystem} {p : Provisions} {o : Occasion} {c : Cluster}
  {m : Machine} {ns name : String} {s t : Scene}

/-- A pass over a machine that is to stay goes by its snapshot. -/
theorem reconcile_eq_make (S : SignatureSystem) (p : Provisions) (o : Occasion) (c : Cluster)
    (lasting : m.isTerminating = false) :
    p.reconcile S o c m = p.make S o c m (m.move .create) := by
  have same := carryOut_eq_make S p o c m .reconcile
  rw [Task.move, lasting] at same
  exact same

/-- **A pass over a record at rest makes no call.** -/
theorem reconcile_of_atRest (S : SignatureSystem) (p : Provisions) (o : Occasion) (c : Cluster)
    (rest : m.IsAtRest) : (p.reconcile S o c m).run = .done (.ok .unchanged) := by
  obtain ⟨current, shown, same⟩ := rest.shown
  have move : m.move .create = .replace current := by rw [Machine.move, shown]
  rw [reconcile_eq_make S p o c rest.lasting, move, make, replace, same]
  rfl

/-! ## What a pass leaves in the store -/

/-- The record of a machine that asks for something valid has got a snapshot of it. -/
def IsRecorded (m : Machine) (ns name : String) (memory : Memory) : Prop :=
  (∃ spec, MachineProviderSpec.ofMachine m = .ok spec) ∧
    memory.readRecord ns name = some (Pass.recordOf m m)

/-- Where creating ends well, the stored record has got a snapshot of the machine. -/
theorem create_leaves (filed : m.IsFiled ns name) (found : s.memory.readRecord ns name = some m)
    {outcome : Outcome} (h : (p.create S o c m).Ends (Answers fails m) s (some outcome) t) :
    IsRecorded m ns name t.memory := by
  obtain ⟨site, sited, rest⟩ | ⟨_, ⟨⟩, _⟩ := Pass.ends_ofExcept_bind.mp h
  obtain ⟨_, u, ensured, more⟩ | ⟨⟨⟩, _⟩ := Pass.ends_bind.mp rest
  have kept : u.memory.readRecord ns name = some m := by
    rw [Memory.readRecord, ensure_keeps sited ensured]
    exact found
  obtain ⟨_, ⟨⟩, _⟩ | ⟨lead, _⟩ := Pass.record_ends_with filed kept filed more
  refine ⟨⟨_, (Site.ofMachine_of_ok sited).1⟩, ?_⟩
  rw [lead.memory]
  exact Pass.readRecord_recordOf filed u.memory

/-- Where making an instance anew ends well, there was nothing to do, or the stored record has got a
snapshot of the machine. -/
theorem replace_leaves (filed : m.IsFiled ns name) (found : s.memory.readRecord ns name = some m)
    {current : Machine} {outcome : Outcome}
    (h : (p.replace S o c current m).Ends (Answers fails m) s (some outcome) t) :
    (current.differs m = false ∧ t = s) ∨ IsRecorded m ns name t.memory := by
  unfold replace at h
  cases other : current.differs m with
  | false =>
    rw [other] at h
    exact .inl ⟨rfl, (Pass.ends_pure.mp h).2⟩
  | true =>
    rw [other] at h
    obtain ⟨_, _, rest⟩ | ⟨_, ⟨⟩, _⟩ := Pass.ends_ofExcept_bind.mp h
    obtain ⟨_, u, removed, more⟩ | ⟨⟨⟩, _⟩ := Pass.ends_bind.mp rest
    have kept : u.memory.readRecord ns name = some m := by
      rw [Memory.readRecord, delete_keeps removed]
      exact found
    obtain ⟨_ | _, made, ⟨⟩⟩ := Pass.ends_bind_pure.mp more
    exact .inr (create_leaves filed kept made)

/-- **A pass that ends well has found the record at rest, or has put a snapshot onto it.** -/
theorem reconcile_leaves (filed : m.IsFiled ns name)
    (found : s.memory.readRecord ns name = some m) (lasting : m.isTerminating = false)
    {outcome : Outcome} (h : (p.reconcile S o c m).Ends (Answers fails m) s (some outcome) t) :
    (m.IsAtRest ∧ t = s) ∨ IsRecorded m ns name t.memory := by
  rw [reconcile_eq_make S p o c lasting, Machine.move] at h
  rcases shown : m.snapshot? with e | _ | current <;> rw [shown] at h
  · cases (Pass.ends_throw.mp h).1
  · exact .inr (create_leaves filed found h)
  · obtain ⟨same, rfl⟩ | stored := replace_leaves filed found h
    · exact .inl ⟨⟨lasting, current, shown, same⟩, rfl⟩
    · exact .inr stored

end Provisions

/-! ## Pass after pass -/

/-- Passes over the stored record, one after the other. Each may be made with other provisions and
for another cluster, and any call may fail. What each of them ends in is listed. -/
inductive PassesOver (ns name : String) : Scene → List (Option Outcome) → Scene → Prop
  | none (s : Scene) : PassesOver ns name s [] s
  | next {S : SignatureSystem} {p : Provisions} {o : Occasion} {c : Cluster} {m : Machine}
    {s t u : Scene} {r : Option Outcome} {rs : List (Option Outcome)}
    (found : s.memory.readRecord ns name = some m)
    (ends : (p.reconcile S o c m).Ends (Answers True m) s r t)
    (rest : PassesOver ns name t rs u) : PassesOver ns name s (r :: rs) u

/-- **Any number of passes over a record at rest change nothing.** -/
theorem PassesOver.of_atRest {ns name : String} {s u : Scene} {rs : List (Option Outcome)}
    (passes : PassesOver ns name s rs u) {m : Machine}
    (found : s.memory.readRecord ns name = some m) (rest : m.IsAtRest) :
    u = s ∧ ∀ r ∈ rs, r = some .unchanged := by
  induction passes with
  | none s => exact ⟨rfl, List.forall_mem_nil _⟩
  | next found' ends _ ih =>
    cases found.symm.trans found'
    obtain ⟨result, ended, rfl⟩ := ends
    rw [Provisions.reconcile_of_atRest _ _ _ _ rest] at ended
    -- the program is done at once, so the next pass begins where this one has begun
    obtain ⟨rfl, rfl⟩ := ended
    obtain ⟨same, unchanged⟩ := ih found
    exact ⟨same, List.forall_mem_cons.mpr ⟨rfl, unchanged⟩⟩

/-- **A pass that ends well leaves nothing to do.** If a pass over a stored record that can be read
from its text ends well, then any pass over the record that is stored afterwards makes no call
and finds it unchanged, whatever the cluster and the provisions are by then; so any number of
further passes change nothing. -/
theorem Provisions.reconcile_rests {fails : Prop} {S : SignatureSystem} {p : Provisions}
    {o : Occasion} {c : Cluster} {m : Machine} {ns name : String} {s t : Scene}
    (filed : m.IsFiled ns name) (found : s.memory.readRecord ns name = some m)
    (lasting : m.isTerminating = false) (legible : m.IsLegible) {outcome : Outcome}
    (h : (p.reconcile S o c m).Ends (Answers fails m) s (some outcome) t) :
    ∃ stored, t.memory.readRecord ns name = some stored ∧
      (∀ S p o c, (Provisions.reconcile S p o c stored).run = .done (.ok .unchanged)) ∧
      ∀ rs u, PassesOver ns name t rs u → u = t ∧ ∀ r ∈ rs, r = some .unchanged := by
  obtain ⟨stored, found', rest⟩ : ∃ stored, t.memory.readRecord ns name = some stored ∧
      stored.IsAtRest := by
    obtain ⟨rest, rfl⟩ | ⟨⟨spec, asked⟩, stored⟩ := reconcile_leaves filed found lasting h
    · exact ⟨m, found, rest⟩
    · exact ⟨_, stored, legible.isAtRest_recordOf lasting asked⟩
  exact ⟨stored, found', fun S p o c => reconcile_of_atRest S p o c rest,
    fun _ _ passes => passes.of_atRest found' rest⟩

/-- After the first pass over a worker, which makes its instance, there is nothing to do. -/
theorem Provisions.reconcile_rests_of_worker :
    let m := Machine.worker "default" "worker" "zone-a" "small" "1.9.4"
    ∃ p o c t stored, (reconcile .elliptic p o c m).Ends (Answers False m) (.holding m)
        (some .created) t ∧
      t.memory.readRecord "default" "worker" = some stored ∧ stored ≠ m ∧
      (reconcile .elliptic p o c stored).run = .done (.ok .unchanged) := by
  intro m
  have named : m.IsNamed "default" "worker" := Machine.isNamed_worker ..
  have legible : m.IsLegible := Machine.isLegible_worker ..
  obtain ⟨t, made, ⟨o, c, m', _, found, ends⟩, recorded, _⟩ := Setting.created_ofWorkers "project"
    ⟨"10.0.0.1", 443⟩ "image" "default" "worker" "zone-a" "small" "1.9.4" (by decide) (by decide)
    (by decide) (by decide)
  cases found.symm.trans (Setting.record_holding named)
  obtain ⟨stored, found', rests, _⟩ := reconcile_rests named.filed found rfl legible ends
  refine ⟨_, o, c, t, stored, ends, found', ?_, rests _ _ o c⟩
  -- the version is not the one that the pass began with
  rintro rfl
  have written := Option.some.inj (found'.symm.trans recorded)
  cases congrArg (fun machine => machine.metadata.resourceVersion) written

end NodeProvisioner
