import NodeProvisioner.Proofs.Calls.Passes

/-!
# Outcomes

The outcome of a pass tells what the pass has changed: which instance it has inserted, which one it
has deleted, and that a record has been written. To make an instance anew is to delete it and then
to create it, and neither half need find anything to do. What the halves come to is not asked for:
where an instance stands already at the new place, none is inserted, and the outcome is the same.

Main statement: `Provisions.carryOut_reports_iff`.
-/

namespace NodeProvisioner

open Program (logging)

/-! ## Changes -/

/-- The call changes something: an instance, or a record. -/
def Call.mutates (c : Call) : Bool := c.changes || c.writes

/-- The calls that have changed something, the first one first. -/
def deeds (log : List Event) : List Event := (log.filter (·.1.mutates)).reverse

/-- An instance has been looked for and found. -/
def Event.finds : Event → Bool
  | ⟨.getInstance .., .ok (some _)⟩ => true
  | _ => false

/-- The last call that has looked for an instance. -/
def lastLook (log : List Event) : Option Event := log.find? (·.1.looks)

/-- The instance that was looked for last has been found. -/
def FoundLast (log : List Event) : Prop := ∃ event, lastLook log = some event ∧ event.finds = true

/-- Since then nothing has been changed, and no instance has been looked for. -/
structure Quiet (past log : List Event) : Prop where
  deeds : deeds log = deeds past
  lastLook : lastLook log = lastLook past

section

variable {event : Event} {past between log : List Event}

theorem deeds_cons_of_mutates (h : event.1.mutates = true) :
    deeds (event :: log) = deeds log ++ [event] := by
  have kept : (event :: log).filter (·.1.mutates) = event :: log.filter (·.1.mutates) :=
    List.filter_cons_of_pos h
  rw [deeds, kept, List.reverse_cons, deeds]

theorem deeds_cons_of_not_mutates (h : event.1.mutates = false) :
    deeds (event :: log) = deeds log := by
  have dropped : (event :: log).filter (·.1.mutates) = log.filter (·.1.mutates) :=
    List.filter_cons_of_neg (Bool.eq_false_iff.mp h)
  rw [deeds, dropped, deeds]

theorem lastLook_cons_of_not_looks (h : event.1.looks = false) :
    lastLook (event :: log) = lastLook log :=
  List.find?_cons_of_neg (Bool.eq_false_iff.mp h)

theorem Quiet.refl (log : List Event) : Quiet log log := ⟨rfl, rfl⟩

theorem Quiet.cons (h : Quiet past log) (keeps : event.1.mutates = false)
    (other : event.1.looks = false) : Quiet past (event :: log) :=
  ⟨(deeds_cons_of_not_mutates keeps).trans h.deeds,
    (lastLook_cons_of_not_looks other).trans h.lastLook⟩

theorem Quiet.foundLast_iff (h : Quiet past log) : FoundLast log ↔ FoundLast past := by
  rw [FoundLast, FoundLast, h.lastLook]

theorem Waited.quiet (h : Waited past log) : Quiet past log := by
  induction h with
  | refl => exact .refl past
  | @cons _ event _ waits ih =>
    obtain ⟨c, answer⟩ := event
    cases c <;> first | exact ih.cons rfl rfl | cases waits

theorem Provisions.Drawn.quiet (h : Drawn past log) : Quiet past log := by
  obtain rfl | ⟨token, rfl⟩ := h
  · exact .refl log
  · exact (Quiet.refl past).cons rfl rfl

theorem deeds_looked (site : Site) (answer : Except ComputeError (Option Instance)) :
    deeds (site.looked answer :: past) = deeds past := deeds_cons_of_not_mutates rfl

/-- What has been found is what has just been looked for. -/
theorem foundLast_looked (site : Site) (found : Option Instance) :
    FoundLast (site.looked (.ok found) :: past) ↔ found.isSome = true := by
  have last : lastLook (site.looked (.ok found) :: past) = some (site.looked (.ok found)) := rfl
  rw [FoundLast, last]
  constructor
  · rintro ⟨_, ⟨⟩, finds⟩
    cases found with
    | none => cases finds
    | some _ => rfl
  · intro there
    obtain ⟨i, rfl⟩ := Option.isSome_iff_exists.mp there
    exact ⟨_, rfl, rfl⟩

end

/-! ## Reports -/

namespace Event

/-- An instance made for the machine has been inserted where the machine asks for it. -/
def IsInsertion (S : SignatureSystem) (p : Provisions) (c : Cluster) (m : Machine)
    (event : Event) : Prop :=
  ∃ site wanted operation, Site.of c m = .ok site ∧ p.Makes S c m wanted ∧
    event = site.inserted wanted (.ok operation)

/-- The instance at the place that the machine asks for has been deleted. -/
def IsDeletion (c : Cluster) (m : Machine) (event : Event) : Prop :=
  ∃ site operation, Site.of c m = .ok site ∧ event = site.deleted (.ok operation)

/-- A record has been written with a snapshot of the machine. -/
def IsRecording (m : Machine) (event : Event) : Prop :=
  ∃ stored kept : Machine, event = ⟨.writeRecord (stored.withSnapshot m), .ok kept⟩

end Event

/-- The instance of the machine has been deleted, unless there was nothing to delete. -/
def Cleared (c : Cluster) (m : Machine) (done : List Event) : Prop :=
  done = [] ∨ ∃ deletion : Event, deletion.IsDeletion c m ∧ done = [deletion]

/-- What an outcome of a pass over a machine says has been done, in this order. -/
def Provisions.Reports (S : SignatureSystem) (p : Provisions) (c : Cluster) (m : Machine) :
    Outcome → List Event → Prop
  | .created, done => ∃ insertion recording : Event, insertion.IsInsertion S p c m ∧
      recording.IsRecording m ∧ done = [insertion, recording]
  | .alreadyExists, done => ∃ recording : Event, recording.IsRecording m ∧ done = [recording]
  | .statusRecorded, done => ∃ recording : Event, recording.IsRecording m ∧ done = [recording]
  | .deleted, done => ∃ deletion : Event, deletion.IsDeletion c m ∧ done = [deletion]
  | .alreadyAbsent, done => done = []
  | .unchanged, done => done = []
  | .recreated, done => ∃ current cleared, ∃ insertion recording : Event,
      m.snapshot? = .ok (some current) ∧ Cleared c current cleared ∧
      insertion.IsInsertion S p c m ∧ recording.IsRecording m ∧
      done = cleared ++ [insertion, recording]

section

variable {S : SignatureSystem} {p : Provisions} {o : Occasion} {c : Cluster} {m : Machine}
  {site : Site} {past log : List Event} {outcome : Outcome}

/-- A snapshot that has been taken has been written. -/
theorem Records.deeds_eq {kept : Machine} (h : Records m past log (.ok kept)) :
    ∃ recording : Event, recording.IsRecording m ∧ deeds log = deeds past ++ [recording] ∧
      lastLook log = lastLook past := by
  cases h with
  | written stored =>
    refine ⟨_, ⟨stored, kept, rfl⟩, ?_, rfl⟩
    rw [deeds_cons_of_mutates rfl, deeds_cons_of_not_mutates rfl]

/-- An instance is inserted unless it has been found. -/
theorem Provisions.Ensures.deeds_eq (sited : Site.of c m = .ok site)
    (h : p.Ensures S o c m site past log (some (.ok outcome))) :
    (outcome = .alreadyExists ∧ FoundLast log ∧ deeds log = deeds past) ∨
      (outcome = .created ∧ ¬ FoundLast log ∧
        ∃ insertion : Event, insertion.IsInsertion S p c m ∧
          deeds log = deeds past ++ [insertion]) := by
  cases h with
  | unseen _ stops => cases stops
  | found i =>
    exact .inl ⟨rfl, (foundLast_looked site (some i)).mpr rfl, deeds_looked site _⟩
  | stopped _ _ stops => cases stops
  | @inserted b drawn _ operation drafts finishes =>
    cases drafts with
    | drafted drawn _ _ makes =>
      have since := finishes.waited.quiet
      have absent := drawn.quiet
      refine .inr ⟨rfl, fun found => ?_, _, ⟨site, _, operation, sited, makes sited, rfl⟩, ?_⟩
      · have found := absent.foundLast_iff.mp (since.foundLast_iff.mp found)
        cases (foundLast_looked site none).mp found
      · rw [since.deeds, deeds_cons_of_mutates rfl, absent.deeds, deeds_looked]

/-- Creating writes a record in any case, and inserts an instance unless it has been found. -/
theorem Provisions.Creation.deeds_eq (h : p.Creation S o c m past log (some (.ok outcome))) :
    ∃ recording : Event, recording.IsRecording m ∧
      ((outcome = .alreadyExists ∧ FoundLast log ∧ deeds log = deeds past ++ [recording]) ∨
        (outcome = .created ∧ ¬ FoundLast log ∧
          ∃ insertion : Event, insertion.IsInsertion S p c m ∧
            deeds log = deeds past ++ [insertion, recording])) := by
  generalize eq : some (Except.ok outcome) = r at h
  cases h with
  | refused => cases eq
  | failed _ _ fails => exact absurd eq.symm (fails outcome)
  | @recorded site _ between _ answer sited ensures records =>
    cases answer <;> cases eq
    obtain ⟨recording, own, done, look⟩ := records.deeds_eq
    have found : FoundLast log ↔ FoundLast between := by rw [FoundLast, FoundLast, look]
    refine ⟨recording, own, ?_⟩
    obtain ⟨rfl, there, before⟩ | ⟨rfl, absent, insertion, made, before⟩ := ensures.deeds_eq sited
    · exact .inl ⟨rfl, found.mpr there, by rw [done, before]⟩
    · refine .inr ⟨rfl, fun there => absent (found.mp there), insertion, made, ?_⟩
      rw [done, before, List.append_assoc]
      rfl

theorem Deletion.deeds_eq (h : Deletion c m past log (some (.ok outcome))) :
    (outcome = .alreadyAbsent ∧ deeds log = deeds past) ∨
      (outcome = .deleted ∧ ∃ deletion : Event, deletion.IsDeletion c m ∧
        deeds log = deeds past ++ [deletion]) := by
  cases h with
  | unseen _ _ stops => cases stops
  | absent sited => exact .inl ⟨rfl, deeds_looked _ _⟩
  | stopped _ _ stops => cases stops
  | @deleted site i operation _ sited finishes =>
    refine .inr ⟨rfl, _, ⟨site, operation, sited, rfl⟩, ?_⟩
    rw [finishes.waited.quiet.deeds, deeds_cons_of_mutates rfl, deeds_looked]

theorem Adoption.deeds_eq (h : Adoption c m past log (some (.ok outcome))) :
    outcome = .statusRecorded ∧ ∃ recording : Event, recording.IsRecording m ∧
      deeds log = deeds past ++ [recording] := by
  generalize eq : some (Except.ok outcome) = r at h
  cases h with
  | refused => cases eq
  | unseen _ _ stops =>
    cases eq
    cases stops
  | absent => cases eq
  | @recorded site i _ answer sited records =>
    cases answer <;> cases eq
    obtain ⟨recording, own, done, _⟩ := records.deeds_eq
    exact ⟨rfl, recording, own, by rw [done, deeds_looked]⟩

/-- Making an instance anew clears its old place, writes a record, and inserts an instance unless
one has been found. -/
theorem Provisions.Replacement.deeds_eq {current : Machine}
    (h : p.Replacement S o c current m [] log (some (.ok outcome))) :
    (outcome = .unchanged ∧ deeds log = []) ∨
      (outcome = .recreated ∧ ∃ cleared, Cleared c current cleared ∧
        ∃ recording : Event, recording.IsRecording m ∧
          ((FoundLast log ∧ deeds log = cleared ++ [recording]) ∨
            (¬ FoundLast log ∧ ∃ insertion : Event, insertion.IsInsertion S p c m ∧
              deeds log = cleared ++ [insertion, recording]))) := by
  generalize eq : some (Except.ok outcome) = r at h
  cases h with
  | unchanged =>
    cases eq
    exact .inl ⟨rfl, rfl⟩
  | refused => cases eq
  | kept _ _ _ fails => exact absurd eq.symm (fails outcome)
  | @replaced _ between _ r _ _ deletion creation =>
    obtain _ | _ | _ := r <;> cases eq
    have cleared : Cleared c current (deeds between) := by
      obtain ⟨_, before⟩ | ⟨_, gone, own, before⟩ := deletion.deeds_eq
      · exact .inl before
      · exact .inr ⟨gone, own, before⟩
    obtain ⟨recording, own, ⟨_, found, done⟩ | ⟨_, absent, made⟩⟩ := creation.deeds_eq
    · exact .inr ⟨rfl, _, cleared, recording, own, .inl ⟨found, done⟩⟩
    · exact .inr ⟨rfl, _, cleared, recording, own, .inr ⟨absent, made⟩⟩

theorem Event.IsInsertion.inserts {event : Event} (h : event.IsInsertion S p c m) :
    event.1.inserts = true := by
  obtain ⟨_, _, _, _, _, rfl⟩ := h
  rfl

/-- To clear a place and to write a record is not to insert an instance. -/
theorem Cleared.not_inserts {current : Machine} {cleared : List Event} {recording event : Event}
    (h : Cleared c current cleared) (own : recording.IsRecording m)
    (mem : event ∈ cleared ++ [recording]) : event.1.inserts = false := by
  obtain ⟨_, _, rfl⟩ := own
  obtain mem | mem := List.mem_append.mp mem
  · obtain rfl | ⟨_, ⟨_, _, _, rfl⟩, rfl⟩ := h
    · cases mem
    · obtain rfl := List.mem_singleton.mp mem
      rfl
  · obtain rfl := List.mem_singleton.mp mem
    rfl

/-- A pass has done what its outcome says; or it is said to have made an instance anew, and has
cleared the old place and written a record, having found an instance at the new one. -/
theorem Provisions.carryOut_deeds {task : Task}
    (h : (p.carryOut S o c m task).run.Ends logging [] (some (.ok outcome)) log) :
    (p.Reports S c m outcome (deeds log) ∧ ¬ (outcome = .recreated ∧ FoundLast log)) ∨
      ((outcome = .recreated ∧ FoundLast log) ∧ ∃ current cleared, ∃ recording : Event,
        m.snapshot? = .ok (some current) ∧ Cleared c current cleared ∧
        recording.IsRecording m ∧ deeds log = cleared ++ [recording]) := by
  have course := carryOut_logs h
  generalize moved : task.move m = move at course
  cases move with
  | refuse e => cases course.2
  | create =>
    obtain ⟨recording, own, ⟨rfl, _, done⟩ | ⟨rfl, _, insertion, made, done⟩⟩ :=
      Creation.deeds_eq course
    · exact .inl ⟨⟨recording, own, done⟩, nofun⟩
    · exact .inl ⟨⟨insertion, recording, made, own, done⟩, nofun⟩
  | delete =>
    obtain ⟨rfl, done⟩ | ⟨rfl, deletion, own, done⟩ := Deletion.deeds_eq course
    · exact .inl ⟨done, nofun⟩
    · exact .inl ⟨⟨deletion, own, done⟩, nofun⟩
  | adopt =>
    obtain ⟨rfl, recording, own, done⟩ := Adoption.deeds_eq course
    exact .inl ⟨⟨recording, own, done⟩, nofun⟩
  | replace current =>
    have shown := Task.snapshot?_of_move moved
    obtain ⟨rfl, done⟩ | ⟨rfl, cleared, gone, recording, own, ⟨found, done⟩ |
      ⟨absent, insertion, made, done⟩⟩ := Replacement.deeds_eq course
    · exact .inl ⟨done, nofun⟩
    · exact .inr ⟨⟨rfl, found⟩, current, cleared, recording, shown, gone, own, done⟩
    · exact .inl ⟨⟨current, cleared, insertion, recording, shown, gone, made, own, done⟩,
        fun both => absent both.2⟩

/-- **An outcome reports what the pass has done, but for one case**: it says that an instance has
been made anew, and the pass has found one where it would have inserted it. Then the old place has
been cleared and a record has been written, and nothing else has been done. -/
theorem Provisions.carryOut_reports_iff {task : Task}
    (h : (p.carryOut S o c m task).run.Ends logging [] (some (.ok outcome)) log) :
    (p.Reports S c m outcome (deeds log) ↔ ¬ (outcome = .recreated ∧ FoundLast log)) ∧
      (outcome = .recreated ∧ FoundLast log → ∃ current cleared, ∃ recording : Event,
        m.snapshot? = .ok (some current) ∧ Cleared c current cleared ∧
        recording.IsRecording m ∧ deeds log = cleared ++ [recording]) := by
  obtain ⟨reports, other⟩ | ⟨spared, done⟩ := carryOut_deeds h
  · exact ⟨iff_of_true reports other, fun spared => absurd spared other⟩
  · refine ⟨iff_of_false ?_ fun other => other spared, fun _ => done⟩
    obtain ⟨rfl, -⟩ := spared
    obtain ⟨_, cleared, recording, _, gone, own, done⟩ := done
    -- what would have been reported has an insertion in it
    rintro ⟨_, before, insertion, last, _, _, made, _, done'⟩
    have mem : insertion ∈ cleared ++ [recording] := by
      rw [← done, done']
      simp
    cases made.inserts.symm.trans (gone.not_inserts own mem)

/-- What has been inserted is among the changes. -/
theorem mem_deeds_of_inserts {event : Event} (mem : event ∈ log) (h : event.1.inserts = true) :
    event ∈ deeds log := by
  have mutates : event.1.mutates = true := by rw [Call.mutates, Call.changes, h]; rfl
  exact List.mem_reverse.mpr (List.mem_filter.mpr ⟨mem, mutates⟩)

/-- A worker that grows: where an instance has been inserted, that is what is reported. -/
theorem Provisions.carryOut_reports_of_worker :
    ∃ log, ((ofWorkers "image" "1.9.4").carryOut .elliptic default
        (.reachable "project" ⟨"10.0.0.1", 443⟩) .growing .update).run.Ends logging []
        (some (.ok .recreated)) log ∧
      (ofWorkers "image" "1.9.4").Reports .elliptic (.reachable "project" ⟨"10.0.0.1", 443⟩)
        .growing .recreated (deeds log) := by
  -- for any machine first: of this one the elaborator would compute the whole pass
  have reports {m : Machine} {log : List Event} {deleted written : Prop}
      (done : ((ofWorkers "image" "1.9.4").carryOut .elliptic default
        (.reachable "project" ⟨"10.0.0.1", 443⟩) m .update).run.Ends logging []
        (some (.ok .recreated)) log ∧
        deleted ∧ (∃ event ∈ log, event.1.inserts = true) ∧ written) := by
    obtain ⟨ends, _, inserted, _⟩ := done
    obtain ⟨iff, spares⟩ := carryOut_reports_iff ends
    refine And.intro ends (iff.mpr fun spared => ?_)
    obtain ⟨_, cleared, recording, _, gone, own, done⟩ := spares spared
    obtain ⟨event, mem, inserts⟩ := inserted
    have mem : event ∈ cleared ++ [recording] := done ▸ mem_deeds_of_inserts mem inserts
    cases inserts.symm.trans (gone.not_inserts own mem)
  have updates : Task.update.Updates .growing := trivial
  have cluster := ClusterProviderSpec.ofCluster_reachable (show "project" ≠ "" by decide)
    ⟨"10.0.0.1", 443⟩
  have recreated := exists_recreated updates Machine.snapshot?_growing Machine.ofMachine_grown rfl
    (Machine.replaces_growing "image" cluster)
    (Machine.checkSupplies_growing .elliptic _ default _)
  exact recreated.imp fun log => reports

/-- **An instance that stands at the new place is taken for the new one**: where none is found at
the old place, nothing is inserted and nothing is deleted. -/
theorem Provisions.replace_found {current : Machine} {site' : Site}
    (other : current.differs m = true) (may : p.checkReplaceable current m = .ok ())
    (sited : Site.of c current = .ok site) (sited' : Site.of c m = .ok site') (i : Instance)
    (stored kept : Machine) : (p.replace S o c current m).run.Ends logging []
      (some (.ok .recreated))
      [⟨.writeRecord (stored.withSnapshot m), .ok kept⟩,
        ⟨.readRecord m.namespaceText m.metadata.nameOrStem, .ok (some stored)⟩,
        site'.looked (.ok (some i)), site.looked (.ok none)] := by
  have absent : (p.delete c current).run.Ends logging [] (some (.ok .alreadyAbsent))
      [site.looked (.ok none)] :=
    Pass.ends_run_ofExcept_bind.mpr (.inl ⟨site, sited,
      Program.ends_exceptBind.mpr (.inl ⟨none, _, Site.find_answered none, rfl, rfl⟩)⟩)
  have found : (p.ensure S o c m site').run.Ends logging [site.looked (.ok none)]
      (some (.ok .alreadyExists)) [site'.looked (.ok (some i)), site.looked (.ok none)] :=
    Program.ends_exceptBind.mpr (.inl ⟨some i, _, Site.find_answered (some i), rfl, rfl⟩)
  have recorded : (Pass.record m >>= fun _ => pure Outcome.alreadyExists).run.Ends logging
      [site'.looked (.ok (some i)), site.looked (.ok none)] (some (.ok .alreadyExists)) _ :=
    Pass.ends_run_bind_pure.mpr ⟨_, Pass.record_written m stored (.ok kept) _, rfl⟩
  simp only [replace, other]
  refine Pass.ends_run_ofExcept_bind.mpr (.inl ⟨(), may, ?_⟩)
  refine Program.ends_exceptBind.mpr (.inl ⟨.alreadyAbsent, _, absent, ?_⟩)
  refine Pass.ends_run_bind_pure.mpr ⟨some (.ok .alreadyExists), ?_, rfl⟩
  refine Pass.ends_run_ofExcept_bind.mpr (.inl ⟨site', sited', ?_⟩)
  exact Program.ends_exceptBind.mpr (.inl ⟨.alreadyExists, _, found, recorded⟩)

/-- Where an instance is reported to have been made anew, at least two things have been done. -/
theorem Provisions.Reports.two_le {done : List Event} (h : p.Reports S c m .recreated done) :
    2 ≤ done.length := by
  obtain ⟨_, cleared, _, _, _, _, _, _, rfl⟩ := h
  simp

/-- A worker that has been recorded in one zone, and is wanted in another now. -/
def Machine.moving : Machine :=
  (worker "default" "worker" "zone-b" "small" "1.9.4").withSnapshot
    (worker "default" "worker" "zone-a" "small" "1.9.4")

/-- A worker that moves, whose instance stands in its new zone already: it is reported to have been
made anew, and no instance has been inserted. -/
theorem Provisions.not_carryOut_reports : ¬ ∀ (m : Machine) (log : List Event),
    ((ofWorkers "image" "1.9.4").carryOut .elliptic default
      (.reachable "project" ⟨"10.0.0.1", 443⟩) m .reconcile).run.Ends logging []
      (some (.ok .recreated)) log →
    (ofWorkers "image" "1.9.4").Reports .elliptic (.reachable "project" ⟨"10.0.0.1", 443⟩) m
      .recreated (deeds log) := by
  intro reports
  have updates : Task.reconcile.Updates .moving := rfl
  have shown : Machine.moving.snapshot?
      = .ok (some (.blanked (.worker "default" "worker" "zone-a" "small" "1.9.4"))) :=
    Machine.snapshot?_of_plain (Machine.annotation?_withSnapshot _ _) (Machine.isPlain_worker ..)
  have cluster := ClusterProviderSpec.ofCluster_reachable (show "project" ≠ "" by decide)
    ⟨"10.0.0.1", 443⟩
  have old : MachineProviderSpec.ofMachine
      (.blanked (.worker "default" "worker" "zone-a" "small" "1.9.4"))
        = .ok { roles := [.node], zone := "zone-a", machineType := "small" } :=
    Machine.ofMachine_worker "default" "worker" "zone-a" "small" "1.9.4" (by decide) (by decide)
  have new : MachineProviderSpec.ofMachine .moving
      = .ok { roles := [.node], zone := "zone-b", machineType := "small" } :=
    Machine.ofMachine_worker "default" "worker" "zone-b" "small" "1.9.4" (by decide) (by decide)
  obtain ⟨site, sited⟩ := Site.exists_of cluster old
  obtain ⟨site', sited'⟩ := Site.exists_of cluster new
  have may : (ofWorkers "image" "1.9.4").checkReplaceable
      (.blanked (.worker "default" "worker" "zone-a" "small" "1.9.4")) .moving = .ok () :=
    checkReplaceable_eq_ok_iff.mpr ⟨⟨_, old, rfl⟩, _, new, _, resolve_ofWorkers "image" "1.9.4"⟩
  have other : (Machine.blanked (.worker "default" "worker" "zone-a" "small" "1.9.4")).differs
      .moving = true := by decide
  generalize Machine.moving = m at *
  have ends := replace_found (S := .elliptic) (o := default) other may sited sited' default m m
  have two := (reports m _ (by
    rw [carryOut_eq_make, Task.move_of_updates updates shown]
    exact ends)).two_le
  exact absurd two (Nat.not_succ_le_self 1)

end

end NodeProvisioner
