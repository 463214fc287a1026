import NodeProvisioner.Proofs.Calls.Passes

/-!
# The order of calls

Whatever the calls of a pass are answered with, they come in order. An instance is inserted only
where none has been found, and deleted only where one has been found; nothing has been inserted or
deleted since then. A deletion comes before an insertion, and has come to its end by then; there is
one of each at most. A record is written last, and only if there is an instance for it. Where the
snapshot shows a machine that runs the control plane, an update makes no call at all.

Main statement: `Provisions.carryOut_orderly`.
-/

namespace NodeProvisioner

/-! ## Orderly logs -/

/-- Once in the log it was like this, and nothing has been inserted or deleted since. -/
inductive Since (state : List Event → Prop) : List Event → Prop
  | now {log : List Event} (h : state log) : Since state log
  | later {log : List Event} (h : Since state log) (event : Event)
    (keeps : event.1.changes = false) : Since state (event :: log)

/-- The event is the last one in the log. -/
def Just (event : Event) (log : List Event) : Prop := ∃ before, log = event :: before

/-- There is an instance: it has just been found, or its insertion has just come to its end. -/
inductive Backed : List Event → Prop
  | found {project zone name : String} (i : Instance) (before : List Event) :
    Backed (⟨.getInstance project zone name, .ok (some i)⟩ :: before)
  | inserted {project zone : String} {wanted : Instance} {o : Operation} {before log : List Event}
    (finishes : o.Finishes project zone
      (⟨.insertInstance project zone wanted, .ok o⟩ :: before) log) : Backed log

/-- No deletion is under way: there has been none, or the only one has come to its end. -/
inductive Settled : List Event → Prop
  | never {log : List Event} (lacks : Lacks Call.deletes log) : Settled log
  | deleted {project zone name : String} {o : Operation} {before log : List Event}
    (lacks : Lacks Call.deletes before) (finishes : o.Finishes project zone
      (⟨.deleteInstance project zone name, .ok o⟩ :: before) log) : Settled log
  | later {log : List Event} (h : Settled log) (event : Event)
    (keeps : event.1.deletes = false) : Settled (event :: log)

/-- The call has its grounds in the log of the calls before it. -/
def Call.Grounded (past : List Event) : Call → Prop
  | insertInstance project zone wanted =>
    Since (Just ⟨.getInstance project zone wanted.name, .ok none⟩) past ∧
      Lacks Call.inserts past ∧ Settled past
  | deleteInstance project zone name =>
    (∃ i, Since (Just ⟨.getInstance project zone name, .ok (some i)⟩) past) ∧
      Lacks Call.changes past
  | writeRecord _ => Since Backed past
  | _ => True

/-- Each call in the log has its grounds in what is before it, and none comes after a record has
been written. -/
inductive Orderly : List Event → Prop
  | nil : Orderly []
  | cons {event : Event} {past : List Event} (orderly : Orderly past)
    (unwritten : Lacks Call.writes past) (grounded : event.1.Grounded past) :
    Orderly (event :: past)

namespace Call

variable {c : Call}

theorem writes_of_waits (h : c.waits = true) : c.writes = false := by
  cases c <;> first | rfl | cases h

theorem inserts_of_waits (h : c.waits = true) : c.inserts = false := by
  cases c <;> first | rfl | cases h

theorem grounded_of_waits (past : List Event) (h : c.waits = true) : c.Grounded past := by
  cases c <;> trivial

end Call

/-! ## Parts -/

/-- The calls so far are in order, and more may come. -/
structure Running (log : List Event) : Prop where
  orderly : Orderly log
  unwritten : Lacks Call.writes log

/-- An instance may be inserted once it has not been found. -/
structure Ready (log : List Event) : Prop extends Running log where
  uninserted : Lacks Call.inserts log
  settled : Settled log

section

variable {S : SignatureSystem} {p : Provisions} {o : Occasion} {c : Cluster} {m : Machine}
  {site : Site} {event : Event} {past log : List Event} {r : Option (Except Error Outcome)}

theorem Running.nil : Running [] := ⟨.nil, .nil⟩

theorem Running.cons (h : Running log) (grounded : event.1.Grounded log)
    (other : event.1.writes = false) : Running (event :: log) :=
  ⟨.cons h.orderly h.unwritten grounded, h.unwritten.cons other⟩

theorem Running.waited (h : Running past) (waited : Waited past log) : Running log := by
  induction waited with
  | refl => exact h
  | cons _ waits ih =>
    exact ih.cons (Call.grounded_of_waits _ waits) (Call.writes_of_waits waits)

theorem Ready.nil : Ready [] := ⟨.nil, .nil, .never .nil⟩

theorem Ready.cons (h : Ready log) (grounded : event.1.Grounded log)
    (other : event.1.writes = false) (keeps : event.1.changes = false) : Ready (event :: log) := by
  obtain ⟨inserts, deletes⟩ := Bool.or_eq_false_iff.mp keeps
  exact ⟨h.toRunning.cons grounded other, h.uninserted.cons inserts, h.settled.later _ deletes⟩

/-- A blueprint is made for an instance that has not been found. -/
theorem Provisions.Drafts.ready {r : Option (Except Error Blueprint)}
    (h : p.Drafts S o c m site past log r) (ready : Ready past) {state : List Event → Prop}
    (since : Since state past) : Ready log ∧ Since state log := by
  have drawn (drawn : Provisions.Drawn past log) : Ready log ∧ Since state log := by
    obtain rfl | ⟨token, rfl⟩ := drawn
    · exact ⟨ready, since⟩
    · exact ⟨ready.cons trivial rfl rfl, since.later _ rfl⟩
  cases h with
  | drafted h => exact drawn h
  | lacking h => exact drawn h
  | tokenless e => exact ⟨ready.cons trivial rfl rfl, since.later _ rfl⟩

theorem Provisions.Drafts.name {b : Blueprint}
    (h : p.Drafts S o c m site past log (some (.ok b))) :
    (b.build p.config).name = m.metadata.name.getD "" := by
  cases h with
  | drafted _ _ own _ =>
    rw [← own]
    rfl

/-- Making sure of an instance is in order, and if it ends well there is an instance. -/
theorem Provisions.Ensures.running {name : String} (named : m.metadata.name = some name)
    (called : site.name = name) (h : p.Ensures S o c m site past log r) (ready : Ready past) :
    Running log ∧ ∀ outcome, r = some (.ok outcome) → Backed log := by
  have looked (answer) : Ready (site.looked answer :: past) := ready.cons trivial rfl rfl
  have absent : Since (Just (site.looked (.ok none))) (site.looked (.ok none) :: past) :=
    .now ⟨past, rfl⟩
  -- the instance that is inserted has the name under which none has been found
  have asked {b : Blueprint} {drawn : List Event} (answer : Except ComputeError Operation)
      (drafts : p.Drafts S o c m site (site.looked (.ok none) :: past) drawn (some (.ok b))) :
      Running (site.inserted (b.build p.config) answer :: drawn) := by
    obtain ⟨ready', since⟩ := drafts.ready (looked _) absent
    have own : (b.build p.config).name = site.name := by
      rw [drafts.name, named, called]
      rfl
    refine ready'.toRunning.cons ⟨?_, ready'.uninserted, ready'.settled⟩ rfl
    rw [own]
    exact since
  cases h with
  | unseen e stops =>
    refine ⟨(looked _).toRunning, ?_⟩
    rintro _ rfl
    cases stops
  | found i => exact ⟨(looked _).toRunning, fun _ _ => .found i past⟩
  | unmade drafts => exact ⟨(drafts.ready (looked _) absent).1.toRunning, nofun⟩
  | @stopped _ _ _ answer _ drafts waited stops =>
    refine ⟨(asked answer drafts).waited waited, ?_⟩
    rintro _ rfl
    cases stops
  | inserted drafts finishes =>
    exact ⟨(asked _ drafts).waited finishes.waited, fun _ _ => .inserted finishes⟩

theorem Records.orderly {answer : Except Error Machine} (h : Records m past log answer)
    (running : Running past) (backed : Backed past) : Orderly log := by
  have read (answer) : Running
      (⟨.readRecord m.namespaceText m.metadata.nameOrStem, answer⟩ :: past) :=
    running.cons trivial rfl
  cases h with
  | unread e => exact (read _).orderly
  | gone => exact (read _).orderly
  | written stored =>
    exact .cons (read _).orderly (read _).unwritten (.later (.now backed) _ rfl)

theorem Provisions.Creation.orderly {name : String} (named : m.metadata.name = some name)
    (h : p.Creation S o c m past log r) (ready : Ready past) : Orderly log := by
  have called {site : Site} (sited : Site.of c m = .ok site) : site.name = name := by
    rw [(Site.ofMachine_of_ok sited).2, ObjectMeta.nameOrStem, named]
    rfl
  cases h with
  | refused => exact ready.orderly
  | failed sited ensures => exact (ensures.running named (called sited) ready).1.orderly
  | recorded sited ensures records =>
    obtain ⟨running, backed⟩ := ensures.running named (called sited) ready
    exact records.orderly running (backed _ rfl)

theorem Adoption.orderly (h : Adoption c m [] log r) : Orderly log := by
  have looked (site : Site) (answer) : Running [site.looked answer] := Running.nil.cons trivial rfl
  cases h with
  | refused => exact .nil
  | unseen => exact (looked _ _).orderly
  | absent => exact (looked _ _).orderly
  | recorded _ records => exact records.orderly (looked _ _) (.found _ [])

/-- Deleting is in order, and if it ends well an instance may be inserted next. -/
theorem Deletion.running (h : Deletion c m [] log r) :
    Running log ∧ ∀ outcome, r = some (.ok outcome) → Ready log := by
  have looked (site : Site) (answer) : Ready [site.looked answer] := Ready.nil.cons trivial rfl rfl
  have asked (site : Site) (i : Instance) (answer : Except ComputeError Operation) :
      Running [site.deleted answer, site.looked (.ok (some i))] := by
    refine (looked site _).toRunning.cons ⟨⟨i, .now ⟨[], rfl⟩⟩, ?_⟩ rfl
    exact Lacks.nil.cons rfl
  cases h with
  | refused => exact ⟨.nil, nofun⟩
  | unseen sited e stops =>
    refine ⟨(looked _ _).toRunning, ?_⟩
    rintro _ rfl
    cases stops
  | absent => exact ⟨(looked _ _).toRunning, fun _ _ => looked _ _⟩
  | stopped sited waited stops =>
    refine ⟨(asked _ _ _).waited waited, ?_⟩
    rintro _ rfl
    cases stops
  | @deleted site i operation _ sited finishes =>
    have running := (asked site i (.ok operation)).waited finishes.waited
    refine ⟨running, fun _ _ => ⟨running, ?_, .deleted (Lacks.nil.cons rfl) finishes⟩⟩
    exact finishes.waited.lacks Call.inserts_of_waits ((Lacks.nil.cons rfl).cons rfl)

theorem Provisions.Replacement.orderly {current : Machine} {name : String}
    (named : m.metadata.name = some name) (h : p.Replacement S o c current m [] log r) :
    Orderly log := by
  cases h with
  | unchanged => exact .nil
  | refused => exact .nil
  | kept _ _ deletion => exact deletion.running.1.orderly
  | replaced _ _ deletion creation =>
    exact creation.orderly named (deletion.running.2 _ rfl)

/-- **The calls of a pass come in order**, whatever they are answered with; and where the snapshot
shows a machine that runs the control plane, an update makes none. -/
theorem Provisions.carryOut_orderly {name : String} (named : m.metadata.name = some name)
    {task : Task} (h : (p.carryOut S o c m task).run.Ends Program.logging [] r log) :
    Orderly log ∧ ∀ current, task.Updates m → m.snapshot? = .ok (some current) →
      (∀ spec, MachineProviderSpec.ofMachine current = .ok spec → spec.isMaster = true) →
      log = [] := by
  have course := carryOut_logs h
  constructor
  · generalize task.move m = move at course
    cases move with
    | refuse e =>
      obtain ⟨rfl, _⟩ := course
      exact .nil
    | create => exact Creation.orderly named course .nil
    | delete => exact (Deletion.running course).1.orderly
    | adopt => exact Adoption.orderly course
    | replace current => exact Replacement.orderly named course
  · intro current updates shown master
    rw [Task.move_of_updates updates shown] at course
    -- what runs the control plane is not made anew
    have kept : p.checkReplaceable current m ≠ .ok () := by
      intro may
      obtain ⟨⟨old, asked, worker⟩, _⟩ := checkReplaceable_eq_ok_iff.mp may
      rw [master old asked] at worker
      cases worker
    cases course with
    | unchanged => rfl
    | refused => rfl
    | kept _ may => exact absurd may kept
    | replaced _ may => exact absurd may kept

/-- A worker that grows: its instance is deleted, another one is inserted, and the record is
written. -/
theorem Provisions.carryOut_orderly_of_worker :
    ∃ log, (((ofWorkers "image" "1.9.4").carryOut .elliptic default
        (.reachable "project" ⟨"10.0.0.1", 443⟩) .growing .update).run.Ends Program.logging []
        (some (.ok .recreated)) log ∧ Orderly log) ∧
      (∃ event ∈ log, event.1.deletes = true) ∧ (∃ event ∈ log, event.1.inserts = true) ∧
      ∃ event ∈ log, event.1.writes = true := by
  have updates : Task.update.Updates .growing := trivial
  have cluster := ClusterProviderSpec.ofCluster_reachable (show "project" ≠ "" by decide)
    ⟨"10.0.0.1", 443⟩
  have recreated := exists_recreated updates Machine.snapshot?_growing Machine.ofMachine_grown rfl
    (Machine.replaces_growing "image" cluster)
    (Machine.checkSupplies_growing .elliptic _ default _)
  -- for any machine first: of this one the elaborator would compute the whole pass
  have orderly {m : Machine} (named : m.metadata.name = some "worker") {log : List Event}
      (ends : ((ofWorkers "image" "1.9.4").carryOut .elliptic default
        (.reachable "project" ⟨"10.0.0.1", 443⟩) m .update).run.Ends Program.logging []
        (some (.ok .recreated)) log) := And.intro ends (carryOut_orderly named ends).1
  exact recreated.imp fun log => And.imp_left (orderly rfl)

end

end NodeProvisioner
