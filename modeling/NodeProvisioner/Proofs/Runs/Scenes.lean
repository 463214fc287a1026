import NodeProvisioner.Proofs.Runs.Ends
import NodeProvisioner.Simulation.Faults

/-!
# Scenes

A scene is a memory with a log of what has been changed in it. The rules of a scene say what the
calls of a pass may be answered with: the truth; or, where calls may fail, an error, and a call
that fails may have taken effect or not. A change that has been reported as done has been made.

An operation may be accepted and yet never come about. Then the scene is *owing*: whoever polls the
operation is not told that it has succeeded.

Main statement: the runs of a simulated world are ends under these rules, whatever its faults are,
as long as nobody else touches the records.
-/

namespace NodeProvisioner

/-! ## Changes -/

/-- A change of a memory. -/
inductive Change where
  /-- An instance has been inserted in a pass over the machine. -/
  | inserted (zone : String) (machine : Machine) (made : Instance)
  | deleted (zone name : String)
  /-- A record has been written in a pass over the machine. -/
  | recorded (machine written : Machine)

namespace Change

/-- The memory with the change made. -/
def apply : Change → Memory → Memory
  | inserted zone _ made, m =>
    { m with instances := m.instances.insert (Memory.key zone made.name) made }
  | deleted zone name, m => { m with instances := m.instances.erase (Memory.key zone name) }
  | recorded _ written, m =>
    { m with records := m.records.insert (Memory.recordKey written) written }

end Change

/-- A memory with the changes made so far, the last one first. -/
structure Scene where
  memory : Memory
  log : List Change := []
  /-- An operation has been accepted that does not come about. -/
  owing : Bool := false

namespace Scene

/-- The scene with a change made. -/
def after (s : Scene) (change : Change) : Scene := ⟨change.apply s.memory, change :: s.log, false⟩

/-- The second scene comes of the first by changes, the last one first. -/
structure Leads (s : Scene) (changes : List Change) (t : Scene) : Prop where
  memory : t.memory = changes.foldr Change.apply s.memory
  log : t.log = changes ++ s.log

theorem Leads.refl (s : Scene) : s.Leads [] s := ⟨rfl, rfl⟩

theorem leads_after (s : Scene) (change : Change) : s.Leads [change] (s.after change) := ⟨rfl, rfl⟩

theorem Leads.trans {s t u : Scene} {first second : List Change} (h : s.Leads first t)
    (h' : t.Leads second u) : s.Leads (second ++ first) u := by
  refine ⟨?_, ?_⟩
  · rw [h'.memory, h.memory, List.foldr_append]
  · rw [h'.log, h.log, List.append_assoc]

end Scene

/-! ## Rules -/

/-- An operation that is done and has succeeded. -/
def Operation.HasSucceeded (o : Operation) : Prop := o.isDone = true ∧ o.errorMessage? = none

/-- A change is reported as done. -/
def IsDone (answer : Except ComputeError Operation) : Prop := ∃ o, answer = .ok o ∧ o.HasSucceeded

/-- A question is answered with the truth, unless it fails. -/
def Tells {ε α : Type} (fails : Prop) (truth : α) (answer : Except ε α) : Prop :=
  answer = .ok truth ∨ fails ∧ ∃ e, answer = .error e

/-- A change that is asked for is made, or it is not made and not reported as done. -/
def Changes (fails : Prop) (s : Scene) (change : Change) (possible : Prop)
    (answer : Except ComputeError Operation) (t : Scene) : Prop :=
  (possible ∧ t = s.after change ∧ (IsDone answer ∨ fails)) ∨
    ((¬ possible ∨ fails) ∧ ¬ IsDone answer ∧ t = { s with owing := answer.toBool })

/-- What the calls of a pass over a machine are answered with. -/
def Answers (fails : Prop) (m : Machine) : Program.Rules Call.Answer Scene
  | .getInstance _ zone name, s, answer, t =>
    t = s ∧ Tells fails (s.memory.getInstance zone name) answer
  | .insertInstance _ zone wanted, s, answer, t =>
    Changes fails s (.inserted zone m wanted) (s.memory.getInstance zone wanted.name = none)
      answer t
  | .deleteInstance _ zone name, s, answer, t =>
    Changes fails s (.deleted zone name) (s.memory.getInstance zone name ≠ none) answer t
  | .pollOperation _ _ _, s, answer, t =>
    t = s ∧ (IsDone answer → s.owing = false) ∧ (¬ IsDone answer → fails ∨ s.owing = true)
  | .createToken, s, answer, t => t = s ∧ (fails ∨ ∃ token, answer = .ok token)
  | .readRecord ns name, s, answer, t =>
    t = s ∧ Tells fails (s.memory.readRecord ns name) answer
  | .writeRecord record, s, answer, t =>
    match (s.memory.writeRecord record).1 with
    | .ok written => (t = s.after (.recorded m written) ∧ Tells fails written answer) ∨
      (fails ∧ t = s ∧ ∃ e, answer = .error e)
    | .error _ => t = s ∧ ∃ e, answer = .error e
  | .pause _, s, _, t => t = s

/-! ## The rules are those of a memory -/

theorem isDone_done (kind target : String) : IsDone (.ok (Memory.done kind target)) :=
  ⟨_, rfl, rfl, rfl⟩

theorem isDone_ok {o : Operation} : IsDone (.ok o) ↔ o.HasSucceeded := by
  constructor
  · rintro ⟨_, eq, h⟩
    exact Except.ok.inj eq ▸ h
  · exact fun h => ⟨o, rfl, h⟩

theorem not_isDone_error (e : ComputeError) : ¬ IsDone (.error e) := nofun

theorem insertInstance_of_absent {m : Memory} {zone : String} {wanted : Instance}
    (h : m.getInstance zone wanted.name = none) (machine : Machine) :
    m.insertInstance zone wanted = (.ok (Memory.done "insert" (Memory.key zone wanted.name)),
      (Change.inserted zone machine wanted).apply m) := by
  have absent : m.instances.contains (Memory.key zone wanted.name) = false :=
    congrArg Option.isSome h
  simp only [Memory.insertInstance, absent]
  rfl

theorem insertInstance_of_present {m : Memory} {zone : String} {wanted : Instance}
    (h : m.getInstance zone wanted.name ≠ none) :
    ∃ e, m.insertInstance zone wanted = (.error e, m) := by
  have present : m.instances.contains (Memory.key zone wanted.name) = true :=
    Option.isSome_iff_ne_none.mpr h
  simp only [Memory.insertInstance, present]
  exact ⟨_, rfl⟩

theorem deleteInstance_of_present {m : Memory} {zone name : String}
    (h : m.getInstance zone name ≠ none) :
    m.deleteInstance zone name = (.ok (Memory.done "delete" (Memory.key zone name)),
      (Change.deleted zone name).apply m) := by
  have present : m.instances.contains (Memory.key zone name) = true :=
    Option.isSome_iff_ne_none.mpr h
  simp only [Memory.deleteInstance, present]
  rfl

theorem deleteInstance_of_absent {m : Memory} {zone name : String}
    (h : m.getInstance zone name = none) :
    ∃ e, m.deleteInstance zone name = (.error e, m) := by
  have absent : m.instances.contains (Memory.key zone name) = false := congrArg Option.isSome h
  simp only [Memory.deleteInstance, absent]
  exact ⟨_, rfl⟩

/-- A record is written if there is one of its version. -/
theorem writeRecord_cases (m : Memory) (record machine : Machine) :
    (∃ written, m.writeRecord record = (.ok written, (Change.recorded machine written).apply m)) ∨
      ∃ e, m.writeRecord record = (.error e, m) := by
  unfold Memory.writeRecord
  cases m.records.get? (Memory.recordKey record) with
  | none => exact .inr ⟨_, rfl⟩
  | some stored =>
    by_cases h : stored.metadata.resourceVersion ≠ record.metadata.resourceVersion
    · exact .inr ⟨_, if_pos h⟩
    · exact .inl ⟨_, if_neg h⟩

/-- No call is left without an answer. -/
theorem answers_total (fails : Prop) (m : Machine) (c : Call) (s : Scene) :
    ∃ answer t, Answers fails m c s answer t := by
  cases c with
  | getInstance project zone name => exact ⟨.ok _, s, rfl, .inl rfl⟩
  | insertInstance project zone wanted =>
    by_cases h : s.memory.getInstance zone wanted.name = none
    · exact ⟨.ok (Memory.done "" ""), _, .inl ⟨h, rfl, .inl (isDone_done _ _)⟩⟩
    · exact ⟨.error (.transport ""), _, .inr ⟨.inl h, not_isDone_error _, rfl⟩⟩
  | deleteInstance project zone name =>
    by_cases h : s.memory.getInstance zone name = none
    · exact ⟨.error (.transport ""), _, .inr ⟨.inl fun ne => ne h, not_isDone_error _, rfl⟩⟩
    · exact ⟨.ok (Memory.done "" ""), _, .inl ⟨h, rfl, .inl (isDone_done _ _)⟩⟩
  | pollOperation project zone operation =>
    cases owing : s.owing with
    | false =>
      exact ⟨.ok (Memory.done "" ""), s, rfl, fun _ => owing, fun h => absurd (isDone_done _ _) h⟩
    | true =>
      exact ⟨.error (.transport ""), s, rfl, fun h => absurd h (not_isDone_error _),
        fun _ => .inr owing⟩
  | createToken => exact ⟨.ok "", s, rfl, .inr ⟨"", rfl⟩⟩
  | readRecord ns name => exact ⟨.ok _, s, rfl, .inl rfl⟩
  | writeRecord record =>
    obtain ⟨written, eq⟩ | ⟨e, eq⟩ := writeRecord_cases s.memory record m
    · refine ⟨.ok written, s.after (.recorded m written), ?_⟩
      simp only [Answers, eq]
      exact .inl ⟨trivial, .inl rfl⟩
    · refine ⟨.error e, s, ?_⟩
      simp only [Answers, eq]
      exact ⟨trivial, e, rfl⟩
  | pause delay => exact ⟨(), s, rfl⟩

/-- What a scene shows of a simulation in which nobody else touches the records, and in which all
goes well unless calls may fail. -/
structure Simulation.Shows (fails : Prop) (x : Simulation) (s : Scene) : Prop where
  memory : x.memory = s.memory
  settled : s.owing = false
  undisturbed : x.faults.race = none
  fine : fails ∨ x.faults = {} ∧ ∃ token, x.token = .ok token

namespace Simulation

variable {fails : Prop} {x : Simulation} {s : Scene}

/-- A change that a simulation is asked for is made and answered with what is given, or refused. -/
theorem changes_of_change (h : x.Shows fails s) {failure : Option ComputeError}
    {given : Option (Except ComputeError Operation)} {change : Change} {possible : Prop}
    {result : Except ComputeError Operation × Memory}
    (own : (possible ∧ ∃ kind target, result = (.ok (Memory.done kind target),
      change.apply s.memory)) ∨ (¬ possible ∧ ∃ e, result = (.error e, s.memory)))
    (quiet : ¬ fails → failure = none ∧ given = none) :
    ∃ t, (x.change failure given result).2.Shows fails t ∧
      Changes fails s change possible (x.change failure given result).1 t := by
  have unmade (e : ComputeError) (why : ¬ possible ∨ fails) :
      ∃ t, x.Shows fails t ∧ Changes fails s change possible (.error e) t :=
    ⟨{ s with owing := false }, ⟨h.memory, rfl, h.undisturbed, h.fine⟩,
      .inr ⟨why, not_isDone_error e, rfl⟩⟩
  -- a failure that is set up takes the place of the change; an answer that is set up does not
  cases failure with
  | some e =>
    have may : fails := Classical.not_not.mp fun never => nomatch (quiet never).1
    exact unmade e (.inr may)
  | none =>
    obtain ⟨can, kind, target, rfl⟩ | ⟨cannot, e, rfl⟩ := own
    · refine ⟨s.after change, ⟨rfl, rfl, h.undisturbed, h.fine⟩, .inl ⟨can, rfl, ?_⟩⟩
      by_cases may : fails
      · exact .inr may
      · obtain ⟨_, rfl⟩ := quiet may
        exact .inl (isDone_done kind target)
    · exact unmade e (.inl cannot)

theorem Shows.may_fail (h : x.Shows fails s) (faulty : x.faults ≠ {}) : fails :=
  Classical.not_not.mp fun never => faulty (h.fine.resolve_left never).1

theorem answers_of_get (m : Machine) (h : x.Shows fails s) (project zone name : String) :
    (world (.getInstance project zone name) x).2.Shows fails s ∧
      Answers fails m (.getInstance project zone name) s
        (world (.getInstance project zone name) x).1 s := by
  cases fault : x.faults.getError with
  | some e =>
    simp only [world, fault]
    have may := h.may_fail fun none => by
      rw [none] at fault
      cases fault
    exact ⟨h, rfl, .inr ⟨may, e, rfl⟩⟩
  | none =>
    simp only [world, fault, h.memory]
    exact ⟨h, rfl, .inl rfl⟩

theorem answers_of_poll (m : Machine) (h : x.Shows fails s) (project zone operation : String) :
    (x.poll operation).2.Shows fails s ∧
      Answers fails m (.pollOperation project zone operation) s (x.poll operation).1 s := by
  cases left : x.faults.polls with
  | nil =>
    simp only [poll, left]
    exact ⟨h, rfl, fun _ => h.settled, fun not => absurd ⟨_, rfl, rfl, rfl⟩ not⟩
  | cons answer polls =>
    simp only [poll, left]
    have may := h.may_fail fun none => by
      rw [none] at left
      cases left
    exact ⟨⟨h.memory, h.settled, h.undisturbed, .inl may⟩, rfl, fun _ => h.settled,
      fun _ => .inl may⟩

theorem answers_of_read (m : Machine) (h : x.Shows fails s) (ns name : String) :
    (x.read ns name).2.Shows fails s ∧
      Answers fails m (.readRecord ns name) s (x.read ns name).1 s := by
  cases fault : x.faults.readFault with
  | some e =>
    simp only [read, fault]
    have may := h.may_fail fun none => by
      rw [none] at fault
      cases fault
    exact ⟨h, rfl, .inr ⟨may, _, rfl⟩⟩
  | none =>
    simp only [read, fault, h.undisturbed, h.memory]
    exact ⟨⟨rfl, h.settled, h.undisturbed, h.fine⟩, rfl, .inl rfl⟩

theorem answers_of_write (m : Machine) (h : x.Shows fails s) (record : Machine) :
    ∃ t, (x.write record).2.Shows fails t ∧
      Answers fails m (.writeRecord record) s (x.write record).1 t := by
  have own := writeRecord_cases s.memory record m
  cases fault : x.faults.writeFault with
  | some e =>
    simp only [write, fault]
    have may := h.may_fail fun none => by
      rw [none] at fault
      cases fault
    refine ⟨s, h, ?_⟩
    obtain ⟨written, eq⟩ | ⟨e, eq⟩ := own
    · simp only [Answers, eq]
      exact .inr ⟨may, trivial, _, rfl⟩
    · simp only [Answers, eq]
      exact ⟨trivial, _, rfl⟩
  | none =>
    simp only [write, fault, h.memory]
    obtain ⟨written, eq⟩ | ⟨e, eq⟩ := own
    · simp only [Answers, eq]
      exact ⟨s.after (.recorded m written), ⟨rfl, rfl, h.undisturbed, h.fine⟩,
        .inl ⟨rfl, .inl rfl⟩⟩
    · simp only [Answers, eq]
      exact ⟨s, ⟨rfl, h.settled, h.undisturbed, h.fine⟩, rfl, _, rfl⟩

/-- **A simulation in which nobody else touches the records keeps to the rules.** -/
theorem answers_of_world (m : Machine) (c : Call) (h : x.Shows fails s) :
    ∃ t, (world c x).2.Shows fails t ∧ Answers fails m c s (world c x).1 t := by
  have quiet : ¬ fails → x.faults = {} := fun never => (h.fine.resolve_left never).1
  cases c with
  | getInstance project zone name => exact ⟨s, answers_of_get m h project zone name⟩
  | insertInstance project zone wanted =>
    refine changes_of_change h ?_ fun never => by rw [quiet never]; exact ⟨rfl, rfl⟩
    rw [h.memory]
    by_cases absent : s.memory.getInstance zone wanted.name = none
    · exact .inl ⟨absent, _, _, insertInstance_of_absent absent m⟩
    · exact .inr ⟨absent, insertInstance_of_present absent⟩
  | deleteInstance project zone name =>
    refine changes_of_change h ?_ fun never => by rw [quiet never]; exact ⟨rfl, rfl⟩
    rw [h.memory]
    by_cases absent : s.memory.getInstance zone name = none
    · exact .inr ⟨fun ne => ne absent, deleteInstance_of_absent absent⟩
    · exact .inl ⟨absent, _, _, deleteInstance_of_present absent⟩
  | pollOperation project zone operation => exact ⟨s, answers_of_poll m h project zone operation⟩
  | createToken => exact ⟨s, h, rfl, h.fine.imp id And.right⟩
  | readRecord ns name => exact ⟨s, answers_of_read m h ns name⟩
  | writeRecord record => exact answers_of_write m h record
  | pause delay => exact ⟨s, h, rfl⟩

/-- **The runs of a pass in a simulation are ends of the pass under the rules.** -/
theorem ends_of_run (m : Machine) {α : Type} (q : Pass α) (h : x.Shows fails s) :
    ∃ t, (q.run.run world x).2.2.memory = t.memory ∧
      q.Ends (Answers fails m) s ((q.run.run world x).1.bind Except.toOption) t := by
  obtain ⟨t, shows, ends⟩ :=
    Program.ends_of_run (fun c _ _ view => answers_of_world m c view) q.run h
  exact ⟨t, shows.memory, _, ends, rfl⟩

end Simulation

end NodeProvisioner
