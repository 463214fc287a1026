import Mathlib.Logic.Relation
import NodeProvisioner.Proofs.Runs.ControlPlanes

/-!
# Recovery

Passes over a record that nobody edits work towards one goal. Whatever fails in them, and however
often they are begun anew, they never bring up a second instance; and the first one that ends well
leaves the goal reached, for good.

A pass may leave the work half done in three ways: the old instance is gone; the new one is there,
but no snapshot of it has been taken; or its snapshot has been taken, but this has been reported as
failed. Each of them is a *stage*, and a pass leads from stage to stage.

What is asked of a goal beforehand is not quite enough. The snapshot that a pass takes must be one
that the next pass can read, and text that is nested too deep cannot be read; and whatever runs the
control plane must be certified, for all of the names that it is given.

Main statements: `Goal.recovers`, and `Wanted.not_recovers` for what it takes.
-/

namespace NodeProvisioner

/-- The record holds the machine, with annotations and a version of its own. -/
def Machine.IsHeldBy (m record : Machine) : Prop :=
  ∃ annotations version, record =
    { m with metadata := { m.metadata with annotations, resourceVersion := version } }

namespace Setting

variable (w : Setting)

/-- What passes over a record work towards: that there is an instance of the machine. -/
structure Goal (m : Machine) (spec : MachineProviderSpec) : Prop where
  named : m.IsNamed w.space w.name
  lasting : m.isTerminating = false
  readable : m.IsReadable
  buildable : ∀ c, w.clusters c → w.provisions.IsBuildable w.system c m spec

/-- The instance has been made for the machine. -/
def IsMade (m : Machine) (i : Instance) : Prop :=
  ∃ c, w.clusters c ∧ w.provisions.Makes w.system c m i

/-- There is no instance but one that has been made for the machine, in its zone. -/
def Only (m : Machine) (spec : MachineProviderSpec) (memory : Memory) : Prop :=
  ∀ zone i, memory.getInstance zone w.name = some i → zone = spec.zone ∧ w.IsMade m i

/-- The goal has been reached: there is one instance, made for the machine, and the snapshot shows
what the machine asks for. -/
structure Settled (m : Machine) (spec : MachineProviderSpec) (memory : Memory) : Prop where
  record : ∃ record current, memory.readRecord w.space w.name = some record ∧ m.IsHeldBy record ∧
    record.snapshot? = .ok (some current) ∧ current.differs m = false
  there : memory.getInstance spec.zone w.name ≠ none
  only : w.Only m spec memory

/-- The old instance, which the snapshot shows, may still be there; if it is, it is alone. -/
structure Stale (m : Machine) (spec : MachineProviderSpec) (current : Machine) (memory : Memory) :
    Prop where
  name : current.metadata.name = some w.name
  worker : ∃ old, MachineProviderSpec.ofMachine current = .ok old ∧ old.isMaster = false ∧
    ∀ zone i, memory.getInstance zone w.name = some i →
      zone = old.zone ∨ zone = spec.zone ∧ w.IsMade m i
  other : current.differs m = true
  single : ∀ zone zone', memory.getInstance zone w.name ≠ none →
    memory.getInstance zone' w.name ≠ none → zone = zone'

/-- How far the work has come. -/
inductive Stage (m : Machine) (spec : MachineProviderSpec) (memory : Memory) : Prop
  | blank {record : Machine} (found : memory.readRecord w.space w.name = some record)
    (held : m.IsHeldBy record) (shown : record.snapshot? = .ok none) (only : w.Only m spec memory)
  | stale {record current : Machine} (found : memory.readRecord w.space w.name = some record)
    (held : m.IsHeldBy record) (shown : record.snapshot? = .ok (some current))
    (stale : w.Stale m spec current memory)
  | settled (settled : w.Settled m spec memory)

end Setting

/-! ## Stages -/

section

variable {w : Setting} {m record current : Machine} {spec : MachineProviderSpec} {memory : Memory}

theorem Machine.isHeldBy_self (m : Machine) : m.IsHeldBy m := ⟨_, _, rfl⟩

theorem Machine.IsHeldBy.symm (held : m.IsHeldBy record) : record.IsHeldBy m := by
  obtain ⟨_, _, rfl⟩ := held
  exact ⟨m.metadata.annotations, m.metadata.resourceVersion, rfl⟩

theorem Setting.Goal.heldBy (goal : w.Goal m spec) (held : m.IsHeldBy record) :
    w.Goal record spec := by
  obtain ⟨_, _, rfl⟩ := held
  have readable := goal.readable
  exact ⟨⟨goal.named.space, goal.named.name⟩, goal.lasting,
    ⟨⟨readable.metadata.creation, readable.metadata.deletion, readable.metadata.managed⟩,
      readable.value⟩,
    fun c own => (goal.buildable c own).of_same (goal.buildable c own).machine rfl rfl⟩

theorem Setting.Settled.heldBy (settled : w.Settled m spec memory) (held : m.IsHeldBy record) :
    w.Settled record spec memory := by
  obtain ⟨_, _, rfl⟩ := held
  exact ⟨settled.record, settled.there, settled.only⟩

/-- How far the work has come does not depend on which record of the machine is meant. -/
theorem Setting.Stage.heldBy (stage : w.Stage m spec memory) (held : m.IsHeldBy record) :
    w.Stage record spec memory := by
  cases stage with
  | blank found held' shown only =>
    obtain ⟨_, _, rfl⟩ := held
    exact .blank found held' shown only
  | stale found held' shown stale =>
    obtain ⟨_, _, rfl⟩ := held
    exact .stale found held' shown ⟨stale.name, stale.worker, stale.other, stale.single⟩
  | settled settled => exact .settled (settled.heldBy held)

/-- What is known of the stored record at each stage. -/
theorem Setting.Stage.shown (stage : w.Stage m spec memory)
    (found : memory.readRecord w.space w.name = some m) :
    m.snapshot? = .ok none ∧ w.Only m spec memory ∨
      ∃ current, m.snapshot? = .ok (some current) ∧
        (w.Stale m spec current memory ∨ current.differs m = false ∧ w.Settled m spec memory) := by
  cases stage with
  | blank found' _ shown only =>
    cases found.symm.trans found'
    exact .inl ⟨shown, only⟩
  | stale found' _ shown stale =>
    cases found.symm.trans found'
    exact .inr ⟨_, shown, .inl stale⟩
  | settled settled =>
    obtain ⟨record, current, found', _, shown, same⟩ := settled.record
    cases found.symm.trans found'
    exact .inr ⟨current, shown, .inr ⟨same, settled⟩⟩

theorem Setting.Only.single (only : w.Only m spec memory) {zone other : String}
    (first : memory.getInstance zone w.name ≠ none)
    (second : memory.getInstance other w.name ≠ none) : zone = other := by
  obtain ⟨i, there⟩ := Option.ne_none_iff_exists'.mp first
  obtain ⟨i', there'⟩ := Option.ne_none_iff_exists'.mp second
  rw [(only zone i there).1, (only other i' there').1]

theorem Setting.Stale.called (h : w.Stale m spec current memory) :
    current.metadata.nameOrStem = w.name := by
  rw [ObjectMeta.nameOrStem, h.name]
  rfl

/-- Where the old instance is gone, the snapshot still shows it. -/
theorem Setting.Stale.of_only {after : Memory} (h : w.Stale m spec current memory)
    (only : w.Only m spec after) : w.Stale m spec current after := by
  obtain ⟨old, asked, worker, _⟩ := h.worker
  exact ⟨h.name, ⟨old, asked, worker, fun zone i there => .inr (only zone i there)⟩, h.other,
    fun _ _ first second => only.single first second⟩

/-- There is at most one instance at every stage. -/
theorem Setting.Stage.single (stage : w.Stage m spec memory) {zone other : String}
    (first : memory.getInstance zone w.name ≠ none)
    (second : memory.getInstance other w.name ≠ none) : zone = other := by
  cases stage with
  | blank _ _ _ only => exact only.single first second
  | stale _ _ _ stale => exact stale.single zone other first second
  | settled settled => exact settled.only.single first second

end

/-! ## Parts of a pass -/

section

variable {fails : Prop} {w : Setting} {c : Cluster} {m current : Machine}
  {spec old : MachineProviderSpec} {memory : Memory} {changes : List Change} {r : Option Outcome}

/-- A snapshot that is taken shows what the goal is. -/
theorem Setting.Goal.recorded (goal : w.Goal m spec) (own : w.clusters c) (before : Memory) :
    ∃ record current, ((Change.recorded m (Pass.recordOf m m)).apply before).readRecord w.space
        w.name = some record ∧ m.IsHeldBy record ∧
      record.snapshot? = .ok (some current) ∧ current.differs m = false := by
  obtain ⟨current, shown, same⟩ :=
    Pass.exists_shown_recordOf goal.readable (goal.buildable c own).machine m
  exact ⟨_, current, Pass.readRecord_recordOf goal.named.filed before, ⟨_, _, rfl⟩, shown, same⟩

theorem Setting.Only.inserted {made : Instance} (only : w.Only m spec memory)
    (named : m.IsNamed w.space w.name) (own : w.clusters c)
    (makes : w.provisions.Makes w.system c m made) :
    w.Only m spec ((Change.inserted spec.zone m made).apply memory) := by
  intro zone i there
  rw [makes.getInstance_inserted named] at there
  split at there
  · cases there
    exact ⟨‹_›, c, own, makes⟩
  · exact only zone i there

/-- Where there is no instance but that of the goal, creating keeps to this. It reaches the goal,
unless it fails before a snapshot has been taken. -/
theorem Creates.advances (goal : w.Goal m spec) (own : w.clusters c)
    (only : w.Only m spec memory)
    (h : Creates fails w.system w.provisions c m m w.name memory changes r) :
    w.Settled m spec (changes.foldr Change.apply memory) ∨
      r = none ∧ w.Only m spec (changes.foldr Change.apply memory) ∧
        (changes.foldr Change.apply memory).readRecord w.space w.name
          = memory.readRecord w.space w.name := by
  -- whatever the machine is found to ask for is what the goal asks for
  have asks {spec' : MachineProviderSpec}
      (asked : MachineProviderSpec.ofMachine m = .ok spec') : spec = spec' :=
    Except.ok.inj ((goal.buildable c own).machine.symm.trans asked)
  cases h with
  | stopped => exact .inr ⟨rfl, only, rfl⟩
  | found asked there =>
    obtain rfl := asks asked
    exact .inl ⟨goal.recorded own memory, ne_of_eq_of_ne there (Option.some_ne_none _), only⟩
  | unrecorded asked _ makes =>
    obtain rfl := asks asked
    exact .inr ⟨rfl, only.inserted goal.named own makes, rfl⟩
  | created asked _ makes =>
    obtain rfl := asks asked
    refine .inl ⟨goal.recorded own _, ?_, only.inserted goal.named own makes⟩
    have there := makes.getInstance_inserted goal.named memory spec.zone spec.zone
    rw [if_pos rfl] at there
    exact ne_of_eq_of_ne there (Option.some_ne_none _)

/-- Deleting leaves other instances, and no instance in the zone unless it fails. -/
theorem Deletes.leaves (called : current.metadata.nameOrStem = w.name)
    (asked : MachineProviderSpec.ofMachine current = .ok old)
    (h : Deletes fails c current memory changes r) {zone : String} {i : Instance}
    (there : (changes.foldr Change.apply memory).getInstance zone w.name = some i) :
    memory.getInstance zone w.name = some i ∧ (r = none ∨ zone ≠ old.zone) := by
  cases h with
  | stopped => exact ⟨there, .inl rfl⟩
  | absent asked' absent =>
    cases asked.symm.trans asked'
    refine ⟨there, .inr ?_⟩
    rintro rfl
    rw [called] at absent
    rw [List.foldr_nil, absent] at there
    cases there
  | deleted asked' =>
    cases asked.symm.trans asked'
    rw [called, List.foldr_cons, List.foldr_nil, Change.getInstance_deleted] at there
    split at there
    · cases there
    · exact ⟨there, .inr ‹_›⟩

/-- A deletion keeps the stage, whether it has been made or not. -/
theorem Deletes.keeps_stale (stale : w.Stale m spec current memory)
    (h : Deletes fails c current memory changes r) :
    w.Stale m spec current (changes.foldr Change.apply memory) := by
  obtain ⟨old, asked, worker, known⟩ := stale.worker
  have before {zone : String} {i : Instance}
      (there : (changes.foldr Change.apply memory).getInstance zone w.name = some i) :
      memory.getInstance zone w.name = some i := (h.leaves stale.called asked there).1
  have before' {zone : String}
      (there : (changes.foldr Change.apply memory).getInstance zone w.name ≠ none) :
      memory.getInstance zone w.name ≠ none := by
    obtain ⟨i, there⟩ := Option.ne_none_iff_exists'.mp there
    exact ne_of_eq_of_ne (before there) (Option.some_ne_none _)
  exact ⟨stale.name, ⟨old, asked, worker, fun zone i there => known zone i (before there)⟩,
    stale.other, fun zone zone' first second => stale.single zone zone' (before' first)
      (before' second)⟩

theorem Deletes.readRecord (h : Deletes fails c current memory changes r) {ns name : String} :
    (changes.foldr Change.apply memory).readRecord ns name = memory.readRecord ns name := by
  cases h <;> rfl

end

/-! ## A pass -/

section

variable {fails : Prop} {w : Setting} {c : Cluster} {m : Machine} {spec : MachineProviderSpec}
  {memory : Memory} {changes : List Change} {r : Option Outcome}

/-- **A pass leads from stage to stage**, and to the goal if it ends well. -/
theorem Reconciles.advances (goal : w.Goal m spec) (own : w.clusters c)
    (found : memory.readRecord w.space w.name = some m) (stage : w.Stage m spec memory)
    (h : Reconciles fails w.system w.provisions c m w.name memory changes r) :
    w.Stage m spec (changes.foldr Change.apply memory) ∧
      (r ≠ none → w.Settled m spec (changes.foldr Change.apply memory)) := by
  have held := m.isHeldBy_self
  obtain ⟨shown, only⟩ | ⟨current, shown, stale | ⟨same, settled⟩⟩ := stage.shown found
  · obtain settled | ⟨rfl, only', kept⟩ :=
      (h.creates_of_blank goal.lasting shown).advances goal own only
    · exact ⟨.settled settled, fun _ => settled⟩
    · exact ⟨.blank (kept.trans found) held shown only', fun ne => absurd rfl ne⟩
  · obtain ⟨old, asked, worker, known⟩ := stale.worker
    obtain ⟨same, _⟩ | ⟨_, ⟨_, rfl, rfl⟩ | ⟨deletes, rfl⟩ |
        ⟨first, second, outcome, r', deletes, creates, rfl, rfl⟩⟩ := h.of_shown goal.lasting shown
    · cases same.symm.trans stale.other
    · exact ⟨.stale found held shown stale, fun ne => absurd rfl ne⟩
    · exact ⟨.stale (deletes.readRecord.trans found) held shown (deletes.keeps_stale stale),
        fun ne => absurd rfl ne⟩
    · -- the old instance has been deleted, so what is left has been made for the goal
      have only : w.Only m spec (first.foldr Change.apply memory) := by
        intro zone i there
        obtain ⟨there', failed | elsewhere⟩ := deletes.leaves stale.called asked there
        · cases failed
        · exact (known zone i there').resolve_left elsewhere
      rw [List.foldr_append]
      obtain settled | ⟨rfl, only', kept⟩ := creates.advances goal own only
      · exact ⟨.settled settled, fun _ => settled⟩
      · exact ⟨.stale (kept.trans (deletes.readRecord.trans found)) held shown
          (stale.of_only only'), fun ne => absurd rfl ne⟩
  · obtain ⟨_, rfl, rfl⟩ | ⟨other, _⟩ := h.of_shown goal.lasting shown
    · exact ⟨.settled settled, fun _ => settled⟩
    · cases same.symm.trans other

/-- Where no call fails, a pass ends well. -/
theorem Reconciles.ends_well (goal : w.Goal m spec) (own : w.clusters c)
    (found : memory.readRecord w.space w.name = some m) (stage : w.Stage m spec memory)
    (h : Reconciles False w.system w.provisions c m w.name memory changes r) : r ≠ none := by
  have can := goal.buildable c own
  obtain ⟨shown, only⟩ | ⟨current, shown, stale | ⟨same, settled⟩⟩ := stage.shown found
  · obtain ⟨_, rfl⟩ := (h.creates_of_blank goal.lasting shown).ends_well can
    exact nofun
  · obtain ⟨old, asked, worker, _⟩ := stale.worker
    obtain ⟨_, cluster⟩ := can.cluster
    obtain ⟨same, _⟩ | ⟨_, ⟨⟨_, refused⟩, _⟩ | ⟨deletes, _⟩ |
        ⟨first, second, outcome, r', deletes, creates, _, rfl⟩⟩ := h.of_shown goal.lasting shown
    · cases same.symm.trans stale.other
    · rw [w.provisions.checkReplaceable_ok asked worker can] at refused
      cases refused
    · obtain ⟨_, eq⟩ := deletes.ends_well cluster asked
      cases eq
    · obtain ⟨_, rfl⟩ := creates.ends_well can
      exact nofun
  · obtain ⟨_, _, rfl⟩ | ⟨other, _⟩ := h.of_shown goal.lasting shown
    · exact nofun
    · cases same.symm.trans other

end

/-! ## Passes, one after the other -/

namespace Setting

variable {w : Setting} {fails : Prop} {m : Machine} {spec : MachineProviderSpec} {s t : Scene}

/-- The scene comes about by passes alone, as many as there may be. -/
def Passes (w : Setting) (fails : Prop) : Scene → Scene → Prop :=
  Relation.ReflTransGen fun s t => ∃ r, w.PassEnds fails s r t

/-- Where recovery starts: there is nothing yet, or the one instance that there is stands where the
snapshot shows a worker of the same name that differs from the goal. -/
inductive Starts (w : Setting) (m : Machine) (s : Scene) : Prop
  | blank (shown : m.snapshot? = .ok none) (empty : ∀ zone, w.instanceIn s zone = none)
  | stale {current : Machine} {old : MachineProviderSpec}
    (shown : m.snapshot? = .ok (some current)) (name : current.metadata.name = m.metadata.name)
    (asked : MachineProviderSpec.ofMachine current = .ok old) (worker : old.isMaster = false)
    (other : current.differs m = true) (there : w.instanceIn s old.zone ≠ none)
    (only : ∀ zone, w.instanceIn s zone ≠ none → zone = old.zone)

theorem Starts.stage (starts : w.Starts m s) (goal : w.Goal m spec) (found : w.record s = some m) :
    w.Stage m spec s.memory := by
  have held := m.isHeldBy_self
  cases starts with
  | blank shown empty =>
    refine .blank found held shown fun zone i there => ?_
    rw [show s.memory.getInstance zone w.name = none from empty zone] at there
    cases there
  | stale shown name asked worker other _ only =>
    refine .stale found held shown ⟨name.trans goal.named.name, ⟨_, asked, worker, ?_⟩, other, ?_⟩
    · intro zone i there
      exact .inl (only zone fun none => nomatch none.symm.trans there)
    · exact fun zone zone' first second => (only zone first).trans (only zone' second).symm

theorem Stage.record (stage : w.Stage m spec s.memory) :
    ∃ record, w.record s = some record ∧ m.IsHeldBy record := by
  cases stage with
  | blank found held => exact ⟨_, found, held⟩
  | stale found held => exact ⟨_, found, held⟩
  | settled settled =>
    obtain ⟨record, _, found, held, _⟩ := settled.record
    exact ⟨record, found, held⟩

/-- What a pass over a record that holds the goal does. -/
theorem PassEnds.reconciles_of_stage {r : Option Outcome} (h : w.PassEnds fails s r t)
    (goal : w.Goal m spec) (stage : w.Stage m spec s.memory) :
    ∃ c record, w.clusters c ∧ w.record s = some record ∧ m.IsHeldBy record ∧
      t.memory = t.log.foldr Change.apply s.memory ∧
      Reconciles fails w.system w.provisions c record w.name s.memory t.log r := by
  obtain ⟨record, found, held⟩ := stage.record
  obtain ⟨c, own, memory, reconciles⟩ := h.reconciles_of_named found (goal.heldBy held).named
  exact ⟨c, record, own, found, held, memory, reconciles⟩

/-- A pass leads from stage to stage, and to the goal if it ends well. -/
theorem PassEnds.advances {r : Option Outcome} (h : w.PassEnds fails s r t)
    (goal : w.Goal m spec) (stage : w.Stage m spec s.memory) :
    w.Stage m spec t.memory ∧ (r ≠ none → w.Settled m spec t.memory) := by
  obtain ⟨c, record, own, found, held, memory, reconciles⟩ := h.reconciles_of_stage goal stage
  rw [memory]
  obtain ⟨stage', well⟩ := reconciles.advances (goal.heldBy held) own found (stage.heldBy held)
  exact ⟨stage'.heldBy held.symm, fun ne => (well ne).heldBy held.symm⟩

theorem Passes.stage (passes : w.Passes fails s t) (goal : w.Goal m spec)
    (stage : w.Stage m spec s.memory) : w.Stage m spec t.memory := by
  induction passes with
  | refl => exact stage
  | tail _ pass ih =>
    obtain ⟨r, ends⟩ := pass
    exact (ends.advances goal ih).1

/-- What is settled stays as it is. -/
theorem Settled.unchanged (h : w.Settled m spec s.memory) (goal : w.Goal m spec)
    {r : Option Outcome} (ends : w.PassEnds fails s r t) :
    r = some .unchanged ∧ t.memory = s.memory := by
  obtain ⟨record, current, found, held, shown, same⟩ := h.record
  have goal' := goal.heldBy held
  have same' : current.differs record = false := by
    obtain ⟨_, _, rfl⟩ := held
    exact same
  obtain ⟨eq, _, memory⟩ := ends.unchanged_of_same found goal'.named goal'.lasting shown same'
  exact ⟨eq, memory⟩

/-- **Whatever fails in passes towards a goal, and however often they are begun anew:** there is
never a second instance; a pass that ends well leaves the goal settled; a pass in which no call
fails ends well, and there is such a pass; and what is settled stays as it is. -/
theorem Goal.recovers (goal : w.Goal m spec) (found : w.record s = some m)
    (starts : w.Starts m s) (passes : w.Passes True s t) :
    (∀ zone other, w.instanceIn t zone ≠ none → w.instanceIn t other ≠ none → zone = other) ∧
    (∀ outcome u, w.PassEnds True t (some outcome) u → w.Settled m spec u.memory) ∧
    (∀ r u, w.PassEnds False t r u → r ≠ none ∧ w.Settled m spec u.memory) ∧
    (∀ c, w.clusters c → ∃ r u, w.PassEnds False t r u) ∧
    (w.Settled m spec t.memory → ∀ r u, w.PassEnds True t r u →
      r = some .unchanged ∧ u.memory = t.memory) := by
  have stage := passes.stage goal (starts.stage goal found)
  refine ⟨fun zone other => stage.single, ?_, ?_, ?_, ?_⟩
  · intro outcome u ends
    exact (ends.advances goal stage).2 nofun
  · intro r u ends
    obtain ⟨c, record, own, found', held, _, reconciles⟩ := ends.reconciles_of_stage goal stage
    have well := reconciles.ends_well (goal.heldBy held) own found' (stage.heldBy held)
    exact ⟨well, (ends.advances goal stage).2 well⟩
  · intro c own
    obtain ⟨record, found', _⟩ := stage.record
    exact exists_passEnds False own default found'
  · exact fun settled r u ends => settled.unchanged goal ends

/-- An instance whose snapshot has been lost is recovered. -/
theorem Goal.recovers_of_lost : ∃ w m spec s t, Goal w m spec ∧ w.Passes True s t ∧
    m.snapshot? = .ok none ∧ w.record t = some m ∧ w.instanceIn t spec.zone ≠ none ∧
    ∀ r u, w.PassEnds False t r u → r ≠ none ∧ w.Settled m spec u.memory := by
  let w := Setting.ofWorkers "project" ⟨"10.0.0.1", 443⟩ "image" "1.9.4" "default" "worker"
  let m := Machine.worker "default" "worker" "zone-a" "small" "1.9.4"
  let spec : MachineProviderSpec := { roles := [.node], zone := "zone-a", machineType := "small" }
  have plain : m.IsPlain := Machine.isPlain_worker ..
  have named : m.IsNamed w.space w.name := Machine.isNamed_worker ..
  have can (c : Cluster) (own : w.clusters c) : w.provisions.IsBuildable w.system c m spec :=
    isBuildable_ofWorkers (by decide) (by decide) (by decide) (by decide) _ _ _ _ own
  have goal : w.Goal m spec := ⟨named, rfl, plain.isReadable, can⟩
  have fresh : w.Fresh (.holding m) := fresh_holding named plain.isNormal rfl
  have found : w.record (.holding m) = some m := record_holding named
  obtain ⟨t, made, ends, makes, log, found'⟩ := fresh.may_lose found rfl rfl (can _ rfl)
  have passes : w.Passes True (.holding m) t := .single ⟨none, ends⟩
  obtain ⟨_, _, memory, _⟩ := ends.reconciles_of_named found named
  rw [log] at memory
  have there : w.instanceIn t spec.zone = some made := by
    rw [instanceIn, memory]
    exact (makes.getInstance_inserted named _ _ _).trans (if_pos rfl)
  refine ⟨w, m, spec, .holding m, t, goal, passes, rfl, found', ?_,
    (goal.recovers found (.blank rfl fresh.empty) passes).2.2.1⟩
  rw [there]
  exact Option.some_ne_none _

/-! ## What it takes -/

/-- What is asked of a goal beforehand: numbers are integers and timestamps are whole, all that an
instance is made from is there, and the name of what is certified is in ASCII. -/
structure Wanted (w : Setting) (m : Machine) (spec : MachineProviderSpec) : Prop where
  named : m.IsNamed w.space w.name
  lasting : m.isTerminating = false
  sorted : m.IsNormal
  integers : ∀ j ∈ m.opaqueValues, j.isPlain = true
  whole : ∀ t ∈ m.metadata.timestamps, t.IsWhole
  complete : ∀ c, w.clusters c → w.provisions.IsComplete c m spec
  ascii : spec.isMaster = true → ∀ ca, w.provisions.authority = some ca → IsAscii w.name

/-- Beyond this, the machine must not be nested too deep, and all of the names in a certificate must
be such that the authority can certify them. -/
theorem Wanted.goal (wanted : w.Wanted m spec)
    (shallow : (Codec.machine.write m).depth ≤ Json.depthLimit)
    (certifies : spec.isMaster = true → ∀ ca, w.provisions.authority = some ca →
      ca.Issues w.system ∧ ∀ c, w.clusters c →
        ∀ name ∈ (w.provisions.serverNames c m spec).dnsNames, IsAscii name) : w.Goal m spec where
  named := wanted.named
  lasting := wanted.lasting
  readable := Machine.IsLegible.isReadable
    { sorted := wanted.sorted
      integers := fun j eq => wanted.integers j (Machine.mem_opaqueValues_value eq)
      bounded := fun j mem =>
        Json.isBounded_of_isPlain (wanted.integers j (List.mem_append_right _ mem))
      shallow, whole := wanted.whole }
  buildable c own :=
    { toIsComplete := wanted.complete c own
      names := fun master ca authority =>
        AltNames.check_eq_ok_iff.mpr ((certifies master ca authority).2 c own)
      authority := fun master ca authority => (certifies master ca authority).1 }

/-- However many passes there are, none of them changes anything or ends well, though no call
fails. -/
def Stuck (w : Setting) (s : Scene) : Prop :=
  ∀ t, w.Passes False s t → t.memory = s.memory ∧ (∃ r u, w.PassEnds False t r u) ∧
    ∀ r u, w.PassEnds False t r u → r = none

/-- What one pass does not change, no number of passes does. -/
theorem stuck_of_reconciles {c : Cluster} (own : w.clusters c) (found : w.record s = some m)
    (named : m.IsNamed w.space w.name)
    (stops : ∀ c changes r, w.clusters c →
      Reconciles False w.system w.provisions c m w.name s.memory changes r →
      changes = [] ∧ r = none) : w.Stuck s := by
  have pass {t u : Scene} {r : Option Outcome} (same : t.memory = s.memory)
      (ends : w.PassEnds False t r u) : u.memory = s.memory ∧ r = none := by
    have found' : w.record t = some m := by
      rw [Setting.record, same]
      exact found
    obtain ⟨c, own, memory, reconciles⟩ := ends.reconciles_of_named found' named
    rw [same] at reconciles
    obtain ⟨log, rfl⟩ := stops c _ _ own reconciles
    rw [log] at memory
    exact ⟨memory.trans same, rfl⟩
  intro t passes
  have same : t.memory = s.memory := by
    induction passes with
    | refl => rfl
    | tail _ next ih =>
      obtain ⟨r, ends⟩ := next
      exact (pass ih ends).1
  refine ⟨same, exists_passEnds False own default (m := m) ?_, fun r u ends => (pass same ends).2⟩
  rw [Setting.record, same]
  exact found

/-- Nothing is done about a machine whose snapshot cannot be read. -/
theorem stuck_of_unreadable {c : Cluster} (own : w.clusters c) (found : w.record s = some m)
    (named : m.IsNamed w.space w.name) (lasting : m.isTerminating = false) {e : Error}
    (unreadable : m.snapshot? = .error e) : w.Stuck s :=
  stuck_of_reconciles own found named fun _ _ _ _ h => h.stops_of_unreadable lasting unreadable

/-- Nothing is done about a machine that is to run the control plane and cannot be certified. -/
theorem stuck_of_uncertified (starts : w.Fresh s) (found : w.record s = some m)
    (lasting : m.isTerminating = false) (asked : MachineProviderSpec.ofMachine m = .ok spec)
    (master : spec.isMaster = true) {ca : KeyPair} (authority : w.provisions.authority = some ca)
    {c : Cluster} (own : w.clusters c)
    (refused : ∀ c o pair, w.clusters c →
      w.provisions.serverCertificate w.system o ca c m spec ≠ .ok pair) : w.Stuck s := by
  obtain ⟨_, found', named, _, blank⟩ := starts.record
  cases found.symm.trans found'
  refine stuck_of_reconciles own found named fun c _ _ own h => ?_
  refine h.stops_of_unmade lasting blank starts.empty fun made makes => ?_
  obtain ⟨o, pair, issued⟩ := makes.exists_certificate asked master authority
  exact refused c o pair own issued

/-- A worker whose note is nested too deep: the first pass makes its instance, and no other pass ends
well. -/
theorem stuck_noted {note : Json} (normal : note.IsNormal) (plain : note.isPlain = true)
    (deep : 123 < note.depth) :
    let w := ofWorkers "project" ⟨"10.0.0.1", 443⟩ "image" "1.9.4" "default" "worker"
    let m := Machine.noted "default" "worker" "zone-a" "small" "1.9.4" note
    w.Wanted m { roles := [.node], zone := "zone-a", machineType := "small" } ∧
      w.record (.holding m) = some m ∧ w.Starts m (.holding m) ∧
      ∃ t, w.PassEnds False (.holding m) (some .created) t ∧ w.Stuck t := by
  intro w m
  have named : m.IsNamed w.space w.name := ⟨rfl, rfl⟩
  have normal : m.IsNormal := Machine.isNormal_noted _ _ _ _ _ normal
  have asked : MachineProviderSpec.ofMachine m
      = .ok { roles := [.node], zone := "zone-a", machineType := "small" } :=
    Machine.ofMachine_noted _ _ _ _ _ _ (by decide) (by decide)
  have can (c : Cluster) (own : w.clusters c) : w.provisions.IsBuildable w.system c m
      { roles := [.node], zone := "zone-a", machineType := "small" } := by
    have bare := isBuildable_ofWorkers (show "project" ≠ "" by decide)
      (show "zone-a" ≠ "" by decide) (show "small" ≠ "" by decide) (by decide) _ _ _ _ own
    exact bare.of_same asked rfl rfl
  have fresh : w.Fresh (.holding m) := fresh_holding named normal rfl
  have found : w.record (.holding m) = some m := record_holding named
  have wanted : w.Wanted m { roles := [.node], zone := "zone-a", machineType := "small" } :=
    ⟨named, rfl, normal, List.forall_mem_singleton.mpr (Machine.isPlain_notedValue _ _ plain),
      List.forall_mem_nil _, fun c own => (can c own).toIsComplete, nofun⟩
  obtain ⟨r, t, ends⟩ := exists_passEnds (w := w) False rfl default found
  obtain ⟨rfl, found', _⟩ := fresh.created found rfl can ends
  obtain ⟨e, unreadable⟩ := Machine.exists_error_of_noted _ _ _ _ _ deep m
  exact ⟨wanted, found, .blank rfl fresh.empty, t, ends,
    stuck_of_unreadable rfl found' ⟨rfl, rfl⟩ rfl unreadable⟩

/-- A machine with all roles is wanted whatever the authority, and whatever the domain. -/
theorem wanted_allRoles (authority : KeyPair) (domain : String) :
    (ofAllRoles authority domain "default" "master").Wanted
      (.allRoles "default" "master" "zone-a" "small" "1.9.4")
      { roles := [.node, .master], zone := "zone-a", machineType := "small" } where
  named := ⟨rfl, rfl⟩
  lasting := rfl
  sorted := (Machine.isPlain_allRoles ..).isNormal
  integers :=
    have plain := Machine.isPlain_allRoles "default" "master" "zone-a" "small" "1.9.4"
    List.forall_mem_singleton.mpr (plain.value _ rfl).plain
  whole := List.forall_mem_nil _
  complete c own := by
    obtain rfl : c = .withDomain "project" domain ⟨"10.0.0.1", 443⟩ := own
    exact Provisions.isComplete_allRoles (k := { project := "project" }) rfl _ _ _ (by decide)
      (by decide) (by decide) _
  ascii _ _ _ := by
    show IsAscii "master"
    simp [IsAscii]

/-- **What is asked of a goal beforehand does not do.** The first pass over a worker whose document
is nested too deep makes an instance, and no other pass ends well. No pass at all ends well over a
machine that is to run the control plane in a domain with a foreign name, or in the name of an
authority whose key cannot be read. -/
theorem Wanted.not_recovers :
    (let w := ofWorkers "project" ⟨"10.0.0.1", 443⟩ "image" "1.9.4" "default" "worker"
      let m := Machine.noted "default" "worker" "zone-a" "small" "1.9.4" (.nested 130)
      w.Wanted m { roles := [.node], zone := "zone-a", machineType := "small" } ∧
        w.record (.holding m) = some m ∧ w.Starts m (.holding m) ∧
        ∃ t, w.PassEnds False (.holding m) (some .created) t ∧ w.Stuck t) ∧
    ∀ setting ∈ [(KeyPair.simpleAuthority, "gr\u00fcn.local"), (⟨"", ""⟩, "cluster.local")],
      let w := ofAllRoles setting.1 setting.2 "default" "master"
      let m := Machine.allRoles "default" "master" "zone-a" "small" "1.9.4"
      w.Wanted m { roles := [.node, .master], zone := "zone-a", machineType := "small" } ∧
        w.record (.holding m) = some m ∧ w.Starts m (.holding m) ∧ w.Stuck (.holding m) := by
  refine ⟨stuck_noted (Json.isNormal_nested 130) (Json.isPlain_nested 130) ?deep, ?uncertified⟩
  case deep =>
    rw [Json.depth_nested]
    decide
  case uncertified =>
    intro setting mem w m
    have wanted := wanted_allRoles setting.1 setting.2
    have fresh : w.Fresh (.holding m) := fresh_holding wanted.named wanted.sorted rfl
    have found : w.record (.holding m) = some m := record_holding wanted.named
    refine ⟨wanted, found, .blank rfl fresh.empty, ?_⟩
    refine stuck_of_uncertified fresh found rfl (wanted.complete _ rfl).machine rfl rfl rfl ?_
    rintro c o pair rfl issued
    obtain ⟨⟨⟩, valid, rest⟩ := bind_eq_ok_iff.mp issued
    obtain ⟨issuer, issues, _⟩ := bind_eq_ok_iff.mp rest
    obtain rfl | rfl : setting = _ ∨ setting = _ := by simpa using mem
    · have foreign : "kubernetes.default.svc.gr\u00fcn.local"
          ∈ (w.provisions.serverNames (.withDomain "project" "gr\u00fcn.local" ⟨"10.0.0.1", 443⟩)
            m { roles := [.node, .master], zone := "zone-a", machineType := "small" }).dnsNames := by
        decide +kernel
      have ascii := AltNames.check_eq_ok_iff.mp valid _ foreign
      simp [IsAscii] at ascii
    · cases issues

end Setting

end NodeProvisioner
