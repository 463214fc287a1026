import NodeProvisioner.Proofs.Runs.Passes
import NodeProvisioner.Proofs.Snapshots

/-!
# Runs

A run is made of steps: passes over the stored record of a machine, and edits of this record by
somebody else. An edit may change anything but the machine's name and namespace and the snapshot.
A run starts where there is neither an instance of the machine nor a snapshot.

The log of a run accounts for what is in the memory: for the snapshot on the record by the last
recording, and for the instance in a zone by the last insertion or deletion there.

Main statements: `Run.accounts`, `Run.invariant`.
-/

namespace NodeProvisioner

/-- Whose passes are run: what they are made with, for which clusters, and over which record. -/
structure Setting where
  system : SignatureSystem
  provisions : Provisions
  clusters : Cluster → Prop
  /-- The namespace of the machine. -/
  space : String
  name : String

/-- Somebody else writes the record anew: with the same name and snapshot, and with an opaque value
that is sorted as a map is. -/
structure Machine.IsEdit (m m' : Machine) : Prop where
  space : m'.metadata.namespaceName = m.metadata.namespaceName
  name : m'.metadata.name = m.metadata.name
  snapshot : m'.metadata.annotation? snapshotKey = m.metadata.annotation? snapshotKey
  normal : m'.IsNormal

namespace Setting

variable (w : Setting) (fails : Prop)

/-- The stored record. -/
def record (s : Scene) : Option Machine := s.memory.readRecord w.space w.name

/-- The instance in a zone. -/
def instanceIn (s : Scene) (zone : String) : Option Instance := s.memory.getInstance zone w.name

/-- A pass over the stored record may end in this. The log is that of this pass. -/
def PassEnds (s : Scene) (r : Option Outcome) (t : Scene) : Prop :=
  ∃ o c m, w.clusters c ∧ w.record s = some m ∧
    (w.provisions.reconcile w.system o c m).Ends (Answers fails m) { s with log := [] } r t

/-- The scene with another record in the place of the stored one. -/
def edited (s : Scene) (m : Machine) : Scene :=
  { s with
    memory := { s.memory with records := s.memory.records.insert (Memory.key w.space w.name) m }
    log := [] }

/-- A step of a run. -/
inductive Step (s : Scene) : Scene → Prop
  | pass {r : Option Outcome} {t : Scene} (ends : w.PassEnds fails s r t) : Step s t
  | edit {m m' : Machine} (found : w.record s = some m) (edit : m.IsEdit m') :
    Step s (w.edited s m')

/-- There is a record without a snapshot, and no instance in any zone. -/
structure Fresh (s : Scene) : Prop where
  record : ∃ m, w.record s = some m ∧ m.IsNamed w.space w.name ∧ m.IsNormal ∧
    m.snapshot? = .ok none
  empty : ∀ zone, w.instanceIn s zone = none
  log : s.log = []

/-- The scenes of a run between its steps, the last one first. -/
inductive Run : List Scene → Prop
  | start {s : Scene} (fresh : w.Fresh s) : Run [s]
  | next {s t : Scene} {past : List Scene} (run : Run (s :: past)) (step : w.Step fails s t) :
    Run (t :: s :: past)

end Setting

/-! ## What the log tells -/

/-- All changes of a run, the last one first. -/
def changesOf (scenes : List Scene) : List Change := scenes.flatMap Scene.log

/-- The machine of which a snapshot has been taken last. -/
def lastRecorded : List Change → Option Machine
  | [] => none
  | .recorded m _ :: _ => some m
  | .inserted .. :: rest => lastRecorded rest
  | .deleted .. :: rest => lastRecorded rest

/-- The instance that stands in a zone, and the machine for which it has been inserted. -/
def standing (zone : String) : List Change → Option (Machine × Instance)
  | [] => none
  | .inserted z m made :: rest => if zone = z then some (m, made) else standing zone rest
  | .deleted z _ :: rest => if zone = z then none else standing zone rest
  | .recorded .. :: rest => standing zone rest

/-- A record shows the plain machine that has been recorded last. -/
theorem Pass.snapshot?_recordOf {m : Machine} (plain : m.IsPlain) (stored : Machine) :
    (Pass.recordOf stored m).snapshot? = .ok (some m.blanked) :=
  Machine.snapshot?_of_plain (Machine.annotation?_withSnapshot stored m) plain

/-- A record that has just got a snapshot of a readable machine shows what the machine asks for. -/
theorem Pass.exists_shown_recordOf {m : Machine} (readable : m.IsReadable)
    {spec : MachineProviderSpec} (asked : MachineProviderSpec.ofMachine m = .ok spec)
    (stored : Machine) : ∃ current, (Pass.recordOf stored m).snapshot? = .ok (some current) ∧
      current.differs m = false :=
  readable.exists_shown asked (Machine.annotation?_withSnapshot stored m)

/-- A change that a pass over a machine may make. -/
inductive Change.IsOf (w : Setting) (m : Machine) : Change → Prop
  | inserted {spec : MachineProviderSpec} {made : Instance} {c : Cluster}
    (asked : MachineProviderSpec.ofMachine m = .ok spec) (own : w.clusters c)
    (makes : w.provisions.Makes w.system c m made) : IsOf w m (.inserted spec.zone m made)
  | deleted {zone : String} : IsOf w m (.deleted zone w.name)
  | recorded {spec : MachineProviderSpec} (asked : MachineProviderSpec.ofMachine m = .ok spec) :
    IsOf w m (.recorded m (Pass.recordOf m m))

/-- The log accounts for a record. -/
structure Books (w : Setting) (changes : List Change) (m : Machine) : Prop where
  named : m.IsNamed w.space w.name
  normal : m.IsNormal
  blank : lastRecorded changes = none → m.snapshot? = .ok none
  kept : ∀ last, lastRecorded changes = some last →
    m.metadata.annotation? snapshotKey = some (Snapshot.encode last) ∧
      last.IsNamed w.space w.name ∧ last.IsNormal

namespace Books

variable {w : Setting} {changes : List Change} {m : Machine}

/-- What a snapshot shows has the name of the machine. -/
theorem name_of_shown (h : Books w changes m) {current : Machine}
    (shown : m.snapshot? = .ok (some current)) :
    ∃ last, lastRecorded changes = some last ∧
      Snapshot.decode (Snapshot.encode last) = .ok current ∧
      current.metadata.name = some w.name := by
  cases taken : lastRecorded changes with
  | none =>
    rw [h.blank taken] at shown
    cases shown
  | some last =>
    obtain ⟨text, named, _⟩ := h.kept last taken
    have decoded := (Machine.snapshot?_eq_some_iff text).mp shown
    exact ⟨last, rfl, decoded, (Snapshot.name_of_decode decoded).trans named.name⟩

theorem called (h : Books w changes m) {current : Machine}
    (shown : m.snapshot? = .ok (some current)) : current.metadata.nameOrStem = w.name := by
  obtain ⟨_, _, _, name⟩ := h.name_of_shown shown
  rw [ObjectMeta.nameOrStem, name]
  rfl

/-- An edit keeps the books. -/
theorem edit (h : Books w changes m) {m' : Machine} (edit : m.IsEdit m') :
    Books w changes m' where
  named := ⟨by rw [← h.named.space, Machine.namespaceText, edit.space]; rfl,
    edit.name.trans h.named.name⟩
  normal := edit.normal
  blank none := by
    rw [Machine.snapshot?_eq_none_iff, edit.snapshot]
    exact Machine.snapshot?_eq_none_iff.mp (h.blank none)
  kept last taken := by
    rw [edit.snapshot]
    exact h.kept last taken

/-- What is written when a snapshot is taken keeps the books. -/
theorem recorded (named : m.IsNamed w.space w.name) (normal : m.IsNormal) :
    Books w (.recorded m (Pass.recordOf m m) :: changes) (Pass.recordOf m m) where
  named := ⟨named.space, named.name⟩
  normal := normal
  blank none := by cases none
  kept last taken := by
    cases taken
    exact ⟨Machine.annotation?_withSnapshot m m, named, normal⟩

end Books

/-- The log accounts for a memory. -/
structure Accounts (w : Setting) (changes : List Change) (memory : Memory) : Prop where
  record : ∃ m, memory.readRecord w.space w.name = some m ∧ Books w changes m
  instances : ∀ zone, memory.getInstance zone w.name = (standing zone changes).map Prod.snd
  made : ∀ zone m i, standing zone changes = some (m, i) →
    ∃ c, w.clusters c ∧ w.provisions.Makes w.system c m i

namespace Accounts

variable {w : Setting} {changes : List Change} {memory : Memory} {m : Machine}

/-- **The log accounts for each change that a pass may make.** -/
theorem apply (h : Accounts w changes memory) (named : m.IsNamed w.space w.name)
    (normal : m.IsNormal) {change : Change} (own : change.IsOf w m) :
    Accounts w (change :: changes) (change.apply memory) := by
  cases own with
  | @inserted spec made c asked own makes =>
    obtain ⟨record, found, books⟩ := h.record
    refine ⟨⟨record, found, books.named, books.normal, books.blank, books.kept⟩, ?_, ?_⟩
    · intro zone
      rw [makes.getInstance_inserted named, h.instances, standing]
      split <;> rfl
    · intro zone m' i stands
      rw [standing] at stands
      split at stands
      · cases stands
        exact ⟨c, own, makes⟩
      · exact h.made zone m' i stands
  | @deleted zone =>
    obtain ⟨record, found, books⟩ := h.record
    refine ⟨⟨record, found, books.named, books.normal, books.blank, books.kept⟩, ?_, ?_⟩
    · intro other
      rw [Change.getInstance_deleted, h.instances, standing]
      split <;> rfl
    · intro other m' i stands
      rw [standing] at stands
      split at stands
      · cases stands
      · exact h.made other m' i stands
  | recorded asked =>
    exact ⟨⟨_, Pass.readRecord_recordOf named.filed memory, .recorded named normal⟩, h.instances, h.made⟩

theorem applyAll (h : Accounts w changes memory) (named : m.IsNamed w.space w.name)
    (normal : m.IsNormal) : ∀ {new : List Change}, (∀ change ∈ new, change.IsOf w m) →
      Accounts w (new ++ changes) (new.foldr Change.apply memory)
  | [], _ => h
  | change :: _, own => (h.applyAll named normal fun change mem =>
      own change (List.mem_cons_of_mem _ mem)).apply named normal (own change List.mem_cons_self)

end Accounts

/-! ## Passes of a run -/

section

variable {w : Setting} {fails : Prop} {c : Cluster} {m : Machine} {memory : Memory}
  {changes : List Change} {r : Option Outcome}

theorem Creates.isOf (own : w.clusters c)
    (h : Creates fails w.system w.provisions c m m w.name memory changes r) :
    ∀ change ∈ changes, change.IsOf w m := by
  cases h with
  | stopped => exact fun _ mem => absurd mem List.not_mem_nil
  | found asked => simpa using .recorded asked
  | unrecorded asked _ makes => simpa using .inserted asked own makes
  | created asked _ makes =>
    intro change mem
    obtain rfl | mem := List.mem_cons.mp mem
    · exact .recorded asked
    · obtain rfl := List.mem_singleton.mp mem
      exact .inserted asked own makes

theorem Deletes.isOf {current : Machine} (called : current.metadata.nameOrStem = w.name)
    (h : Deletes fails c current memory changes r) : ∀ change ∈ changes, change.IsOf w m := by
  cases h with
  | stopped => exact fun _ mem => absurd mem List.not_mem_nil
  | absent => exact fun _ mem => absurd mem List.not_mem_nil
  | deleted =>
    intro change mem
    obtain rfl := List.mem_singleton.mp mem
    exact called ▸ .deleted

/-- **A pass makes only changes that are its own.** -/
theorem Reconciles.isOf {past : List Change} (books : Books w past m) (own : w.clusters c)
    (h : Reconciles fails w.system w.provisions c m w.name memory changes r) :
    ∀ change ∈ changes, change.IsOf w m := by
  cases h with
  | terminated _ deletes => exact deletes.isOf books.named.nameOrStem
  | unreadable => exact fun _ mem => absurd mem List.not_mem_nil
  | created _ _ creates => exact creates.isOf own
  | unchanged => exact fun _ mem => absurd mem List.not_mem_nil
  | refused => exact fun _ mem => absurd mem List.not_mem_nil
  | kept _ shown _ _ deletes => exact deletes.isOf (books.called shown)
  | replaced _ shown _ _ deletes creates =>
    intro change mem
    obtain mem | mem := List.mem_append.mp mem
    · exact creates.isOf own change mem
    · exact deletes.isOf (books.called shown) change mem

end

namespace Setting

variable {w : Setting} {fails : Prop} {s t : Scene} {past : List Change}

/-- What a pass over a record does. -/
theorem PassEnds.reconciles_of_named {r : Option Outcome} (h : w.PassEnds fails s r t)
    {m : Machine} (found : w.record s = some m) (named : m.IsNamed w.space w.name) :
    ∃ c, w.clusters c ∧ t.memory = t.log.foldr Change.apply s.memory ∧
      Reconciles fails w.system w.provisions c m w.name s.memory t.log r := by
  obtain ⟨o, c, m', own, found', ends⟩ := h
  cases found.symm.trans found'
  obtain ⟨changes, lead, reconciles⟩ :=
    w.provisions.reconcile_ends (s := { s with log := [] }) named found ends
  have log : t.log = changes := lead.log.trans (List.append_nil changes)
  exact ⟨c, own, log ▸ lead.memory, log ▸ reconciles⟩

/-- What a pass over a record does that the log accounts for. -/
theorem PassEnds.reconciles {r : Option Outcome} (h : w.PassEnds fails s r t)
    (accounts : Accounts w past s.memory) : ∃ c m, w.clusters c ∧ w.record s = some m ∧
      Books w past m ∧ t.memory = t.log.foldr Change.apply s.memory ∧
      Reconciles fails w.system w.provisions c m w.name s.memory t.log r := by
  obtain ⟨m, found, books⟩ := accounts.record
  obtain ⟨c, own, memory, reconciles⟩ := h.reconciles_of_named found books.named
  exact ⟨c, m, own, found, books, memory, reconciles⟩

theorem record_edited (w : Setting) (s : Scene) (m : Machine) :
    w.record (w.edited s m) = some m := by
  show (s.memory.records.insert (Memory.key w.space w.name) m).get? _ = some m
  rw [StringMap.get?_insert]
  exact if_pos rfl

theorem Step.accounts (h : w.Step fails s t) (accounts : Accounts w past s.memory) :
    Accounts w (t.log ++ past) t.memory := by
  cases h with
  | pass ends =>
    obtain ⟨c, m, own, _, books, memory, reconciles⟩ := ends.reconciles accounts
    rw [memory]
    exact accounts.applyAll books.named books.normal (reconciles.isOf books own)
  | @edit m m' found edit =>
    obtain ⟨record, found', books⟩ := accounts.record
    cases found.symm.trans found'
    exact ⟨⟨m', w.record_edited s m', books.edit edit⟩, accounts.instances, accounts.made⟩

theorem Fresh.accounts (h : w.Fresh s) : Accounts w [] s.memory := by
  obtain ⟨m, found, named, normal, blank⟩ := h.record
  exact ⟨⟨m, found, named, normal, fun _ => blank, fun last none => by cases none⟩, h.empty,
    fun _ _ _ none => by cases none⟩

/-- **The log of a run accounts for the memory.** -/
theorem Run.accounts {past : List Scene} (h : w.Run fails (s :: past)) :
    Accounts w (changesOf (s :: past)) s.memory := by
  -- the induction is on the run, so its scenes must be a variable
  generalize eq : s :: past = scenes at h
  induction h generalizing s past with
  | start fresh =>
    cases eq
    rw [changesOf, List.flatMap_singleton, fresh.log]
    exact fresh.accounts
  | next run step ih =>
    cases eq
    exact step.accounts (ih rfl)

/-- **What holds of the empty log and is kept by each step holds of the log of every run.** -/
theorem Run.invariant {past : List Scene} (h : w.Run fails (s :: past)) {P : List Change → Prop}
    (start : P []) (keeps : ∀ {s t changes}, w.Step fails s t → Accounts w changes s.memory →
      P changes → P (t.log ++ changes)) : P (changesOf (s :: past)) := by
  generalize eq : s :: past = scenes at h
  induction h generalizing s past with
  | start fresh =>
    cases eq
    rw [changesOf, List.flatMap_singleton, fresh.log]
    exact start
  | next run step ih =>
    cases eq
    exact keeps step run.accounts (ih rfl)

end Setting

end NodeProvisioner
