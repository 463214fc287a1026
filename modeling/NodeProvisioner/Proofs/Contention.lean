import Mathlib.Logic.Relation
import NodeProvisioner.Proofs.Contention.Archives

/-!
# No update is lost

Any number of callers put snapshots onto the records of an archive, and others write, create and
remove records as they like. Each caller first reads a record and then writes it, and anything may
come in between: the calls of all of them follow each other in any order.

A caller that has read a record holds a copy of it. Since versions tell the records apart that have
ever been at a key, a write of the copy is accepted only if what has been read is still there. This
is the invariant (`Stage`, `Sound`), kept by each step.

Main statement: `no_lost_update`.
-/

namespace NodeProvisioner

/-! ## The same but for the status -/

namespace Machine

/-- The machine with a version of its record, if any. -/
def atVersion (m : Machine) (version : Option String) : Machine :=
  { m with metadata := { m.metadata with resourceVersion := version } }

/-- The machines are the same but for the snapshot and the version of the record. -/
def SameButStatus (m n : Machine) : Prop := m.SameButSnapshot (n.atVersion m.metadata.resourceVersion)

theorem SameButSnapshot.atVersion {m n : Machine} (h : m.SameButSnapshot n)
    (version : Option String) : (m.atVersion version).SameButSnapshot (n.atVersion version) where
  spec := h.spec
  status := h.status
  metadata := congrArg (fun metadata => { metadata with resourceVersion := version }) h.metadata
  annotations := h.annotations

namespace SameButStatus

theorem refl (m : Machine) : m.SameButStatus m := SameButSnapshot.refl m

theorem trans {m n l : Machine} (h : m.SameButStatus n) (h' : n.SameButStatus l) :
    m.SameButStatus l :=
  SameButSnapshot.trans h (SameButSnapshot.atVersion h' m.metadata.resourceVersion)

/-- A snapshot and a version are put onto a machine. -/
theorem recorded (m observed : Machine) (version : String) :
    m.SameButStatus (Memory.withVersion (m.withSnapshot observed) version) :=
  SameButSnapshot.withSnapshot m observed

end SameButStatus

end Machine

/-! ## Histories -/

namespace Commit

variable {ι : Type}

/-- What is at a key after all commits. -/
def replay (initial : StringMap Machine) (key : String) : List (Commit ι) → Option Machine
  | [] => initial.get? key
  | c :: earlier => if c.key = key then c.after else replay initial key earlier

/-- Each commit has found what the earlier ones have left. -/
def Chained (initial : StringMap Machine) : List (Commit ι) → Prop
  | [] => True
  | c :: earlier => c.before = replay initial c.key earlier ∧ Chained initial earlier

/-- The commits of others than the callers. -/
def byOthers (commits : List (Commit ι)) : List (Commit ι) := commits.filter (·.writer.isNone)

/-- The commit puts a snapshot of the machine onto what it has found at the key of the machine, with
a version, and changes nothing else. -/
def Records (observed : Machine) (c : Commit ι) : Prop :=
  ∃ before version, c.key = Memory.key observed.namespaceText observed.metadata.nameOrStem ∧
    c.before = some before ∧
    c.after = some (Memory.withVersion (before.withSnapshot observed) version) ∧
    before.SameButStatus (Memory.withVersion (before.withSnapshot observed) version)

end Commit

/-- The record is gone or has changed. -/
def Error.IsOvertaken (e : Error) : Prop := ∃ ns name, e = .recordGone ns name ∨ e = .conflict ns name

/-! ## Callers -/

/-- How a caller goes on that puts a snapshot of the machine onto its record, after it has read
it. -/
def Pass.afterRead (observed : Machine) :
    Except Error (Option Machine) → Program Call.Answer (Except Error Machine)
  | .ok (some stored) => .call (.writeRecord (stored.withSnapshot observed)) .done
  | .ok none => .done (.error (.recordGone observed.namespaceText observed.metadata.nameOrStem))
  | .error e => .done (.error e)

theorem Pass.record_run (observed : Machine) : (Pass.record observed).run
    = .call (.readRecord observed.namespaceText observed.metadata.nameOrStem)
      (Pass.afterRead observed) := by
  refine congrArg (Program.call (Call.readRecord _ _)) (funext fun answer => ?_)
  match answer with
  | .ok (some _) => rfl
  | .ok none => rfl
  | .error _ => rfl

/-- Callers at their work, and others beside them. -/
structure Contention (ι : Type) where
  archive : Archive ι
  callers : ι → Program Call.Answer (Except Error Machine)

variable {ι : Type} [DecidableEq ι]

/-- The commits of a caller. -/
def Archive.commitsBy (a : Archive ι) (i : ι) : List (Commit ι) :=
  a.commits.filter (·.writer = some i)

namespace Contention

/-- One call of a caller is answered, or somebody else writes, creates or removes a record. -/
inductive Step : Contention ι → Contention ι → Prop where
  | call {s : Contention ι} {i : ι} {c : Call} {next : c.Answer → Program Call.Answer _}
      {answer : c.Answer} {archive : Archive ι} (calls : s.callers i = .call c next)
      (rule : Archive.rules (some i) c s.archive answer archive) :
    Step s ⟨archive, Function.update s.callers i (next answer)⟩
  | write {s : Contention ι} {m : Machine} {answer : Except Error Machine} {archive : Archive ι}
      (rule : s.archive.Written none m answer archive) :
    Step s ⟨archive, s.callers⟩
  | create {s : Contention ι} {m : Machine} {version : String}
      (absent : s.archive.records.get? (Memory.recordKey m) = none)
      (fresh : s.archive.Fresh (Memory.recordKey m) version) :
    Step s ⟨s.archive.write none (Memory.withVersion m version), s.callers⟩
  | remove {s : Contention ι} (key : String) : Step s ⟨s.archive.remove key, s.callers⟩

/-- Each caller is about to put a snapshot of its machine onto the record of it. -/
def start (records : StringMap Machine)
    (filed : ∀ {key m}, records.get? key = some m → Memory.recordKey m = key)
    (observed : ι → Machine) : Contention ι :=
  ⟨⟨records, [], filed⟩, fun i => (Pass.record (observed i)).run⟩

/-! ## The invariant -/

/-- How far a caller has come. -/
inductive Stage (a : Archive ι) (i : ι) (observed : Machine) :
    Program Call.Answer (Except Error Machine) → Prop where
  | reading (nothing : a.commitsBy i = []) :
    Stage a i observed (.call (.readRecord observed.namespaceText observed.metadata.nameOrStem)
      (Pass.afterRead observed))
  | writing {stored : Machine} (held : a.Held (Memory.recordKey stored) stored)
      (filed : Memory.recordKey stored
        = Memory.key observed.namespaceText observed.metadata.nameOrStem)
      (nothing : a.commitsBy i = []) :
    Stage a i observed (.call (.writeRecord (stored.withSnapshot observed)) .done)
  | refused {e : Error} (overtaken : e.IsOvertaken) (nothing : a.commitsBy i = []) :
    Stage a i observed (.done (.error e))
  | accepted {c : Commit ι} {m : Machine} (once : a.commitsBy i = [c]) (after : c.after = some m) :
    Stage a i observed (.done (.ok m))

/-- What is true of callers and records at all times. -/
structure Sound (initial : StringMap Machine) (observed : ι → Machine) (s : Contention ι) :
    Prop where
  /-- Versions tell the records apart that have been at a key. -/
  versions : ∀ {key m n}, s.archive.Held key m → s.archive.Held key n →
    m.metadata.resourceVersion = n.metadata.resourceVersion → m = n
  stages : ∀ i, Stage s.archive i (observed i) (s.callers i)
  records : ∀ i, ∀ c ∈ s.archive.commitsBy i, c.Records (observed i)
  chained : Commit.Chained initial s.archive.commits
  replayed : ∀ key, s.archive.records.get? key = Commit.replay initial key s.archive.commits
  upheld : ∀ key, Option.Rel Machine.SameButStatus
    (Commit.replay initial key (Commit.byOthers s.archive.commits)) (s.archive.records.get? key)

variable {initial : StringMap Machine} {observed : ι → Machine} {s t : Contention ι}
  {a b : Archive ι} {i : ι}

/-! ## What a write keeps -/

omit [DecidableEq ι] in
theorem versions_write {writer : Option ι} {m : Machine} {version : String}
    (versions : ∀ {key m n}, a.Held key m → a.Held key n →
      m.metadata.resourceVersion = n.metadata.resourceVersion → m = n)
    (fresh : a.Fresh (Memory.recordKey m) version) {key : String} {n l : Machine}
    (held : (a.write writer (Memory.withVersion m version)).Held key n)
    (held' : (a.write writer (Memory.withVersion m version)).Held key l)
    (same : n.metadata.resourceVersion = l.metadata.resourceVersion) : n = l := by
  obtain past | ⟨rfl, rfl⟩ := Archive.held_write.mp held
  · obtain past' | ⟨rfl, rfl⟩ := Archive.held_write.mp held'
    · exact versions past past' same
    · exact absurd same (fresh n past)
  · obtain past' | ⟨_, rfl⟩ := Archive.held_write.mp held'
    · exact absurd same.symm (fresh l past')
    · rfl

theorem commitsBy_write {m : Machine} : (a.write (some i) m).commitsBy i
    = ⟨some i, Memory.recordKey m, a.records.get? (Memory.recordKey m), some m⟩ :: a.commitsBy i :=
  List.filter_cons_of_pos (decide_eq_true rfl)

theorem commitsBy_write_other {writer : Option ι} {m : Machine} (other : writer ≠ some i) :
    (a.write writer m).commitsBy i = a.commitsBy i :=
  List.filter_cons_of_neg (by rw [decide_eq_true_eq]; exact other)

theorem commitsBy_write_none {m : Machine} : (a.write none m).commitsBy i = a.commitsBy i :=
  commitsBy_write_other nofun

theorem commitsBy_remove {key : String} : (a.remove key).commitsBy i = a.commitsBy i :=
  List.filter_cons_of_neg (by rw [decide_eq_true_eq]; exact nofun)

/-- A caller is where it was as long as its own commits and the records held are there. -/
theorem Stage.mono {machine : Machine} {p : Program Call.Answer (Except Error Machine)}
    (h : Stage a i machine p) (held : ∀ key m, a.Held key m → b.Held key m)
    (own : b.commitsBy i = a.commitsBy i) : Stage b i machine p := by
  cases h with
  | reading nothing => exact .reading (own.trans nothing)
  | writing there filed nothing => exact .writing (held _ _ there) filed (own.trans nothing)
  | refused overtaken nothing => exact .refused overtaken (own.trans nothing)
  | accepted once after => exact .accepted (own.trans once) after

/-- **What a call of a caller may do.** Only a write of what still stands is accepted. -/
theorem Stage.step {machine : Machine} {c : Call}
    {next : c.Answer → Program Call.Answer (Except Error Machine)} {answer : c.Answer}
    (h : Stage a i machine (.call c next))
    (versions : ∀ {key m n}, a.Held key m → a.Held key n →
      m.metadata.resourceVersion = n.metadata.resourceVersion → m = n)
    (rule : Archive.rules (some i) c a answer b) :
    Stage b i machine (next answer) ∧ (b = a ∨ ∃ stored version,
      Memory.recordKey stored = Memory.key machine.namespaceText machine.metadata.nameOrStem ∧
      a.records.get? (Memory.recordKey stored) = some stored ∧
      a.Fresh (Memory.recordKey stored) version ∧
      b = a.write (some i) (Memory.withVersion (stored.withSnapshot machine) version)) := by
  cases h with
  | reading nothing =>
    obtain ⟨rfl, rfl⟩ := rule
    refine ⟨?_, .inl rfl⟩
    cases found : b.records.get?
        (Memory.key machine.namespaceText machine.metadata.nameOrStem) with
    | none => exact .refused ⟨_, _, .inl rfl⟩ nothing
    | some stored =>
      have filed := b.filed found
      exact .writing (.inl (filed ▸ found)) filed nothing
  | @writing stored held filed nothing =>
    cases rule with
    | gone => exact ⟨.refused ⟨_, _, .inl rfl⟩ nothing, .inl rfl⟩
    | stale => exact ⟨.refused ⟨_, _, .inr rfl⟩ nothing, .inl rfl⟩
    | @accepted current version found same fresh =>
      -- what stands there has the version of what has been read, and so it is the same
      obtain rfl : current = stored := versions (.inl found) held same
      refine ⟨?_, .inr ⟨current, version, filed, found, fresh, rfl⟩⟩
      have once := commitsBy_write (a := a) (i := i)
        (m := Memory.withVersion (current.withSnapshot machine) version)
      rw [nothing] at once
      exact .accepted once rfl

/-- One caller moves on, and the others are where they were. -/
theorem stages_update {callers : ι → Program Call.Answer (Except Error Machine)}
    {p : Program Call.Answer (Except Error Machine)} (own : Stage a i (observed i) p)
    (others : ∀ j, j ≠ i → Stage a j (observed j) (callers j)) (j : ι) :
    Stage a j (observed j) (Function.update callers i p j) := by
  by_cases same : j = i
  · subst same
    rw [Function.update_self]
    exact own
  · rw [Function.update_of_ne same]
    exact others j same

/-! ## What has been committed -/

omit [DecidableEq ι] in
theorem replay_cons (c : Commit ι) (earlier : List (Commit ι)) (key : String) :
    Commit.replay initial key (c :: earlier)
      = if key = c.key then c.after else Commit.replay initial key earlier := by
  rw [Commit.replay]
  simp only [eq_comm]

omit [DecidableEq ι] in
/-- What has been committed accounts for the records after a write, if it did before. -/
theorem replayed_write {writer : Option ι} {m : Machine}
    (replayed : ∀ key, a.records.get? key = Commit.replay initial key a.commits) (key : String) :
    (a.write writer m).records.get? key = Commit.replay initial key (a.write writer m).commits := by
  rw [Archive.get?_write, replayed key]
  exact (replay_cons ⟨writer, _, _, some m⟩ a.commits key).symm

/-! ## Each step keeps the invariant -/

/-- A caller puts its snapshot onto what stands there. -/
theorem Sound.recorded (h : s.Sound initial observed) {stored : Machine} {version : String}
    {p : Program Call.Answer (Except Error Machine)}
    (filed : Memory.recordKey stored
      = Memory.key (observed i).namespaceText (observed i).metadata.nameOrStem)
    (found : s.archive.records.get? (Memory.recordKey stored) = some stored)
    (fresh : s.archive.Fresh (Memory.recordKey stored) version)
    (stage : Stage (s.archive.write (some i)
      (Memory.withVersion (stored.withSnapshot (observed i)) version)) i (observed i) p) :
    Sound initial observed ⟨s.archive.write (some i)
      (Memory.withVersion (stored.withSnapshot (observed i)) version),
      Function.update s.callers i p⟩ where
  versions := versions_write (m := stored.withSnapshot (observed i)) h.versions fresh
  stages := stages_update stage fun j other =>
    (h.stages j).mono (fun _ _ held => Archive.held_write.mpr (.inl held))
      (commitsBy_write_other fun same => other (Option.some.inj same).symm)
  records j := by
    by_cases own : j = i
    · subst own
      rw [commitsBy_write]
      refine List.forall_mem_cons.mpr ⟨?_, h.records j⟩
      exact ⟨stored, version, filed, found, rfl, .recorded stored (observed j) version⟩
    · rw [commitsBy_write_other fun same => own (Option.some.inj same).symm]
      exact h.records j
  chained := ⟨h.replayed _, h.chained⟩
  replayed := replayed_write h.replayed
  upheld key := by
    have before := h.upheld key
    have others : Commit.byOthers (s.archive.write (some i)
        (Memory.withVersion (stored.withSnapshot (observed i)) version)).commits
        = Commit.byOthers s.archive.commits := List.filter_cons_of_neg nofun
    rw [others, Archive.get?_write]
    split
    · rename_i same
      have there : s.archive.records.get? key = some stored := same ▸ found
      rw [there] at before
      -- the caller has changed nothing but the status of what others have left
      cases left : Commit.replay initial key (Commit.byOthers s.archive.commits) with
      | none =>
        rw [left] at before
        cases before
      | some base =>
        rw [left] at before
        cases before with
        | some alike => exact .some (alike.trans (.recorded stored (observed i) version))
    · exact before

/-- Somebody else puts a record where it belongs, with a fresh version. -/
theorem Sound.written (h : s.Sound initial observed) {m : Machine} {version : String}
    (fresh : s.archive.Fresh (Memory.recordKey m) version) :
    Sound initial observed ⟨s.archive.write none (Memory.withVersion m version), s.callers⟩ where
  versions := versions_write h.versions fresh
  stages j := (h.stages j).mono (fun _ _ held => Archive.held_write.mpr (.inl held))
    commitsBy_write_none
  records j := by
    rw [commitsBy_write_none]
    exact h.records j
  chained := ⟨h.replayed _, h.chained⟩
  replayed := replayed_write h.replayed
  upheld key := by
    have others : Commit.byOthers (s.archive.write none (Memory.withVersion m version)).commits
        = _ :: Commit.byOthers s.archive.commits := List.filter_cons_of_pos rfl
    rw [others, replay_cons, Archive.get?_write]
    split
    · exact .some (.refl _)
    · exact h.upheld key

/-- Somebody else removes a record. -/
theorem Sound.removed (h : s.Sound initial observed) (gone : String) :
    Sound initial observed ⟨s.archive.remove gone, s.callers⟩ where
  versions held held' := h.versions (Archive.held_remove.mp held) (Archive.held_remove.mp held')
  stages j := (h.stages j).mono (fun _ _ => Archive.held_remove.mpr) commitsBy_remove
  records j := by
    rw [commitsBy_remove]
    exact h.records j
  chained := ⟨h.replayed _, h.chained⟩
  replayed key := by
    rw [Archive.get?_remove, h.replayed key]
    exact (replay_cons ⟨none, gone, _, none⟩ s.archive.commits key).symm
  upheld key := by
    have others : Commit.byOthers (s.archive.remove gone).commits
        = _ :: Commit.byOthers s.archive.commits := List.filter_cons_of_pos rfl
    rw [others, replay_cons, Archive.get?_remove]
    split
    · exact .none
    · exact h.upheld key

/-- **Each step keeps the invariant.** -/
theorem Step.sound (step : Step s t) (h : s.Sound initial observed) : t.Sound initial observed := by
  cases step with
  | @call i c next answer archive calls rule =>
    have stage := h.stages i
    rw [calls] at stage
    obtain ⟨after, rfl | ⟨stored, version, filed, found, fresh, rfl⟩⟩ := stage.step h.versions rule
    · exact ⟨h.versions, stages_update after fun j _ => h.stages j, h.records, h.chained,
        h.replayed, h.upheld⟩
    · exact h.recorded filed found fresh after
  | write rule =>
    cases rule with
    | gone => exact h
    | stale => exact h
    | accepted _ _ fresh => exact h.written fresh
  | create _ fresh => exact h.written fresh
  | remove gone => exact h.removed gone

theorem sound_start {filed : ∀ {key m}, initial.get? key = some m → Memory.recordKey m = key} :
    (start initial filed observed).Sound initial observed where
  versions held held' _ := by
    obtain found | ⟨_, none, _⟩ := held
    · obtain found' | ⟨_, none, _⟩ := held'
      · exact Option.some.inj (found.symm.trans found')
      · exact absurd none List.not_mem_nil
    · exact absurd none List.not_mem_nil
  stages i := by
    have own : (start initial filed observed).callers i = _ := Pass.record_run (observed i)
    rw [own]
    exact .reading rfl
  records _ := List.forall_mem_nil _
  chained := trivial
  replayed _ := rfl
  upheld key := by
    show Option.Rel _ (initial.get? key) (initial.get? key)
    cases initial.get? key with
    | none => exact .none
    | some m => exact .some (.refl m)

/-- The invariant holds at all times. -/
theorem sound_of_run {filed : ∀ {key m}, initial.get? key = some m → Memory.recordKey m = key}
    (run : Relation.ReflTransGen Step (start initial filed observed) t) :
    t.Sound initial observed := by
  induction run with
  | refl => exact sound_start
  | tail _ step h => exact step.sound h

/-! ## The outcome -/

theorem Sound.of_error (h : t.Sound initial observed) {e : Error}
    (ended : t.callers i = .done (.error e)) : e.IsOvertaken ∧ t.archive.commitsBy i = [] := by
  have stage := h.stages i
  rw [ended] at stage
  cases stage with
  | refused overtaken nothing => exact ⟨overtaken, nothing⟩

theorem Sound.of_ok (h : t.Sound initial observed) {m : Machine}
    (ended : t.callers i = .done (.ok m)) :
    ∃ c, t.archive.commitsBy i = [c] ∧ c.after = some m := by
  have stage := h.stages i
  rw [ended] at stage
  cases stage with
  | accepted once after => exact ⟨_, once, after⟩

/-- **No update is lost.** However the calls follow each other, whatever a caller has committed puts
a snapshot of its machine, and a version, onto the record that stood there immediately before, and
changes nothing else of it. So at each key, what the commits of others alone would have left is
there, but for snapshot and version. A caller that fails has found its record gone or changed, and
has committed nothing; one that ends well has committed what it was answered with, once. -/
theorem no_lost_update {filed : ∀ {key m}, initial.get? key = some m → Memory.recordKey m = key}
    (run : Relation.ReflTransGen Step (start initial filed observed) t) :
    (∀ i, ∀ c ∈ t.archive.commitsBy i, c.Records (observed i)) ∧
    Commit.Chained initial t.archive.commits ∧
    (∀ key, t.archive.records.get? key = Commit.replay initial key t.archive.commits) ∧
    (∀ key, Option.Rel Machine.SameButStatus
      (Commit.replay initial key (Commit.byOthers t.archive.commits))
      (Commit.replay initial key t.archive.commits)) ∧
    (∀ i e, t.callers i = .done (.error e) → e.IsOvertaken ∧ t.archive.commitsBy i = []) ∧
    ∀ i m, t.callers i = .done (.ok m) → ∃ c, t.archive.commitsBy i = [c] ∧ c.after = some m := by
  have sound := sound_of_run run
  refine ⟨sound.records, sound.chained, sound.replayed, fun key => ?_,
    fun i e => sound.of_error, fun i m => sound.of_ok⟩
  rw [← sound.replayed key]
  exact sound.upheld key

/-! ## Two callers and a third party -/

theorem step_read {machine stored : Machine} (calls : s.callers i = (Pass.record machine).run)
    (found : s.archive.records.get?
      (Memory.key machine.namespaceText machine.metadata.nameOrStem) = some stored) :
    Step s ⟨s.archive, Function.update s.callers i
      (.call (.writeRecord (stored.withSnapshot machine)) .done)⟩ := by
  have told : Archive.rules (some i)
      (.readRecord machine.namespaceText machine.metadata.nameOrStem) s.archive
      (Except.ok (some stored)) s.archive := ⟨congrArg Except.ok found.symm, rfl⟩
  exact .call (calls.trans (Pass.record_run machine)) told

section

variable {m current : Machine} (calls : s.callers i = .call (.writeRecord m) .done)
  (found : s.archive.records.get? (Memory.recordKey m) = some current)

include calls found

theorem step_refused (differs : current.metadata.resourceVersion ≠ m.metadata.resourceVersion) :
    Step s ⟨s.archive, Function.update s.callers i
      (.done (.error (.conflict m.namespaceText m.metadata.nameOrStem)))⟩ :=
  .call calls (.stale found differs)

theorem step_accepted {version : String}
    (same : current.metadata.resourceVersion = m.metadata.resourceVersion)
    (fresh : s.archive.Fresh (Memory.recordKey m) version) :
    Step s ⟨s.archive.write (some i) (Memory.withVersion m version), Function.update s.callers i
      (.done (.ok (Memory.withVersion m version)))⟩ :=
  .call calls (.accepted found same fresh)

end

/-- A record in the default namespace. -/
def original : Machine :=
  { metadata := { name := some "worker", namespaceName := some "default",
                  resourceVersion := some "1" } }

/-- The record with a label. -/
def labelled : Machine :=
  { original with metadata := { original.metadata with labels := some (.ofList [("team", "a")]) } }

/-- Only the record is there. -/
def alone : StringMap Machine := StringMap.empty.insert (Memory.recordKey original) original

theorem get?_alone {key : String} :
    alone.get? key = if key = Memory.recordKey original then some original else none :=
  StringMap.get?_insert _ _ _ _

theorem filed_alone {key : String} {m : Machine} (found : alone.get? key = some m) :
    Memory.recordKey m = key := by
  rw [get?_alone] at found
  split at found
  · rename_i same
    exact Option.some.inj found ▸ same.symm
  · cases found

theorem fresh_alone {version : String} (ne : "1" ≠ version) :
    (⟨alone, [], filed_alone⟩ : Archive Bool).Fresh (Memory.recordKey original) version := by
  rintro m (found | ⟨_, none, _⟩)
  · have same : some original = some m := ((get?_alone).trans (if_pos rfl)).symm.trans found
    obtain rfl := Option.some.inj same
    exact fun again => ne (Option.some.inj again)
  · exact absurd none List.not_mem_nil

/-- Of two callers, one has read the record before somebody else puts a label on it, and fails. The
other one comes afterwards, and leaves the label as it is. -/
theorem no_lost_update_of_label : ∃ t : Contention Bool,
    Relation.ReflTransGen Step (start alone filed_alone fun _ => original) t ∧
    t.callers true = .done (.error (.conflict "default" "worker")) ∧
    t.archive.commitsBy true = [] ∧
    ∃ m, t.callers false = .done (.ok m) ∧
      t.archive.records.get? (Memory.recordKey original) = some m ∧
      (Memory.withVersion labelled "2").SameButStatus m := by
  have there : alone.get? (Memory.recordKey original) = some original :=
    get?_alone.trans (if_pos rfl)
  let third : Archive Bool :=
    Archive.write ⟨alone, [], filed_alone⟩ none (Memory.withVersion labelled "2")
  have fresh : (⟨alone, [], filed_alone⟩ : Archive Bool).Fresh (Memory.recordKey original) "2" :=
    fresh_alone (by decide)
  have fresh' : third.Fresh (Memory.recordKey original) "3" := by
    intro m held
    obtain past | ⟨_, rfl⟩ := Archive.held_write.mp held
    · exact fresh_alone (by decide) m past
    · exact fun again => absurd (Option.some.inj again) (by decide)
  have there' : third.records.get? (Memory.recordKey original)
      = some (Memory.withVersion labelled "2") := Archive.get?_write.trans (if_pos rfl)
  have first := Relation.ReflTransGen.single (step_read (i := true)
    (s := start alone filed_alone fun _ => original) rfl there)
  have second := first.tail (.write (m := labelled) (.accepted there rfl fresh))
  have fourth := (second.tail (step_refused (i := true) rfl there' (by decide))).tail
    (step_read (i := false) rfl there')
  have run := fourth.tail (step_accepted (i := false)
    (m := (Memory.withVersion labelled "2").withSnapshot original) rfl there' (by rfl) fresh')
  obtain ⟨_, _, _, upheld, failed, _⟩ := no_lost_update run
  obtain ⟨_, nothing⟩ := failed true _ rfl
  have kept : Option.Rel Machine.SameButStatus (some (Memory.withVersion labelled "2")) (some _) :=
    upheld (Memory.recordKey original)
  refine ⟨_, run, rfl, nothing, _, rfl, Archive.get?_write.trans (if_pos rfl), ?_⟩
  cases kept with
  | some alike => exact alike

end Contention

end NodeProvisioner
