import NodeProvisioner.Proofs.Runs.Workers

/-!
# Whether snapshots tell the truth

A snapshot tells the truth if the instance in its zone has been inserted for a machine that asks for
what the snapshot shows. Where calls may fail this need not be so. There are three ways in which a
pass leaves a snapshot that does not tell the truth, and no other:

* it puts another instance in the zone that the snapshot shows, and its own snapshot is lost;
* it takes a snapshot of an instance that it has found, and that has been inserted for a machine
  that asks for something else: whoever inserted it had lost its snapshot, and the record has been
  edited since;
* it takes a snapshot of the instance that it has inserted itself, but the text reads as something
  else. This does not happen to a plain machine.

Main statement: `Run.truthful_iff`.
-/

namespace NodeProvisioner

/-- The two machines ask for the same. -/
structure Machine.AsksLike (m m' : Machine) : Prop where
  providerSpec : (m.spec.providerSpec == m'.spec.providerSpec) = true
  versions : m.spec.versions = m'.spec.versions

/-- The last snapshot reads as this machine, which asks for this. -/
structure Shows (changes : List Change) (current : Machine) (spec : MachineProviderSpec) :
    Prop where
  taken : ∃ last, lastRecorded changes = some last ∧
    Snapshot.decode (Snapshot.encode last) = .ok current
  asked : MachineProviderSpec.ofMachine current = .ok spec

/-- What stands in the zone of the last snapshot has been inserted for a machine that asks for what
the snapshot shows. -/
def Truth (changes : List Change) : Prop :=
  ∀ current spec m i, Shows changes current spec → standing spec.zone changes = some (m, i) →
    current.AsksLike m

/-- Nothing is done but to delete instances. -/
def Removes (changes : List Change) : Prop :=
  ∀ change ∈ changes, ∃ zone name, change = .deleted zone name

/-- A pass makes a snapshot untrue. -/
inductive Deceives (past : List Change) : List Change → Prop
  /-- An instance has been inserted in the zone that the snapshot shows, but not recorded. -/
  | lost {current m : Machine} {spec : MachineProviderSpec} {made : Instance} {rest : List Change}
    (shows : Shows past current spec) : Deceives past (.inserted spec.zone m made :: rest)
  /-- A snapshot has been taken of an instance that stood there already, inserted for something
  else. -/
  | adopted {current m record other : Machine} {spec : MachineProviderSpec} {i : Instance}
    {rest : List Change} (removes : Removes rest)
    (shows : Shows [.recorded m record] current spec)
    (stands : standing spec.zone (rest ++ past) = some (other, i))
    (unlike : ¬ current.AsksLike other) : Deceives past (.recorded m record :: rest)
  /-- The snapshot of the instance that has been inserted reads as something else. -/
  | garbled {current m record : Machine} {spec : MachineProviderSpec} {zone : String}
    {made : Instance} {rest : List Change} (shows : Shows [.recorded m record] current spec)
    (unlike : ¬ current.AsksLike m) :
    Deceives past (.recorded m record :: .inserted zone m made :: rest)

/-! ## Changes -/

section

variable {past rest : List Change} {m record : Machine} {zone name : String} {made : Instance}

section

variable {changes changes' : List Change} {current : Machine} {spec : MachineProviderSpec}

theorem Shows.congr (h : Shows changes current spec)
    (same : lastRecorded changes = lastRecorded changes') : Shows changes' current spec :=
  ⟨same ▸ h.taken, h.asked⟩

theorem Shows.of_recorded (h : Shows (.recorded m record :: changes) current spec) :
    Shows (.recorded m record :: changes') current spec :=
  h.congr rfl

theorem Shows.of_inserted (h : Shows (.inserted zone m made :: changes) current spec) :
    Shows changes current spec :=
  h.congr rfl

theorem Shows.of_deleted (h : Shows (.deleted zone name :: changes) current spec) :
    Shows changes current spec :=
  h.congr rfl

end

/-- Deleting an instance makes no snapshot untrue. -/
theorem Truth.deleted (h : Truth past) : Truth (.deleted zone name :: past) := by
  intro current spec m i shows stands
  rw [standing] at stands
  split at stands
  · cases stands
  · exact h current spec m i shows.of_deleted stands

theorem Removes.nil : Removes [] := fun _ mem => absurd mem List.not_mem_nil

section

variable (removes : Removes rest)

include removes

theorem Removes.truth (truth : Truth past) : Truth (rest ++ past) := by
  induction rest with
  | nil => exact truth
  | cons change rest ih =>
    obtain ⟨⟨zone, name, rfl⟩, others⟩ := List.forall_mem_cons.mp removes
    exact (ih others).deleted

theorem Removes.lastRecorded : lastRecorded (rest ++ past) = lastRecorded past := by
  induction rest with
  | nil => rfl
  | cons change rest ih =>
    obtain ⟨⟨zone, name, rfl⟩, others⟩ := List.forall_mem_cons.mp removes
    exact ih others

theorem Removes.not_deceives : ¬ Deceives past rest := by
  intro deceives
  cases deceives <;> obtain ⟨_, _, ⟨⟩⟩ := removes _ List.mem_cons_self

/-- A snapshot that is taken of an instance that has been found is untrue if that has been inserted
for something else. -/
theorem Truth.found_iff : Truth (.recorded m record :: (rest ++ past)) ↔
    ¬ Deceives past (.recorded m record :: rest) := by
  constructor
  · rintro truth (_ | ⟨_, shows, stands, unlike⟩ | _)
    · exact unlike (truth _ _ _ _ shows.of_recorded stands)
    · obtain ⟨_, _, ⟨⟩⟩ := removes _ List.mem_cons_self
  · intro never current spec other i shows stands
    by_contra unlike
    exact never (.adopted removes shows.of_recorded stands unlike)

end

/-- A snapshot that is taken of an instance that has just been inserted is untrue if it reads as
something else. -/
theorem Truth.created_iff (normal : m.IsNormal) {spec : MachineProviderSpec}
    (asked : MachineProviderSpec.ofMachine m = .ok spec) (same : zone = spec.zone) :
    Truth (.recorded m record :: .inserted zone m made :: (rest ++ past)) ↔
      ¬ Deceives past (.recorded m record :: .inserted zone m made :: rest) := by
  -- the snapshot asks for the zone in which the instance has been inserted
  have stands {current : Machine} {spec' : MachineProviderSpec} {changes : List Change}
      (shows : Shows (.recorded m record :: changes) current spec') :
      standing spec'.zone (.recorded m record :: .inserted zone m made :: (rest ++ past))
        = some (m, made) := by
    obtain ⟨⟨last, taken, read⟩, asked'⟩ := shows
    cases taken
    cases (Snapshot.ofMachine_of_decode normal read asked).symm.trans asked'
    exact if_pos same.symm
  constructor
  · rintro truth (_ | ⟨removes, _, _, _⟩ | ⟨shows, unlike⟩)
    · obtain ⟨_, _, ⟨⟩⟩ := removes _ List.mem_cons_self
    · exact unlike (truth _ _ _ _ shows.of_recorded (stands shows))
  · intro never current spec' other i shows stands'
    cases (stands shows).symm.trans stands'
    by_contra unlike
    exact never (.garbled shows.of_recorded unlike)

/-- An instance that is inserted for something else makes the snapshot of its zone untrue. -/
theorem Truth.inserted_iff (truth : Truth (rest ++ past))
    (same : lastRecorded (rest ++ past) = lastRecorded past)
    (unlike : ∀ current spec, Shows past current spec → ¬ current.AsksLike m) :
    Truth (.inserted zone m made :: (rest ++ past)) ↔
      ¬ Deceives past (.inserted zone m made :: rest) := by
  constructor
  · rintro truth' ⟨shows⟩
    refine unlike _ _ shows (truth' _ _ m made (shows.congr same.symm) ?_)
    rw [standing, if_pos rfl]
  · intro never current spec other i shows stands
    rw [standing] at stands
    split at stands
    · rename_i same_zone
      subst same_zone
      exact (never (.lost (shows.of_inserted.congr same))).elim
    · exact truth current spec other i shows.of_inserted stands

/-- The snapshot of a plain machine reads as what the machine asks for. -/
theorem not_deceives_of_created (plain : m.IsPlain) :
    ¬ Deceives past (.recorded m record :: .inserted zone m made :: rest) := by
  rintro (_ | ⟨removes, _, _, _⟩ | ⟨⟨⟨last, taken, read⟩, _⟩, unlike⟩)
  · obtain ⟨_, _, ⟨⟩⟩ := removes _ List.mem_cons_self
  · cases taken
    cases (Snapshot.decode_encode plain).symm.trans read
    obtain ⟨_, alike, versions⟩ := Machine.differs_eq_false_iff.mp (plain.differs_blanked rfl rfl)
    exact unlike ⟨alike, versions⟩

end

/-! ## A pass -/

section

variable {fails : Prop} {w : Setting} {c : Cluster} {m : Machine} {memory : Memory}
  {past new first : List Change} {r : Option Outcome}

theorem Deletes.removes {current : Machine} (h : Deletes fails c current memory new r) :
    Removes new := by
  cases h with
  | stopped => exact .nil
  | absent => exact .nil
  | deleted =>
    intro change mem
    exact ⟨_, _, List.mem_singleton.mp mem⟩

theorem Creates.truth_iff (truth : Truth past) (normal : m.IsNormal) (removes : Removes first)
    (unlike : ∀ current spec, Shows past current spec → ¬ current.AsksLike m)
    (h : Creates fails w.system w.provisions c m m w.name memory new r) :
    Truth (new ++ (first ++ past)) ↔ ¬ Deceives past (new ++ first) := by
  cases h with
  | stopped => exact iff_of_true (removes.truth truth) removes.not_deceives
  | found => exact Truth.found_iff removes
  | unrecorded => exact Truth.inserted_iff (removes.truth truth) removes.lastRecorded unlike
  | created asked =>
    simp only [List.cons_append, List.nil_append]
    exact Truth.created_iff normal asked rfl

/-- **A pass makes a snapshot untrue in no other way.** -/
theorem Reconciles.truth_iff (truth : Truth past) (books : Books w past m)
    (h : Reconciles fails w.system w.provisions c m w.name memory new r) :
    Truth (new ++ past) ↔ ¬ Deceives past new := by
  have removed {new : List Change} (removes : Removes new) :
      Truth (new ++ past) ↔ ¬ Deceives past new :=
    iff_of_true (removes.truth truth) removes.not_deceives
  cases h with
  | terminated _ deletes => exact removed deletes.removes
  | unreadable => exact removed .nil
  | created _ shown creates =>
    have whole : Truth (new ++ ([] ++ past)) ↔ ¬ Deceives past (new ++ []) := by
      refine creates.truth_iff truth books.normal .nil ?_
      rintro current spec ⟨⟨last, taken, _⟩, _⟩
      exact absurd shown (Machine.snapshot?_ne_none (books.kept last taken).1)
    rwa [List.append_nil] at whole
  | unchanged => exact removed .nil
  | refused => exact removed .nil
  | kept _ _ _ _ deletes => exact removed deletes.removes
  | @replaced current first second _ _ _ shown other _ deletes creates =>
    rw [List.append_assoc]
    refine creates.truth_iff truth books.normal deletes.removes ?_
    rintro current' spec ⟨⟨last, taken, read⟩, _⟩ ⟨alike, versions⟩
    -- a machine that asks for what the snapshot shows would not have been replaced
    obtain rfl : current' = current := by
      have shown' := (Machine.snapshot?_eq_some_iff (books.kept last taken).1).mpr read
      exact Option.some.inj (Except.ok.inj (shown'.symm.trans shown))
    obtain ⟨_, _, _, name⟩ := books.name_of_shown shown
    rw [Machine.differs_eq_false_iff.mpr
      ⟨name.trans books.named.name.symm, alike, versions⟩] at other
    cases other

end

/-! ## A run -/

namespace Setting

variable {w : Setting} {fails : Prop} {s t : Scene} {past : List Scene}

/-- The instance in the zone of the snapshot that the record carries has been inserted for a machine
that asks for what the snapshot shows. -/
def Truthful (w : Setting) (s : Scene) (past : List Scene) : Prop :=
  ∀ record current spec i, w.record s = some record →
    record.snapshot? = .ok (some current) → MachineProviderSpec.ofMachine current = .ok spec →
    w.instanceIn s spec.zone = some i →
    ∃ m, standing spec.zone (changesOf (s :: past)) = some (m, i) ∧ current.AsksLike m

theorem truthful_iff_truth (accounts : Accounts w (changesOf (s :: past)) s.memory) :
    w.Truthful s past ↔ Truth (changesOf (s :: past)) := by
  obtain ⟨record, found, books⟩ := accounts.record
  constructor
  · rintro truthful current spec m i ⟨⟨last, taken, read⟩, asked⟩ stands
    have shown := (Machine.snapshot?_eq_some_iff (books.kept last taken).1).mpr read
    have there : w.instanceIn s spec.zone = some i := by
      rw [instanceIn, accounts.instances, stands]
      rfl
    obtain ⟨m', stands', like⟩ := truthful record current spec i found shown asked there
    cases stands.symm.trans stands'
    exact like
  · intro truth record' current spec i found' shown asked there
    cases found.symm.trans found'
    -- the text on the record is that of the machine recorded last
    obtain ⟨last, taken, read, _⟩ := books.name_of_shown shown
    rw [instanceIn, accounts.instances, Option.map_eq_some_iff] at there
    obtain ⟨⟨m, _⟩, stands, rfl⟩ := there
    exact ⟨m, stands, truth current spec m _ ⟨⟨last, taken, read⟩, asked⟩ stands⟩

theorem Step.truth_iff {changes : List Change} (h : w.Step fails s t)
    (accounts : Accounts w changes s.memory) (truth : Truth changes) :
    Truth (t.log ++ changes) ↔ ¬ Deceives changes t.log := by
  cases h with
  | pass ends =>
    obtain ⟨c, m, _, _, books, _, reconciles⟩ := ends.reconciles accounts
    exact reconciles.truth_iff truth books
  | edit => exact iff_of_true truth Removes.nil.not_deceives

/-- What holds in all scenes of a run holds in the last one and in those before. -/
theorem forall_scenes_cons {P : Scene → List Scene → Prop} {scenes : List Scene} :
    (∀ t past, (t :: past) <:+ s :: scenes → P t past) ↔
      P s scenes ∧ ∀ t past, (t :: past) <:+ scenes → P t past := by
  constructor
  · intro all
    exact ⟨all s scenes (List.suffix_refl _),
      fun t past suffix => all t past (suffix.trans (List.suffix_cons s scenes))⟩
  · rintro ⟨last, before⟩ t past suffix
    obtain eq | suffix := List.suffix_cons_iff.mp suffix
    · cases eq
      exact last
    · exact before t past suffix

/-- **In all scenes of a run the snapshot tells the truth if and only if no pass of the run has lost
the snapshot of an instance that it has put where the snapshot shows one, none has taken a snapshot
of an instance that it has found and that has been inserted for something else, and none has taken a
snapshot of its own instance that reads as something else.** -/
theorem Run.truthful_iff {scenes : List Scene} (h : w.Run fails scenes) :
    (∀ s past, (s :: past) <:+ scenes → w.Truthful s past) ↔
      ∀ s past, (s :: past) <:+ scenes → ¬ Deceives (changesOf past) s.log := by
  induction h with
  | @start s fresh =>
    have run : w.Run fails [s] := .start fresh
    have before {P : Scene → List Scene → Prop} : ∀ t past, (t :: past) <:+ [] → P t past :=
      fun t past suffix => absurd (List.suffix_nil.mp suffix) (List.cons_ne_nil t past)
    refine iff_of_true (forall_scenes_cons.mpr ⟨?_, before⟩) (forall_scenes_cons.mpr ⟨?_, before⟩)
    · rw [truthful_iff_truth run.accounts, changesOf, List.flatMap_singleton, fresh.log]
      rintro current spec m i ⟨⟨_, taken, _⟩, _⟩
      cases taken
    · rw [fresh.log]
      exact Removes.nil.not_deceives
  | @next s t past run step ih =>
    have run' : w.Run fails (t :: s :: past) := .next run step
    have last (truthful : w.Truthful s past) :
        w.Truthful t (s :: past) ↔ ¬ Deceives (changesOf (s :: past)) t.log :=
      (truthful_iff_truth run'.accounts).trans
        (step.truth_iff run.accounts ((truthful_iff_truth run.accounts).mp truthful))
    refine forall_scenes_cons.trans (Iff.trans ?_ forall_scenes_cons.symm)
    rw [← ih]
    exact and_congr_left fun before => last (before s past (List.suffix_refl _))

/-- The snapshot of a worker that has been made and recorded tells the truth. -/
theorem Run.truthful_of_worker : ∃ w s t m record made, Run w False [t, s] ∧
    t.log = [.recorded m record, .inserted "zone-a" m made] ∧
    ∀ u past, (u :: past) <:+ [t, s] → w.Truthful u past := by
  let w := Setting.ofWorkers "project" ⟨"10.0.0.1", 443⟩ "image" "1.9.4" "default" "worker"
  let m := Machine.worker "default" "worker" "zone-a" "small" "1.9.4"
  have plain : m.IsPlain := Machine.isPlain_worker ..
  have fresh : w.Fresh (.holding m) := fresh_holding (Machine.isNamed_worker ..) plain.isNormal rfl
  obtain ⟨t, made, ends, _, log⟩ := created_ofWorkers "project" ⟨"10.0.0.1", 443⟩ "image" "default"
    "worker" "zone-a" "small" "1.9.4" (by decide) (by decide) (by decide) (by decide)
  have run : w.Run False [t, .holding m] := .next (.start fresh) (.pass ends)
  refine ⟨w, .holding m, t, m, _, made, run, log, run.truthful_iff.mpr ?_⟩
  refine forall_scenes_cons.mpr ⟨?_, forall_scenes_cons.mpr ⟨Removes.nil.not_deceives, ?_⟩⟩
  · rw [log]
    exact not_deceives_of_created plain
  · exact fun u past suffix => absurd (List.suffix_nil.mp suffix) (List.cons_ne_nil u past)

/-! ## A lost snapshot, and an edit -/

/-- **A pass over a record without a snapshot takes an instance for its own**, whatever it has been
inserted for. No call of the pass fails. -/
theorem Run.not_truthful_of_found {m other : Machine} {spec : MachineProviderSpec} {i : Instance}
    {r : Option Outcome} (run : w.Run fails (s :: past)) (found : w.record s = some m)
    (lasting : m.isTerminating = false) (blank : m.snapshot? = .ok none) (plain : m.IsPlain)
    (can : ∀ c, w.clusters c → w.provisions.IsBuildable w.system c m spec)
    (stands : standing spec.zone (changesOf (s :: past)) = some (other, i))
    (unlike : ¬ m.AsksLike other) (ends : w.PassEnds False s r t) :
    ¬ w.Truthful t (s :: past) := by
  have run' : w.Run fails (t :: s :: past) := .next run (.pass (ends.mono False.elim))
  obtain ⟨c, m', own, found', _, _, reconciles⟩ := ends.reconciles run.accounts
  cases found.symm.trans found'
  have there : s.memory.getInstance spec.zone w.name ≠ none := by
    rw [run.accounts.instances, stands]
    exact Option.some_ne_none _
  obtain ⟨_, log⟩ := (reconciles.creates_of_blank lasting blank).found_of_present (can c own) there
  rw [truthful_iff_truth run'.accounts, changesOf, List.flatMap_cons, log]
  intro truth
  have shows : Shows ([.recorded m (Pass.recordOf m m)] ++ changesOf (s :: past)) m.blanked spec :=
    ⟨⟨m, rfl, Snapshot.decode_encode plain⟩, (can c own).machine⟩
  obtain ⟨alike, versions⟩ := truth _ _ other i shows stands
  exact unlike ⟨alike, versions⟩

/-- **A snapshot that lies.** The first pass over a machine makes its instance, but fails to record
it; the record is edited, so that it asks for something else in the same zone; the second pass
finds the instance of the first. -/
theorem Fresh.may_deceive (fresh : w.Fresh s) {m m' : Machine} (found : w.record s = some m)
    {c : Cluster} (own : w.clusters c) {spec spec' : MachineProviderSpec}
    (lasting : m.isTerminating = false)
    (can : w.provisions.IsBuildable w.system c m spec) (edit : m.IsEdit m')
    (lasting' : m'.isTerminating = false) (plain : m'.IsPlain)
    (can' : ∀ c, w.clusters c → w.provisions.IsBuildable w.system c m' spec')
    (zone : spec'.zone = spec.zone) (unlike : ¬ m'.AsksLike m) :
    ∃ t v, w.Run True [v, w.edited t m', t, s] ∧ ¬ w.Truthful v [w.edited t m', t, s] := by
  obtain ⟨t, made, first, _, log, found_t⟩ := fresh.may_lose found lasting own can
  have run : w.Run True [w.edited t m', t, s] :=
    .next (.next (.start fresh) (.pass first)) (.edit found_t edit)
  have found_u := w.record_edited t m'
  obtain ⟨r, v, second⟩ := exists_passEnds (w := w) False own default found_u
  refine ⟨t, v, .next run (.pass (second.mono False.elim)), ?_⟩
  have blank : m'.snapshot? = .ok none := by
    obtain ⟨_, found', _, _, blank⟩ := fresh.record
    cases found.symm.trans found'
    rw [Machine.snapshot?_eq_none_iff, edit.snapshot]
    exact Machine.snapshot?_eq_none_iff.mp blank
  have stands : standing spec'.zone (changesOf [w.edited t m', t, s]) = some (m, made) := by
    rw [changesOf, List.flatMap_cons, List.flatMap_cons, log]
    exact if_pos zone
  exact run.not_truthful_of_found found_u lasting' blank plain can' stands unlike second

/-- A snapshot shows a large worker where a small one has been made. -/
theorem Run.deceived_by_worker :
    let w := Setting.ofWorkers "project" ⟨"10.0.0.1", 443⟩ "image" "1.9.4" "default" "worker"
    let small := Machine.worker "default" "worker" "zone-a" "small" "1.9.4"
    let large := Machine.worker "default" "worker" "zone-a" "large" "1.9.4"
    ∃ t v, w.Run True [v, w.edited t large, t, .holding small] ∧
      ¬ w.Truthful v [w.edited t large, t, .holding small] := by
  intro w small large
  have can {kind : String} (given : kind ≠ "") (c : Cluster) (own : w.clusters c) :=
    isBuildable_ofWorkers (show "project" ≠ "" by decide) (show "zone-a" ≠ "" by decide) given
      (by decide) _ _ _ _ own
  have named : small.IsNamed w.space w.name := Machine.isNamed_worker ..
  have plain : small.IsPlain := Machine.isPlain_worker ..
  have plain' : large.IsPlain := Machine.isPlain_worker ..
  have unlike : ¬ large.AsksLike small := by
    rintro ⟨alike, _⟩
    exact absurd alike (by decide)
  exact (fresh_holding named plain.isNormal rfl).may_deceive (record_holding named) rfl rfl
    (can (by decide) _ rfl) ⟨rfl, rfl, rfl, plain'.isNormal⟩ rfl plain' (can (by decide)) rfl unlike

end Setting

end NodeProvisioner
