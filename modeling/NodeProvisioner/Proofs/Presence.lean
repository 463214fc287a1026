import NodeProvisioner.Proofs.Runs.Workers

/-!
# Whether an unchanged machine is there

A pass that finds a machine unchanged has compared the record with its snapshot; it has not asked
whether the instance is there. Where calls may fail this need not be so: a pass that makes an
instance anew deletes the old one first, and may stop before the new one is inserted. When the
record is edited back to what the snapshot shows, there is nothing to be done any more.

This is the only way in which the instance of an unchanged machine comes to be missing.

Main statement: `Run.unchanged_iff`.
-/

namespace NodeProvisioner

/-- Since the last snapshot was taken, the instance in the zone has been deleted, and none has been
inserted in its place. -/
def Vacated (zone : String) : List Change → Prop
  | [] => False
  | .recorded .. :: _ => False
  | .inserted z .. :: rest => zone ≠ z ∧ Vacated zone rest
  | .deleted z _ :: rest => zone = z ∨ Vacated zone rest

/-- Where the last snapshot shows an instance, there is one, unless it has been deleted since. -/
def Filed (changes : List Change) : Prop :=
  ∀ last, lastRecorded changes = some last → ∃ spec,
    MachineProviderSpec.ofMachine last = .ok spec ∧
      (standing spec.zone changes ≠ none ∨ Vacated spec.zone changes)

/-! ## Changes -/

section

variable {zone name : String} {changes : List Change} {m record : Machine} {made : Instance}

/-- Where an instance has been deleted, none stands. -/
theorem Vacated.standing_eq_none (h : Vacated zone changes) : standing zone changes = none := by
  induction changes with
  | nil => exact h.elim
  | cons change rest ih =>
    cases change with
    | inserted z m made => exact (if_neg h.1).trans (ih h.2)
    | deleted z name =>
      rw [standing]
      split
      · rfl
      · exact ih (h.resolve_left ‹_›)
    | recorded m written => exact h.elim

theorem Filed.inserted (h : Filed changes) : Filed (.inserted zone m made :: changes) := by
  intro last taken
  obtain ⟨spec, asked, there⟩ := h last taken
  refine ⟨spec, asked, ?_⟩
  rw [standing, Vacated]
  split
  · exact .inl (Option.some_ne_none _)
  · exact there.imp_right fun vacated => ⟨‹_›, vacated⟩

theorem Filed.deleted (h : Filed changes) : Filed (.deleted zone name :: changes) := by
  intro last taken
  obtain ⟨spec, asked, there⟩ := h last taken
  refine ⟨spec, asked, ?_⟩
  rw [standing, Vacated]
  split
  · exact .inr (.inl ‹_›)
  · exact there.imp_right .inr

theorem Filed.recorded {spec : MachineProviderSpec}
    (asked : MachineProviderSpec.ofMachine m = .ok spec)
    (there : standing spec.zone changes ≠ none) : Filed (.recorded m record :: changes) := by
  intro last taken
  cases taken
  exact ⟨spec, asked, .inl there⟩

end

/-! ## A pass -/

section

variable {fails : Prop} {w : Setting} {c : Cluster} {m : Machine} {memory : Memory}
  {past new : List Change} {r : Option Outcome}

theorem Deletes.filed {current : Machine} (filed : Filed past)
    (h : Deletes fails c current memory new r) : Filed (new ++ past) := by
  cases h with
  | stopped => exact filed
  | absent => exact filed
  | deleted => exact filed.deleted

theorem Creates.filed (accounts : Accounts w past memory) (filed : Filed past)
    (h : Creates fails w.system w.provisions c m m w.name memory new r) : Filed (new ++ past) := by
  cases h with
  | stopped => exact filed
  | found asked there =>
    refine Filed.recorded asked ?_
    intro none
    have absent : standing _ past = .none := none
    rw [accounts.instances, absent] at there
    cases there
  | unrecorded => exact filed.inserted
  | created asked =>
    refine Filed.recorded asked (ne_of_eq_of_ne (if_pos rfl) (Option.some_ne_none _))

theorem Reconciles.filed (accounts : Accounts w past memory) (books : Books w past m)
    (filed : Filed past) (h : Reconciles fails w.system w.provisions c m w.name memory new r) :
    Filed (new ++ past) := by
  cases h with
  | terminated _ deletes => exact deletes.filed filed
  | unreadable => exact filed
  | created _ _ creates => exact creates.filed accounts filed
  | unchanged => exact filed
  | refused => exact filed
  | kept _ _ _ _ deletes => exact deletes.filed filed
  | replaced _ shown _ _ deletes creates =>
    have own := deletes.isOf (w := w) (m := m) (books.called shown)
    rw [List.append_assoc]
    exact creates.filed (accounts.applyAll books.named books.normal own) (deletes.filed filed)

end

/-! ## A run -/

namespace Setting

variable {w : Setting} {fails : Prop} {s t : Scene} {past : List Scene} {m : Machine}

theorem Step.filed {changes : List Change} (h : w.Step fails s t)
    (accounts : Accounts w changes s.memory) (filed : Filed changes) :
    Filed (t.log ++ changes) := by
  cases h with
  | pass ends =>
    obtain ⟨_, _, _, _, books, _, reconciles⟩ := ends.reconciles accounts
    exact reconciles.filed accounts books filed
  | edit => exact filed

theorem Run.filed (h : w.Run fails (s :: past)) : Filed (changesOf (s :: past)) :=
  h.invariant (fun _ taken => nomatch taken) fun step accounts filed => step.filed accounts filed

/-- **When a pass finds a machine unchanged, there is an instance in its zone if and only if none
has been deleted there, without another in its place, since the last snapshot was taken.** -/
theorem Run.unchanged_iff (h : w.Run fails (s :: past)) (found : w.record s = some m)
    (lasting : m.isTerminating = false) (ends : w.PassEnds fails s (some .unchanged) t) :
    ∃ spec, MachineProviderSpec.ofMachine m = .ok spec ∧
      (w.instanceIn t spec.zone ≠ none ↔ ¬ Vacated spec.zone (changesOf (s :: past))) := by
  have accounts := h.accounts
  obtain ⟨c, m', _, found', books, memory, reconciles⟩ := ends.reconciles accounts
  cases found.symm.trans found'
  obtain ⟨current, shown, same, log⟩ := reconciles.of_unchanged lasting
  obtain ⟨last, taken, read, _⟩ := books.name_of_shown shown
  obtain ⟨spec, asked, there⟩ := h.filed last taken
  -- the machine does not differ from what the last snapshot shows, so it asks for the same zone
  have shows := Snapshot.ofMachine_of_decode (books.kept last taken).2.2 read asked
  refine ⟨spec, Machine.ofMachine_of_not_differs same shows, ?_⟩
  rw [log] at memory
  rw [instanceIn, memory, List.foldr_nil, accounts.instances, ne_eq, Option.map_eq_none_iff]
  constructor
  · exact fun stands vacated => stands vacated.standing_eq_none
  · exact there.resolve_right

/-- A worker that has been made and recorded is there when it is found unchanged. -/
theorem Run.unchanged_of_worker : ∃ w s past t, Run w False (s :: past) ∧
    w.PassEnds False s (some .unchanged) t ∧ w.instanceIn t "zone-a" ≠ none := by
  let w := Setting.ofWorkers "project" ⟨"10.0.0.1", 443⟩ "image" "1.9.4" "default" "worker"
  let m := Machine.worker "default" "worker" "zone-a" "small" "1.9.4"
  have plain : m.IsPlain := Machine.isPlain_worker ..
  have named : m.IsNamed w.space w.name := Machine.isNamed_worker ..
  have fresh : w.Fresh (.holding m) := fresh_holding named plain.isNormal rfl
  obtain ⟨s, made, first, found, log⟩ := created_ofWorkers "project" ⟨"10.0.0.1", 443⟩ "image"
    "default" "worker" "zone-a" "small" "1.9.4" (by decide) (by decide) (by decide) (by decide)
  have run : w.Run False [s, .holding m] := .next (.start fresh) (.pass first)
  obtain ⟨r, t, ends⟩ := exists_passEnds (w := w) False rfl default found
  obtain ⟨rfl, _⟩ := ends.unchanged_of_same found ⟨named.space, named.name⟩ rfl
    (Pass.snapshot?_recordOf plain m) (plain.differs_blanked rfl rfl)
  obtain ⟨spec, asked, there⟩ := run.unchanged_iff found rfl ends
  have asked' := Machine.ofMachine_worker "default" "worker" "zone-a" "small" "1.9.4" (by decide)
    (by decide)
  cases Except.ok.inj (asked.symm.trans asked')
  refine ⟨w, s, _, t, run, ends, there.mpr ?_⟩
  rw [changesOf, List.flatMap_cons, log]
  exact id

/-! ## A replacement that stops, and an edit -/

/-- **An unchanged machine that is missing.** An instance is made and recorded; the record is
edited; the pass that is to make the instance anew deletes it and stops; and the record is edited
back to what it was. -/
theorem Fresh.may_miss (fresh : w.Fresh s) (found : w.record s = some m)
    (lasting : m.isTerminating = false) (plain : m.IsPlain) {c : Cluster} (own : w.clusters c)
    {spec spec' : MachineProviderSpec} (worker : spec.isMaster = false)
    (can : ∀ c, w.clusters c → w.provisions.IsBuildable w.system c m spec) {m' : Machine}
    (edit : (Pass.recordOf m m).IsEdit m') (lasting' : m'.isTerminating = false)
    (can' : w.provisions.IsBuildable w.system c m' spec') (other : m.blanked.differs m' = true) :
    let recorded := Pass.recordOf m m
    ∃ t v u, w.Run True [w.edited v recorded, v, w.edited t m', t, s] ∧
      w.PassEnds False (w.edited v recorded) (some .unchanged) u ∧
      w.instanceIn u spec.zone = none := by
  intro recorded
  obtain ⟨_, found', named, normal, _⟩ := fresh.record
  cases found.symm.trans found'
  -- the instance is made, and the record is edited
  obtain ⟨_, t, first⟩ := exists_passEnds (w := w) False own default found
  obtain ⟨rfl, found_t, made, log_t⟩ := fresh.created found lasting can first
  have run : w.Run True [w.edited t m', t, s] :=
    .next (.next (.start fresh) (.pass (first.mono False.elim))) (.edit found_t edit)
  have there : w.instanceIn (w.edited t m') spec.zone ≠ none := by
    have stands : standing spec.zone (changesOf [w.edited t m', t, s]) = some (m, made) := by
      rw [changesOf, List.flatMap_cons, List.flatMap_cons, log_t]
      exact if_pos rfl
    rw [instanceIn, run.accounts.instances, stands]
    exact Option.some_ne_none _
  -- the instance is deleted, and the record is edited back
  have shown : m'.snapshot? = .ok (some m.blanked) :=
    (Machine.snapshot?_eq_some_iff (edit.snapshot.trans
      (Machine.annotation?_withSnapshot m m))).mpr (Snapshot.decode_encode plain)
  obtain ⟨v, second, log_v, found_v⟩ := may_stop_replacing (w.record_edited t m') lasting' own can'
    shown named.nameOrStem (can c own).machine worker other there
  have back : m'.IsEdit recorded :=
    ⟨edit.space.symm, edit.name.symm, edit.snapshot.symm, normal⟩
  have run' : w.Run True [w.edited v recorded, v, w.edited t m', t, s] :=
    .next (.next run (.pass second)) (.edit found_v back)
  -- the record does not differ from the snapshot of the instance that was made first
  have found_x := w.record_edited v recorded
  obtain ⟨_, u, third⟩ := exists_passEnds (w := w) False own default found_x
  obtain ⟨rfl, _, memory⟩ := third.unchanged_of_same found_x ⟨named.space, named.name⟩ lasting
    (Pass.snapshot?_recordOf plain m) (plain.differs_blanked rfl rfl)
  refine ⟨t, v, u, run', third, ?_⟩
  rw [instanceIn, memory, run'.accounts.instances, changesOf, List.flatMap_cons,
    List.flatMap_cons, log_v]
  exact congrArg (Option.map Prod.snd) (if_pos rfl)

/-- A worker is found unchanged, and there is none. -/
theorem Run.unchanged_without_worker :
    let w := Setting.ofWorkers "project" ⟨"10.0.0.1", 443⟩ "image" "1.9.4" "default" "worker"
    let small := Machine.worker "default" "worker" "zone-a" "small" "1.9.4"
    let large := Machine.worker "default" "worker" "zone-a" "large" "1.9.4"
    let recorded := Pass.recordOf small small
    ∃ t v u, w.Run True [w.edited v recorded, v, w.edited t { recorded with spec := large.spec }, t,
        .holding small] ∧
      w.PassEnds False (w.edited v recorded) (some .unchanged) u ∧
      w.instanceIn u "zone-a" = none := by
  intro w small large recorded
  have can {kind : String} (given : kind ≠ "") (c : Cluster) (own : w.clusters c) :=
    isBuildable_ofWorkers (show "project" ≠ "" by decide) (show "zone-a" ≠ "" by decide) given
      (by decide) _ _ _ _ own
  have named : small.IsNamed w.space w.name := Machine.isNamed_worker ..
  have plain : small.IsPlain := Machine.isPlain_worker ..
  have plain' : large.IsPlain := Machine.isPlain_worker ..
  have able := can (show "large" ≠ "" by decide) _ rfl
  exact (fresh_holding named plain.isNormal rfl).may_miss (record_holding named) rfl plain
    rfl rfl (can (by decide)) ⟨rfl, rfl, rfl, plain'.isNormal⟩ rfl
    (able.of_same able.machine rfl rfl) (by decide)

end Setting

end NodeProvisioner
