import NodeProvisioner.Proofs.Runs.Histories

/-!
# Courses of a pass

A pass always comes to an end. Where no call fails, a pass over a buildable machine takes the course
that its snapshot and the instance there call for. Where calls may fail, a pass may also stop
between any two of its changes.
-/

namespace NodeProvisioner

/-- Fewer calls fail if calls may not fail. -/
theorem Answers.mono {fails fails' : Prop} (le : fails → fails') {m : Machine} {c : Call}
    {s t : Scene} {answer : c.Answer} (h : Answers fails m c s answer t) :
    Answers fails' m c s answer t := by
  have told {ε α : Type} {truth : α} {answer : Except ε α} (h : Tells fails truth answer) :
      Tells fails' truth answer := h.imp_right (And.imp_left le)
  have changed {change : Change} {possible : Prop} {answer : Except ComputeError Operation}
      (h : Changes fails s change possible answer t) : Changes fails' s change possible answer t :=
    h.imp (And.imp_right (And.imp_right (Or.imp_right le))) (And.imp_left (Or.imp_right le))
  cases c with
  | getInstance => exact h.imp_right told
  | insertInstance => exact changed h
  | deleteInstance => exact changed h
  | pollOperation => exact h.imp_right (And.imp_right fun h not => (h not).imp_left le)
  | createToken => exact h.imp_right (Or.imp_left le)
  | readRecord => exact h.imp_right told
  | writeRecord record =>
    simp only [Answers] at h ⊢
    split at h
    · exact h.imp (And.imp_right told) (And.imp_left le)
    · exact h
  | pause => exact h

namespace Setting

variable {w : Setting} {fails : Prop} {s : Scene} {m : Machine}

/-- **A pass comes to an end.** -/
theorem exists_passEnds (fails : Prop) {c : Cluster} (own : w.clusters c) (o : Occasion)
    (found : w.record s = some m) : ∃ r t, w.PassEnds fails s r t := by
  obtain ⟨result, t, ends⟩ := Program.exists_ends (answers_total fails m)
    (w.provisions.reconcile w.system o c m).run { s with log := [] }
  exact ⟨_, t, o, c, m, own, found, result, ends, rfl⟩

theorem PassEnds.mono {fails fails' : Prop} (le : fails → fails') {r : Option Outcome} {t : Scene}
    (h : w.PassEnds fails s r t) : w.PassEnds fails' s r t := by
  obtain ⟨o, c, m, own, found, result, ends, eq⟩ := h
  exact ⟨o, c, m, own, found, result, ends.mono fun _ _ _ _ rule => rule.mono le, eq⟩

end Setting

/-! ## Where no call fails -/

section

variable {S : SignatureSystem} {p : Provisions} {c : Cluster} {m stored : Machine} {name : String}
  {memory : Memory} {changes : List Change} {r : Option Outcome} {spec : MachineProviderSpec}

/-- An instance of a buildable machine is made where there is none. -/
theorem Creates.created_of_absent (h : Creates False S p c m stored name memory changes r)
    (can : p.IsBuildable S c m spec) (absent : memory.getInstance spec.zone name = none) :
    r = some .created ∧ ∃ made, p.Makes S c m made ∧
      changes = [.recorded m (Pass.recordOf stored m), .inserted spec.zone m made] := by
  cases h with
  | stopped why => exact absurd ⟨spec, can⟩ (why.resolve_left id)
  | found asked there =>
    cases asked.symm.trans can.machine
    rw [absent] at there
    cases there
  | unrecorded _ _ _ may => exact may.elim
  | created asked _ makes ends =>
    cases asked.symm.trans can.machine
    exact ⟨ends.resolve_right And.right, _, makes, rfl⟩

/-- An instance that is there is recorded. -/
theorem Creates.found_of_present (h : Creates False S p c m stored name memory changes r)
    (can : p.IsBuildable S c m spec) (there : memory.getInstance spec.zone name ≠ none) :
    r = some .alreadyExists ∧ changes = [.recorded m (Pass.recordOf stored m)] := by
  cases h with
  | stopped why => exact absurd ⟨spec, can⟩ (why.resolve_left id)
  | found asked _ ends => exact ⟨ends.resolve_right And.right, rfl⟩
  | unrecorded _ _ _ may => exact may.elim
  | created asked absent =>
    cases asked.symm.trans can.machine
    exact absurd absent there

theorem Creates.ends_well (h : Creates False S p c m stored name memory changes r)
    (can : p.IsBuildable S c m spec) : ∃ outcome, r = some outcome := by
  cases there : memory.getInstance spec.zone name with
  | none => exact ⟨_, (h.created_of_absent can there).1⟩
  | some i =>
    refine ⟨_, (h.found_of_present can ?_).1⟩
    rw [there]
    exact nofun

theorem Deletes.ends_well (h : Deletes False c m memory changes r)
    {k : ClusterProviderSpec} (cluster : ClusterProviderSpec.ofCluster c = .ok k)
    (asked : MachineProviderSpec.ofMachine m = .ok spec) : ∃ outcome, r = some outcome := by
  cases h with
  | stopped why => exact absurd (Site.exists_of cluster asked) (why.resolve_left id)
  | absent => exact ⟨_, rfl⟩
  | deleted _ _ ends => exact ⟨_, ends.resolve_right And.right⟩

theorem Deletes.deleted_of_present (h : Deletes False c m memory changes r)
    {k : ClusterProviderSpec} (cluster : ClusterProviderSpec.ofCluster c = .ok k)
    (asked : MachineProviderSpec.ofMachine m = .ok spec)
    (there : memory.getInstance spec.zone m.metadata.nameOrStem ≠ none) :
    r = some .deleted ∧ changes = [.deleted spec.zone m.metadata.nameOrStem] := by
  cases h with
  | stopped why => exact absurd (Site.exists_of cluster asked) (why.resolve_left id)
  | absent asked' absent =>
    cases asked.symm.trans asked'
    exact absurd absent there
  | deleted asked' _ ends =>
    cases asked.symm.trans asked'
    exact ⟨ends.resolve_right And.right, rfl⟩

end

/-! ## Where calls may fail -/

section

variable {S : SignatureSystem} {p : Provisions} {o : Occasion} {c : Cluster}
  {m observed : Machine} {ns name : String} {s : Scene} {spec : MachineProviderSpec}

theorem Pass.record_may_fail : (Pass.record m).Ends (Answers True observed) s none s :=
  Pass.ends_bind.mpr (.inr ⟨rfl, _, Program.ends_perform.mpr
    ⟨.error (.conflict "" ""), ⟨rfl, .inr ⟨trivial, _, rfl⟩⟩, rfl⟩, rfl⟩)

theorem Site.find_may_fail {site : Site} : site.find.Ends (Answers True observed) s none s :=
  Pass.ends_provider.mpr ⟨_, Program.ends_perform.mpr
    ⟨.error (.transport ""), ⟨rfl, .inr ⟨trivial, _, rfl⟩⟩, rfl⟩, rfl⟩

/-- Creating may stop before it has changed anything. -/
theorem Provisions.create_may_stop : (p.create S o c m).Ends (Answers True observed) s none s := by
  refine Pass.ends_ofExcept_bind.mpr ?_
  cases sited : Site.of c m with
  | error e => exact .inr ⟨⟨e, rfl⟩, rfl, rfl⟩
  | ok site =>
    refine .inl ⟨site, rfl, Pass.ends_bind.mpr (.inr ⟨rfl, ?_⟩)⟩
    exact Pass.ends_bind.mpr (.inr ⟨rfl, Site.find_may_fail⟩)

/-- Creating may stop after an instance has been inserted. -/
theorem Provisions.create_may_lose (named : m.IsNamed ns name) (can : p.IsBuildable S c m spec)
    (absent : s.memory.getInstance spec.zone name = none) : ∃ made t, p.Makes S c m made ∧
      s.Leads [.inserted spec.zone m made] t ∧
      (p.create S o c m).Ends (Answers True m) s none t := by
  obtain ⟨k, cluster⟩ := can.cluster
  obtain ⟨site, sited⟩ := Site.exists_of cluster can.machine
  obtain ⟨asked, _⟩ := Site.ofMachine_of_ok sited
  cases asked.symm.trans can.machine
  -- an end of the first part in which no call fails is an end where calls may fail
  obtain ⟨result, t, ends⟩ := Program.exists_ends (answers_total False m)
    (p.ensure S o c m site).run s
  obtain ⟨_, _, why⟩ | ⟨_, _, i, there⟩ | ⟨made, lead, _, makes, done⟩ :=
    p.ensure_ends named sited ⟨result, ends, rfl⟩
  · exact absurd can (why.resolve_left id)
  · rw [absent] at there
    cases there
  · refine ⟨made, t, makes, lead, ?_⟩
    refine Pass.ends_ofExcept_bind.mpr (.inl ⟨site, sited, ?_⟩)
    refine Pass.ends_bind.mpr (.inl ⟨.created, t, ?_, ?_⟩)
    · exact ⟨result, ends.mono fun _ _ _ _ rule => rule.mono False.elim,
        (done.resolve_right And.right).symm⟩
    · exact Pass.ends_bind.mpr (.inr ⟨rfl, Pass.record_may_fail⟩)

/-- A worker may be replaced by what a setup fits. -/
theorem Provisions.checkReplaceable_ok {current : Machine} {old : MachineProviderSpec}
    (asked : MachineProviderSpec.ofMachine current = .ok old) (worker : old.isMaster = false)
    (can : p.IsBuildable S c m spec) : p.checkReplaceable current m = .ok () := by
  obtain ⟨setup, fits⟩ := can.setup
  simp only [checkReplaceable, asked, worker, can.machine, fits, bind, Except.bind]
  rfl

/-- Replacing may stop after the old instance has been deleted. -/
theorem Provisions.replace_may_stop {current : Machine} {old : MachineProviderSpec}
    (asked : MachineProviderSpec.ofMachine current = .ok old) (worker : old.isMaster = false)
    (can : p.IsBuildable S c m spec) (other : current.differs m = true)
    (there : s.memory.getInstance old.zone current.metadata.nameOrStem ≠ none) :
    ∃ t, s.Leads [.deleted old.zone current.metadata.nameOrStem] t ∧
      (p.replace S o c current m).Ends (Answers True m) s none t := by
  obtain ⟨k, cluster⟩ := can.cluster
  obtain ⟨result, t, ends⟩ := Program.exists_ends (answers_total False m)
    (p.delete c current).run s
  obtain ⟨changes, lead, deletes⟩ := p.delete_ends ⟨result, ends, rfl⟩
  obtain ⟨done, rfl⟩ := deletes.deleted_of_present cluster asked there
  refine ⟨t, lead, ?_⟩
  have checked := p.checkReplaceable_ok asked worker can
  unfold Provisions.replace
  rw [other]
  refine Pass.ends_ofExcept_bind.mpr (.inl ⟨(), checked, ?_⟩)
  refine Pass.ends_bind.mpr (.inl ⟨.deleted, t, ?_, ?_⟩)
  · exact ⟨result, ends.mono fun _ _ _ _ rule => rule.mono False.elim, done.symm⟩
  · exact Pass.ends_bind.mpr (.inr ⟨rfl, p.create_may_stop⟩)

section

variable {rules : Program.Rules Call.Answer Scene} {r : Option Outcome} {t : Scene}

theorem Provisions.reconcile_of_blank (lasting : m.isTerminating = false)
    (shown : m.snapshot? = .ok none) (h : (p.create S o c m).Ends rules s r t) :
    (p.reconcile S o c m).Ends rules s r t := by
  unfold Provisions.reconcile
  rw [lasting]
  exact Pass.ends_ofExcept_bind.mpr (.inl ⟨none, shown, h⟩)

theorem Provisions.reconcile_of_shown (lasting : m.isTerminating = false) {current : Machine}
    (shown : m.snapshot? = .ok (some current)) (h : (p.replace S o c current m).Ends rules s r t) :
    (p.reconcile S o c m).Ends rules s r t := by
  unfold Provisions.reconcile
  rw [lasting]
  refine Pass.ends_ofExcept_bind.mpr (.inl ⟨some current, shown, ?_⟩)
  exact Pass.ends_ofExcept_bind.mpr (.inl ⟨some current, shown, h⟩)

end

end

/-! ## What the snapshot calls for -/

section

variable {fails : Prop} {S : SignatureSystem} {p : Provisions} {c : Cluster} {m current : Machine}
  {name : String} {memory : Memory} {changes : List Change} {r : Option Outcome}

/-- A pass over a machine of which no snapshot has been taken creates its instance. -/
theorem Reconciles.creates_of_blank (h : Reconciles fails S p c m name memory changes r)
    (lasting : m.isTerminating = false) (blank : m.snapshot? = .ok none) :
    Creates fails S p c m m name memory changes r := by
  have no {current : Machine} (shown : m.snapshot? = .ok (some current)) : False := by
    rw [blank] at shown
    cases shown
  cases h with
  | terminated ending =>
    rw [lasting] at ending
    cases ending
  | unreadable _ shown =>
    rw [blank] at shown
    cases shown
  | created _ _ creates => exact creates
  | unchanged _ shown => exact (no shown).elim
  | refused _ shown => exact (no shown).elim
  | kept _ shown => exact (no shown).elim
  | replaced _ shown => exact (no shown).elim

/-- A pass over a machine whose snapshot cannot be read changes nothing. -/
theorem Reconciles.stops_of_unreadable (h : Reconciles fails S p c m name memory changes r)
    (lasting : m.isTerminating = false) {e : Error} (unreadable : m.snapshot? = .error e) :
    changes = [] ∧ r = none := by
  have no {shown : Option Machine} (shown_eq : m.snapshot? = .ok shown) : False := by
    rw [unreadable] at shown_eq
    cases shown_eq
  cases h with
  | terminated ending =>
    rw [lasting] at ending
    cases ending
  | unreadable => exact ⟨rfl, rfl⟩
  | created _ shown => exact (no shown).elim
  | unchanged _ shown => exact (no shown).elim
  | refused _ shown => exact (no shown).elim
  | kept _ shown => exact (no shown).elim
  | replaced _ shown => exact (no shown).elim

/-- Where there is no instance, and none can be made, a pass over a machine of which no snapshot has
been taken changes nothing. -/
theorem Reconciles.stops_of_unmade (h : Reconciles fails S p c m name memory changes r)
    (lasting : m.isTerminating = false) (blank : m.snapshot? = .ok none)
    (absent : ∀ zone, memory.getInstance zone name = none) (never : ∀ made, ¬ p.Makes S c m made) :
    changes = [] ∧ r = none := by
  cases h.creates_of_blank lasting blank with
  | stopped => exact ⟨rfl, rfl⟩
  | found _ there => cases (absent _).symm.trans there
  | unrecorded _ _ makes => exact absurd makes (never _)
  | created _ _ makes => exact absurd makes (never _)

/-- What a pass over a machine with a snapshot may do: the snapshot is what it goes by. -/
theorem Reconciles.of_shown (h : Reconciles fails S p c m name memory changes r)
    (lasting : m.isTerminating = false) (shown : m.snapshot? = .ok (some current)) :
    (current.differs m = false ∧ changes = [] ∧ r = some .unchanged) ∨
    (current.differs m = true ∧
      ((∃ e, p.checkReplaceable current m = .error e) ∧ changes = [] ∧ r = none ∨
      Deletes fails c current memory changes none ∧ r = none ∨
      ∃ first second outcome r', Deletes fails c current memory first (some outcome) ∧
        Creates fails S p c m m name (first.foldr Change.apply memory) second r' ∧
        changes = second ++ first ∧ r = r'.map fun _ => .recreated)) := by
  have only {other : Machine} (shown' : m.snapshot? = .ok (some other)) : other = current :=
    Option.some.inj (Except.ok.inj (shown'.symm.trans shown))
  cases h with
  | terminated ending =>
    rw [lasting] at ending
    cases ending
  | unreadable _ shown' =>
    rw [shown] at shown'
    cases shown'
  | created _ shown' =>
    rw [shown] at shown'
    cases shown'
  | unchanged _ shown' same =>
    obtain rfl := only shown'
    exact .inl ⟨same, rfl, rfl⟩
  | refused _ shown' other refused =>
    obtain rfl := only shown'
    exact .inr ⟨other, .inl ⟨⟨_, refused⟩, rfl, rfl⟩⟩
  | kept _ shown' other _ deletes =>
    obtain rfl := only shown'
    exact .inr ⟨other, .inr (.inl ⟨deletes, rfl⟩)⟩
  | replaced _ shown' other _ deletes creates =>
    obtain rfl := only shown'
    exact .inr ⟨other, .inr (.inr ⟨_, _, _, _, deletes, creates, rfl, rfl⟩)⟩

/-- A machine that is found unchanged does not differ from what its snapshot shows. -/
theorem Reconciles.of_unchanged (lasting : m.isTerminating = false)
    (h : Reconciles fails S p c m name memory changes (some .unchanged)) :
    ∃ current, m.snapshot? = .ok (some current) ∧ current.differs m = false ∧ changes = [] := by
  -- of all that a pass may end in, only one is this outcome
  generalize eq : some Outcome.unchanged = r at h
  cases h with
  | terminated ending =>
    rw [lasting] at ending
    cases ending
  | unreadable => cases eq
  | created _ _ creates =>
    cases creates with
    | stopped => cases eq
    | found _ _ ends => obtain rfl | ⟨rfl, _⟩ := ends <;> cases eq
    | unrecorded => cases eq
    | created _ _ _ ends => obtain rfl | ⟨rfl, _⟩ := ends <;> cases eq
  | unchanged _ shown same => exact ⟨_, shown, same, rfl⟩
  | refused => cases eq
  | kept => cases eq
  | @replaced _ _ _ _ r _ _ _ _ _ creates => cases r <;> cases eq

end

/-! ## The first pass -/

namespace Setting

variable {w : Setting} {s t : Scene} {m : Machine} {spec : MachineProviderSpec}

/-- A machine that does not differ from what its snapshot shows is found unchanged. -/
theorem PassEnds.unchanged_of_same {fails : Prop} {r : Option Outcome}
    (h : w.PassEnds fails s r t) (found : w.record s = some m) (named : m.IsNamed w.space w.name)
    (lasting : m.isTerminating = false) {current : Machine}
    (shown : m.snapshot? = .ok (some current)) (same : current.differs m = false) :
    r = some .unchanged ∧ t.log = [] ∧ t.memory = s.memory := by
  obtain ⟨_, _, memory, reconciles⟩ := h.reconciles_of_named found named
  obtain ⟨_, log, rfl⟩ | ⟨other, _⟩ := reconciles.of_shown lasting shown
  · rw [log] at memory
    exact ⟨rfl, log, memory⟩
  · rw [same] at other
    cases other

/-- **The first pass over a buildable machine makes its instance and records it.** -/
theorem Fresh.created (fresh : w.Fresh s) (found : w.record s = some m)
    (lasting : m.isTerminating = false)
    (can : ∀ c, w.clusters c → w.provisions.IsBuildable w.system c m spec)
    {r : Option Outcome} (h : w.PassEnds False s r t) :
    r = some .created ∧ w.record t = some (Pass.recordOf m m) ∧
      ∃ made, t.log = [.recorded m (Pass.recordOf m m), .inserted spec.zone m made] := by
  obtain ⟨_, found', named, _, blank⟩ := fresh.record
  cases found.symm.trans found'
  obtain ⟨c, own, memory, reconciles⟩ := h.reconciles_of_named found named
  obtain ⟨eq, made, _, log⟩ := (reconciles.creates_of_blank lasting blank).created_of_absent
    (can c own) (fresh.empty spec.zone)
  refine ⟨eq, ?_, made, log⟩
  rw [Setting.record, memory, log]
  exact Pass.readRecord_recordOf named.filed _

/-- The first pass over a buildable machine may make its instance and fail to record it. -/
theorem Fresh.may_lose (fresh : w.Fresh s) (found : w.record s = some m)
    (lasting : m.isTerminating = false) {c : Cluster} (own : w.clusters c)
    (can : w.provisions.IsBuildable w.system c m spec) :
    ∃ t made, w.PassEnds True s none t ∧ w.provisions.Makes w.system c m made ∧
      t.log = [.inserted spec.zone m made] ∧ w.record t = some m := by
  obtain ⟨_, found', named, _, blank⟩ := fresh.record
  cases found.symm.trans found'
  obtain ⟨made, t, makes, lead, ends⟩ := w.provisions.create_may_lose (o := default)
    (s := { s with log := [] }) named can (fresh.empty spec.zone)
  refine ⟨t, made, ⟨default, c, m, own, found,
    w.provisions.reconcile_of_blank lasting blank ends⟩, makes, lead.log, ?_⟩
  rw [Setting.record, lead.memory]
  exact found

/-- A pass over a machine that differs from the worker that its snapshot shows may delete the
instance of this worker and stop. -/
theorem may_stop_replacing (found : w.record s = some m) (lasting : m.isTerminating = false)
    {c : Cluster} (own : w.clusters c) (can : w.provisions.IsBuildable w.system c m spec)
    {current : Machine} (shown : m.snapshot? = .ok (some current))
    (called : current.metadata.nameOrStem = w.name) {old : MachineProviderSpec}
    (asked : MachineProviderSpec.ofMachine current = .ok old) (worker : old.isMaster = false)
    (other : current.differs m = true) (there : w.instanceIn s old.zone ≠ none) :
    ∃ t, w.PassEnds True s none t ∧ t.log = [.deleted old.zone w.name] ∧ w.record t = some m := by
  obtain ⟨t, lead, ends⟩ := w.provisions.replace_may_stop (o := default)
    (s := { s with log := [] }) asked worker can other (by rwa [called])
  rw [called] at lead
  refine ⟨t, ⟨default, c, m, own, found,
    w.provisions.reconcile_of_shown lasting shown ends⟩, lead.log, ?_⟩
  rw [Setting.record, lead.memory]
  exact found

end Setting

end NodeProvisioner
