import NodeProvisioner.Proofs.Runs.Buildable

/-!
# What a pass does

Each part of a pass over a machine, and in the end the pass as a whole, is described by the changes
it may make, the last one first, together with what it may end in: nothing more can happen, whether
calls fail or not. A part that has not ended well has either met a failing call or something that
cannot be done.

Main statement: `reconcile_ends`.
-/

namespace NodeProvisioner

variable {fails : Prop} {S : SignatureSystem} {p : Provisions} {o : Occasion} {c : Cluster}
  {m stored : Machine} {ns name : String} {s t : Scene}

/-! ## Making an instance -/

/-- Making sure that there is an instance leaves the records alone. -/
theorem Provisions.ensure_keeps {observed : Machine} {site : Site}
    (sited : Site.of c m = .ok site) {r : Option Outcome}
    (h : (p.ensure S o c m site).Ends (Answers fails observed) s r t) :
    t.memory.records = s.memory.records := by
  obtain rest | ⟨rfl, _⟩ := Site.find_bind_ends h
  · cases found : s.memory.getInstance site.spec.zone site.name with
    | some i =>
      rw [found] at rest
      obtain ⟨_, rfl⟩ := Pass.ends_pure.mp rest
      rfl
    | none =>
      rw [found] at rest
      obtain ⟨b, u, drawn, more⟩ | ⟨_, drawn⟩ := Pass.ends_bind.mp rest
      · obtain ⟨rfl, _⟩ := p.blueprint_ends sited drawn
        obtain ⟨_, put, _⟩ := Pass.ends_bind_pure.mp more
        obtain ⟨lead, _⟩ | ⟨lead, _⟩ := Site.insert_ends put <;> rw [lead.memory] <;> rfl
      · rw [(p.blueprint_ends sited drawn).1]
  · rfl

/-- Making sure that there is an instance. -/
theorem Provisions.ensure_ends (named : m.IsNamed ns name) {site : Site}
    (sited : Site.of c m = .ok site) {r : Option Outcome}
    (h : (p.ensure S o c m site).Ends (Answers fails m) s r t) :
    (s.Leads [] t ∧ r = none ∧ (fails ∨ ¬ p.IsBuildable S c m site.spec)) ∨
    (s.Leads [] t ∧ r = some .alreadyExists ∧
      ∃ i, s.memory.getInstance site.spec.zone name = some i) ∨
    (∃ made, s.Leads [.inserted site.spec.zone m made] t ∧
      s.memory.getInstance site.spec.zone name = none ∧ p.Makes S c m made ∧
      (r = some .created ∨ r = none ∧ fails)) := by
  have called : site.name = name := (Site.ofMachine_of_ok sited).2.trans named.nameOrStem
  obtain rest | ⟨rfl, rfl, may⟩ := Site.find_bind_ends h
  · rw [called] at rest
    cases there : s.memory.getInstance site.spec.zone name with
    | some i =>
      rw [there] at rest
      obtain ⟨rfl, rfl⟩ := Pass.ends_pure.mp rest
      exact .inr (.inl ⟨.refl _, rfl, i, rfl⟩)
    | none =>
      rw [there] at rest
      obtain ⟨b, u, drawn, more⟩ | ⟨rfl, drawn⟩ := Pass.ends_bind.mp rest
      · obtain ⟨rfl, ⟨b', eq, makes⟩ | ⟨eq, _⟩⟩ := p.blueprint_ends sited drawn
        · cases eq
          -- the instance that is asked for has the name under which none has been found
          have own : (b.build p.config).name = name := by
            rw [makes.name, named.name]
            rfl
          obtain ⟨r', put, rfl⟩ := Pass.ends_bind_pure.mp more
          obtain ⟨lead, rfl, present | may⟩ | ⟨lead, _, may⟩ := Site.insert_ends put
          · rw [own] at present
            exact absurd there present
          · exact .inl ⟨lead, rfl, .inl may⟩
          · exact .inr (.inr ⟨_, lead, rfl, makes, Pass.map_eq_or_of_fails may _⟩)
        · cases eq
      · obtain ⟨rfl, ⟨b', eq, _⟩ | ⟨_, why⟩⟩ := p.blueprint_ends sited drawn
        · cases eq
        · exact .inl ⟨.refl _, rfl, why⟩
  · exact .inl ⟨.refl _, rfl, .inl may⟩

theorem Pass.record_ends_with (filed : m.IsFiled ns name)
    (found : s.memory.readRecord ns name = some stored) (owned : stored.IsFiled ns name)
    {outcome : Outcome} {r : Option Outcome}
    (h : Pass.Ends (Answers fails m) (Pass.record m >>= fun _ => pure outcome) s r t) :
    (t = s ∧ r = none ∧ fails) ∨
      (s.Leads [.recorded m (Pass.recordOf stored m)] t ∧
        (r = some outcome ∨ r = none ∧ fails)) := by
  obtain ⟨r', taken, rfl⟩ := Pass.ends_bind_pure.mp h
  obtain ⟨rfl, rfl, may⟩ | ⟨lead, may⟩ := Pass.record_ends filed found owned taken
  · exact .inl ⟨rfl, rfl, may⟩
  · exact .inr ⟨lead, Pass.map_eq_or_of_fails may _⟩

/-- What creating the instance of a machine may change, and what it may end in. -/
inductive Creates (fails : Prop) (S : SignatureSystem) (p : Provisions) (c : Cluster)
    (m stored : Machine) (name : String) (memory : Memory) : List Change → Option Outcome → Prop
  /-- Nothing has been changed. -/
  | stopped (why : fails ∨ ¬ ∃ spec, p.IsBuildable S c m spec) :
    Creates fails S p c m stored name memory [] none
  /-- An instance was there; a snapshot has been taken. -/
  | found {spec : MachineProviderSpec} {i : Instance} {r : Option Outcome}
    (asked : MachineProviderSpec.ofMachine m = .ok spec)
    (there : memory.getInstance spec.zone name = some i)
    (ends : r = some .alreadyExists ∨ r = none ∧ fails) :
    Creates fails S p c m stored name memory [.recorded m (Pass.recordOf stored m)] r
  /-- An instance has been inserted, but no snapshot has been taken. -/
  | unrecorded {spec : MachineProviderSpec} {made : Instance}
    (asked : MachineProviderSpec.ofMachine m = .ok spec)
    (absent : memory.getInstance spec.zone name = none) (makes : p.Makes S c m made)
    (may : fails) : Creates fails S p c m stored name memory [.inserted spec.zone m made] none
  /-- An instance has been inserted, and a snapshot has been taken. -/
  | created {spec : MachineProviderSpec} {made : Instance} {r : Option Outcome}
    (asked : MachineProviderSpec.ofMachine m = .ok spec)
    (absent : memory.getInstance spec.zone name = none) (makes : p.Makes S c m made)
    (ends : r = some .created ∨ r = none ∧ fails) : Creates fails S p c m stored name memory
      [.recorded m (Pass.recordOf stored m), .inserted spec.zone m made] r

theorem Provisions.create_ends (named : m.IsNamed ns name)
    (found : s.memory.readRecord ns name = some stored) (owned : stored.IsNamed ns name)
    {r : Option Outcome} (h : (p.create S o c m).Ends (Answers fails m) s r t) :
    ∃ changes, s.Leads changes t ∧ Creates fails S p c m stored name s.memory changes r := by
  obtain ⟨site, sited, rest⟩ | ⟨⟨e, failed⟩, rfl, rfl⟩ := Pass.ends_ofExcept_bind.mp h
  · obtain ⟨asked, _⟩ := Site.ofMachine_of_ok sited
    have stopped : fails ∨ ¬ p.IsBuildable S c m site.spec →
        fails ∨ ¬ ∃ spec, p.IsBuildable S c m spec := by
      refine Or.imp_right fun cannot => ?_
      rintro ⟨spec, can⟩
      exact cannot (Except.ok.inj (can.machine.symm.trans asked) ▸ can)
    obtain ⟨outcome, v, ensured, more⟩ | ⟨rfl, ensured⟩ := Pass.ends_bind.mp rest
    · -- making sure of the instance leaves the record alone, so it is still there to be written
      have kept : v.memory.readRecord ns name = some stored := by
        rw [Memory.readRecord, p.ensure_keeps sited ensured]
        exact found
      have taken := Pass.record_ends_with named.filed kept owned.filed more
      obtain ⟨_, eq, _⟩ | ⟨lead, eq, i, there⟩ | ⟨made, lead, absent, makes, eq | ⟨eq, _⟩⟩ :=
        p.ensure_ends named sited ensured
      · cases eq
      · cases eq
        obtain ⟨rfl, rfl, may⟩ | ⟨lead', ends⟩ := taken
        · exact ⟨[], lead, .stopped (.inl may)⟩
        · exact ⟨_, lead.trans lead', .found asked there ends⟩
      · cases eq
        obtain ⟨rfl, rfl, may⟩ | ⟨lead', ends⟩ := taken
        · exact ⟨_, lead, .unrecorded asked absent makes may⟩
        · exact ⟨_, lead.trans lead', .created asked absent makes ends⟩
      · cases eq
    · obtain ⟨lead, _, why⟩ | ⟨_, eq, _⟩ | ⟨made, lead, absent, makes, eq | ⟨_, may⟩⟩ :=
        p.ensure_ends named sited ensured
      · exact ⟨[], lead, .stopped (stopped why)⟩
      · cases eq
      · cases eq
      · exact ⟨_, lead, .unrecorded asked absent makes may⟩
  · refine ⟨[], .refl _, .stopped (.inr ?_)⟩
    rintro ⟨spec, can⟩
    obtain ⟨k, cluster⟩ := can.cluster
    obtain ⟨site, sited⟩ := Site.exists_of cluster can.machine
    rw [sited] at failed
    cases failed

/-! ## Deleting an instance -/

/-- What deleting the instance of a machine may change, and what it may end in. -/
inductive Deletes (fails : Prop) (c : Cluster) (m : Machine) (memory : Memory) :
    List Change → Option Outcome → Prop
  | stopped (why : fails ∨ ¬ ∃ site, Site.of c m = .ok site) : Deletes fails c m memory [] none
  | absent {spec : MachineProviderSpec} (asked : MachineProviderSpec.ofMachine m = .ok spec)
    (absent : memory.getInstance spec.zone m.metadata.nameOrStem = none) :
    Deletes fails c m memory [] (some .alreadyAbsent)
  | deleted {spec : MachineProviderSpec} {i : Instance} {r : Option Outcome}
    (asked : MachineProviderSpec.ofMachine m = .ok spec)
    (there : memory.getInstance spec.zone m.metadata.nameOrStem = some i)
    (ends : r = some .deleted ∨ r = none ∧ fails) :
    Deletes fails c m memory [.deleted spec.zone m.metadata.nameOrStem] r

theorem Provisions.delete_ends {observed : Machine} {r : Option Outcome}
    (h : (p.delete c m).Ends (Answers fails observed) s r t) :
    ∃ changes, s.Leads changes t ∧ Deletes fails c m s.memory changes r := by
  obtain ⟨site, sited, rest⟩ | ⟨⟨e, failed⟩, rfl, rfl⟩ := Pass.ends_ofExcept_bind.mp h
  · obtain ⟨asked, called⟩ := Site.ofMachine_of_ok sited
    obtain more | ⟨rfl, rfl, may⟩ := Site.find_bind_ends rest
    · cases there : s.memory.getInstance site.spec.zone site.name with
      | none =>
        rw [there] at more
        obtain ⟨rfl, rfl⟩ := Pass.ends_pure.mp more
        exact ⟨[], .refl _, .absent asked (called ▸ there)⟩
      | some i =>
        rw [there] at more
        obtain ⟨r', removed, rfl⟩ := Pass.ends_bind_pure.mp more
        obtain ⟨lead, rfl, absent | may⟩ | ⟨lead, _, may⟩ := Site.delete_ends removed
        · rw [there] at absent
          cases absent
        · exact ⟨[], lead, .stopped (.inl may)⟩
        · rw [called] at lead there
          exact ⟨_, lead, .deleted asked there (Pass.map_eq_or_of_fails may _)⟩
    · exact ⟨[], .refl _, .stopped (.inl may)⟩
  · refine ⟨[], .refl _, .stopped (.inr ?_)⟩
    rintro ⟨site, sited⟩
    rw [sited] at failed
    cases failed

/-- Deleting an instance leaves the records alone. -/
theorem Provisions.delete_keeps {observed : Machine} {r : Option Outcome}
    (h : (p.delete c m).Ends (Answers fails observed) s r t) :
    t.memory.records = s.memory.records := by
  obtain ⟨changes, lead, deletes⟩ := p.delete_ends h
  rw [lead.memory]
  cases deletes <;> rfl

/-! ## The whole pass -/

/-- What a pass over a machine may change, and what it may end in. -/
inductive Reconciles (fails : Prop) (S : SignatureSystem) (p : Provisions) (c : Cluster)
    (m : Machine) (name : String) (memory : Memory) : List Change → Option Outcome → Prop
  /-- The machine is to be removed. -/
  | terminated {changes : List Change} {r : Option Outcome} (ending : m.isTerminating = true)
    (deletes : Deletes fails c m memory changes r) :
    Reconciles fails S p c m name memory changes r
  /-- The snapshot of the machine cannot be read. -/
  | unreadable {e : Error} (lasting : m.isTerminating = false) (shown : m.snapshot? = .error e) :
    Reconciles fails S p c m name memory [] none
  | created {changes : List Change} {r : Option Outcome} (lasting : m.isTerminating = false)
    (shown : m.snapshot? = .ok none)
    (creates : Creates fails S p c m m name memory changes r) :
    Reconciles fails S p c m name memory changes r
  | unchanged {current : Machine} (lasting : m.isTerminating = false)
    (shown : m.snapshot? = .ok (some current)) (same : current.differs m = false) :
    Reconciles fails S p c m name memory [] (some .unchanged)
  /-- The instance may not be made anew. -/
  | refused {current : Machine} {e : Error} (lasting : m.isTerminating = false)
    (shown : m.snapshot? = .ok (some current)) (other : current.differs m = true)
    (refused : p.checkReplaceable current m = .error e) :
    Reconciles fails S p c m name memory [] none
  /-- The old instance has not been deleted for certain. -/
  | kept {current : Machine} {changes : List Change} (lasting : m.isTerminating = false)
    (shown : m.snapshot? = .ok (some current)) (other : current.differs m = true)
    (may : p.checkReplaceable current m = .ok ())
    (deletes : Deletes fails c current memory changes none) :
    Reconciles fails S p c m name memory changes none
  /-- The old instance is gone. -/
  | replaced {current : Machine} {first second : List Change} {outcome : Outcome}
    {r : Option Outcome} (lasting : m.isTerminating = false)
    (shown : m.snapshot? = .ok (some current)) (other : current.differs m = true)
    (may : p.checkReplaceable current m = .ok ())
    (deletes : Deletes fails c current memory first (some outcome))
    (creates : Creates fails S p c m m name (first.foldr Change.apply memory) second r) :
    Reconciles fails S p c m name memory (second ++ first) (r.map fun _ => .recreated)

/-- Making an instance anew. -/
theorem Provisions.replace_ends (named : m.IsNamed ns name)
    (found : s.memory.readRecord ns name = some m) (lasting : m.isTerminating = false)
    {current : Machine} (shown : m.snapshot? = .ok (some current)) {r : Option Outcome}
    (h : (p.replace S o c current m).Ends (Answers fails m) s r t) :
    ∃ changes, s.Leads changes t ∧ Reconciles fails S p c m name s.memory changes r := by
  unfold Provisions.replace at h
  cases other : current.differs m with
  | false =>
    rw [other] at h
    obtain ⟨rfl, rfl⟩ := Pass.ends_pure.mp h
    exact ⟨[], .refl _, .unchanged lasting shown other⟩
  | true =>
    rw [other] at h
    obtain ⟨_, may, rest⟩ | ⟨⟨e, refused⟩, rfl, rfl⟩ := Pass.ends_ofExcept_bind.mp h
    · obtain ⟨outcome, v, removed, more⟩ | ⟨rfl, removed⟩ := Pass.ends_bind.mp rest
      · obtain ⟨first, lead, deletes⟩ := p.delete_ends removed
        -- deleting leaves the record alone, so creating meets the one that the pass began with
        have kept : v.memory.readRecord ns name = some m := by
          rw [Memory.readRecord, p.delete_keeps removed]
          exact found
        obtain ⟨r', made, rfl⟩ := Pass.ends_bind_pure.mp more
        obtain ⟨second, lead', creates⟩ := p.create_ends named kept named made
        rw [lead.memory] at creates
        exact ⟨_, lead.trans lead', .replaced lasting shown other may deletes creates⟩
      · obtain ⟨changes, lead, deletes⟩ := p.delete_ends removed
        exact ⟨changes, lead, .kept lasting shown other may deletes⟩
    · exact ⟨[], .refl _, .refused lasting shown other refused⟩

/-- **What a pass over a stored record may change, and what it may end in.** -/
theorem Provisions.reconcile_ends (named : m.IsNamed ns name)
    (found : s.memory.readRecord ns name = some m) {r : Option Outcome}
    (h : (p.reconcile S o c m).Ends (Answers fails m) s r t) :
    ∃ changes, s.Leads changes t ∧ Reconciles fails S p c m name s.memory changes r := by
  unfold Provisions.reconcile at h
  cases ending : m.isTerminating with
  | true =>
    rw [ending] at h
    obtain ⟨changes, lead, deletes⟩ := p.delete_ends h
    exact ⟨changes, lead, .terminated ending deletes⟩
  | false =>
    rw [ending] at h
    obtain ⟨shown, read, rest⟩ | ⟨⟨e, failed⟩, rfl, rfl⟩ := Pass.ends_ofExcept_bind.mp h
    · cases shown with
      | none =>
        obtain ⟨changes, lead, creates⟩ := p.create_ends named found named rest
        exact ⟨changes, lead, .created ending read creates⟩
      | some current =>
        -- the snapshot is read once more, with the same result
        obtain ⟨shown', read', more⟩ | ⟨⟨e, failed⟩, _⟩ := Pass.ends_ofExcept_bind.mp rest
        · cases read.symm.trans read'
          exact p.replace_ends named found ending read more
        · rw [read] at failed
          cases failed
    · exact ⟨[], .refl _, .unreadable ending failed⟩

end NodeProvisioner
