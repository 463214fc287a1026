import NodeProvisioner.Pass.Site
import NodeProvisioner.Proofs.Runs.Scenes

/-!
# Parts of a pass

What each part of a pass that makes calls may end in: looking for an instance, inserting one and
deleting one, waiting for an operation, and taking a snapshot. Where calls may fail, a part may
have had its effect and end in an error all the same; it never ends well without its effect.
-/

namespace NodeProvisioner

/-! ## Memory -/

namespace Memory

theorem key_inj {place other name : String} : key place name = key other name ↔ place = other := by
  constructor
  · intro h
    have whole (p : String) : key p name = p ++ ("/" ++ name) := String.append_assoc
    rw [whole, whole] at h
    exact (String.append_left_inj _).mp h
  · exact fun h => h ▸ rfl

end Memory

namespace Change

variable {m : Machine} {memory : Memory} {zone other name : String}

theorem getInstance_inserted (made : Instance) :
    ((inserted zone m made).apply memory).getInstance other made.name
      = if other = zone then some made else memory.getInstance other made.name := by
  rw [Memory.getInstance, apply, StringMap.get?_insert]
  simp only [Memory.key_inj]
  rfl

theorem getInstance_deleted : ((deleted zone name).apply memory).getInstance other name
    = if other = zone then none else memory.getInstance other name := by
  rw [Memory.getInstance, apply, StringMap.get?_erase]
  simp only [Memory.key_inj]
  rfl

theorem readRecord_recorded (m : Machine) (memory : Memory) (written : Machine) :
    ((recorded m written).apply memory).readRecord written.namespaceText
      written.metadata.nameOrStem = some written := by
  rw [Memory.readRecord, apply, StringMap.get?_insert]
  exact if_pos rfl

end Change

/-! ## Calls -/

namespace Pass

open Program

variable {σ α : Type} {rules : Rules Call.Answer σ} {s t : σ}

theorem ends_provider {machine operation : String}
    {answer : Program Call.Answer (Except ComputeError α)} {r : Option α} :
    Ends rules (provider machine operation answer) s r t ↔
      ∃ result, answer.Ends rules s result t ∧ r = result.bind Except.toOption := by
  -- an error is put into words, but it stays one
  have forgotten (own : Option (Except ComputeError α)) :
      (own.map fun result => result.mapError fun e : ComputeError =>
        Error.provisioning machine operation e.message).bind Except.toOption
      = own.bind Except.toOption := by
    obtain _ | _ | _ := own <;> rfl
  constructor
  · rintro ⟨_, h, rfl⟩
    obtain ⟨own, first, rfl⟩ := ends_run_provider.mp h
    exact ⟨own, first, forgotten own⟩
  · rintro ⟨own, first, rfl⟩
    exact ⟨_, ends_run_provider.mpr ⟨own, first, rfl⟩, (forgotten own).symm⟩

end Pass

/-! ## Waiting -/

namespace Operation

variable {fails : Prop} {m : Machine} {s t : Scene}

theorem succeeded_ne_none {o : Operation} {machine : String} :
    (o.succeeded machine).toOption ≠ none ↔ o.errorMessage? = none := by
  unfold succeeded
  cases o.errorMessage? with
  | none => exact ⟨fun _ => rfl, fun _ => Option.some_ne_none _⟩
  | some _ => exact ⟨fun ne => absurd rfl ne, nofun⟩

theorem finished_eq_some {o o' : Operation} (h : some o' = o.finished.toOption) :
    o' = o ∧ o.isDone = true := by
  unfold finished at h
  split at h
  · exact ⟨Option.some.inj h, ‹_›⟩
  · cases h

/-- A poll changes nothing. It does not find that an operation has succeeded that does not come
about. -/
theorem poll_ends {machine project zone operation : String} {r : Option (Except Error Operation)}
    (h : (poll machine project zone operation).run.Ends (Answers fails m) s r t) :
    t = s ∧ ∀ o, r = some (.ok o) → o.errorMessage? = none → s.owing = false := by
  have whole : Pass.Ends (Answers fails m) (poll machine project zone operation) s
    (r.bind Except.toOption) t := ⟨r, h, rfl⟩
  obtain ⟨o, u, asked, checked⟩ | ⟨eq, asked⟩ := Pass.ends_bind.mp whole
  · obtain ⟨result, called, eq⟩ := Pass.ends_provider.mp asked
    obtain ⟨answer, ⟨rfl, told, _⟩, rfl⟩ := Program.ends_perform.mp called
    obtain ⟨eq', rfl⟩ := Pass.ends_monadExcept.mp checked
    refine ⟨rfl, ?_⟩
    rintro o' rfl clean
    obtain ⟨rfl, isDone⟩ := finished_eq_some eq'
    match answer, eq with
    | .ok _, rfl => exact told ⟨_, rfl, isDone, clean⟩
  · obtain ⟨result, called, _⟩ := Pass.ends_provider.mp asked
    obtain ⟨answer, ⟨rfl, _⟩, _⟩ := Program.ends_perform.mp called
    refine ⟨rfl, ?_⟩
    rintro o' rfl
    cases eq

theorem polls_ends {b : Backoff} {machine project zone operation : String} {r : Option Operation}
    (h : Pass.Ends (Answers fails m) (ExceptT.mk (b.retry (fun d => .perform (Call.pause d))
      Error.isRetryable (poll machine project zone operation).run)) s r t) :
    t = s ∧ ∀ o, r = some o → o.errorMessage? = none → s.owing = false := by
  obtain ⟨result, ends, rfl⟩ := h
  have pauses (d : Duration) {v r u} (paused : Program.Ends (Answers fails m)
      (.perform (Call.pause d)) v r u) : u = v := by
    obtain ⟨_, rule, _⟩ := Program.ends_perform.mp paused
    exact rule
  have polls {v r u} (same : v = s) (polled : Program.Ends (Answers fails m)
      (poll machine project zone operation).run v r u) : u = s ∧ ∀ result, r = some result →
      ∀ o, result = .ok o → o.errorMessage? = none → s.owing = false := by
    obtain ⟨same', told⟩ := poll_ends polled
    rw [same] at same' told
    exact ⟨same', fun result eq o ok => told o (eq.trans (congrArg some ok))⟩
  obtain ⟨rfl, good⟩ := b.attempts_ends (· = s) _
    (fun d _ _ _ same paused => (pauses d paused).trans same) (fun _ _ _ => polls)
    Error.isRetryable _ _ rfl ends
  refine ⟨rfl, ?_⟩
  intro o eq
  match result, eq with
  | some (.ok _), rfl => exact good _ rfl o rfl

/-- **Waiting changes nothing.** It ends well only if the operation has come about. -/
theorem wait_ends {o : Operation} {b : Backoff} {machine project zone : String}
    {r : Option Operation} (h : (o.wait b machine project zone).Ends (Answers fails m) s r t) :
    t = s ∧ (r ≠ none → IsDone (.ok o) ∨ s.owing = false) ∧ (IsDone (.ok o) → r ≠ none) := by
  rw [wait] at h
  by_cases isDone : o.isDone = true
  · rw [if_pos isDone] at h
    obtain ⟨_, _, first, checked⟩ | ⟨_, first⟩ := Pass.ends_bind.mp h
    · obtain ⟨⟨⟩, rfl⟩ := Pass.ends_pure.mp first
      obtain ⟨rfl, rfl⟩ := Pass.ends_monadExcept.mp checked
      refine ⟨rfl, ?_, ?_⟩
      · exact fun good => .inl ⟨o, rfl, isDone, succeeded_ne_none.mp good⟩
      · exact fun done => succeeded_ne_none.mpr (isDone_ok.mp done).2
    · cases (Pass.ends_pure.mp first).1
  · rw [if_neg isDone] at h
    have pending : ¬ IsDone (.ok o) := fun done => isDone (isDone_ok.mp done).1
    obtain ⟨o', u, first, checked⟩ | ⟨rfl, first⟩ := Pass.ends_bind.mp h
    · obtain ⟨rfl, good⟩ := polls_ends first
      obtain ⟨rfl, rfl⟩ := Pass.ends_monadExcept.mp checked
      refine ⟨rfl, ?_, fun done => absurd done pending⟩
      exact fun ne => .inr (good o' rfl (succeeded_ne_none.mp ne))
    · exact ⟨(polls_ends first).1, fun ne => absurd rfl ne, fun done => absurd done pending⟩

/-- There is nothing to wait for once an operation has succeeded. -/
theorem wait_succeeded {σ : Type} {rules : Program.Rules Call.Answer σ} {o : Operation}
    (h : o.HasSucceeded) (b : Backoff) (machine project zone : String) (s : σ) :
    (o.wait b machine project zone).run.Ends rules s (some (.ok o)) s := by
  rw [wait, if_pos h.1]
  refine Program.ends_exceptBind.mpr (.inl ⟨o, s, ⟨rfl, rfl⟩, ?_⟩)
  refine Program.ends_exceptOf.mpr ⟨congrArg some ?_, rfl⟩
  simp only [succeeded, h.2]

end Operation

/-! ## Instances -/

namespace Site

variable {fails : Prop} {m : Machine} {s t : Scene} {site : Site}

/-- Looking for an instance changes nothing. -/
theorem find_ends {r : Option (Option Instance)} (h : site.find.Ends (Answers fails m) s r t) :
    t = s ∧ (r = some (s.memory.getInstance site.spec.zone site.name) ∨ r = none ∧ fails) := by
  obtain ⟨result, called, rfl⟩ := Pass.ends_provider.mp h
  obtain ⟨answer, ⟨rfl, rfl | ⟨may, e, rfl⟩⟩, rfl⟩ := Program.ends_perform.mp called
  · exact ⟨rfl, .inl rfl⟩
  · exact ⟨rfl, .inr ⟨rfl, may⟩⟩

/-- What is found is the truth, or looking for it has failed. -/
theorem find_bind_ends {α : Type} {f : Option Instance → Pass α} {r : Option α}
    (h : Pass.Ends (Answers fails m) (site.find >>= f) s r t) :
    (f (s.memory.getInstance site.spec.zone site.name)).Ends (Answers fails m) s r t ∨
      (t = s ∧ r = none ∧ fails) := by
  obtain ⟨found, u, looked, rest⟩ | ⟨rfl, looked⟩ := Pass.ends_bind.mp h
  · obtain ⟨rfl, eq | ⟨eq, _⟩⟩ := find_ends looked
    · cases eq
      exact .inl rest
    · cases eq
  · obtain ⟨rfl, eq | ⟨_, may⟩⟩ := find_ends looked
    · cases eq
    · exact .inr ⟨rfl, rfl, may⟩

/-- **A change that is asked for and waited for** has been made, or the part has failed. -/
theorem change_ends {change : Change} {possible : Prop} {asked : Pass Operation}
    {b : Backoff} {machine project zone : String} {r : Option Operation}
    (call : ∀ {r u}, asked.Ends (Answers fails m) s r u →
      ∃ answer, Changes fails s change possible answer u ∧ r = answer.toOption)
    (h : Pass.Ends (Answers fails m)
      (asked >>= fun operation => operation.wait b machine project zone) s r t) :
    (s.Leads [] t ∧ r = none ∧ (¬ possible ∨ fails)) ∨
      (s.Leads [change] t ∧ possible ∧ (r = none → fails)) := by
  obtain ⟨o, u, first, waited⟩ | ⟨rfl, first⟩ := Pass.ends_bind.mp h
  · obtain ⟨answer, changed, eq⟩ := call first
    obtain rfl : answer = .ok o := by
      match answer, eq with
      | .ok _, rfl => rfl
    obtain ⟨rfl, come, done⟩ := Operation.wait_ends waited
    -- waiting changes nothing, so what has been changed has been changed by asking
    obtain ⟨can, rfl, reported⟩ | ⟨why, unreported, rfl⟩ := changed
    · exact .inr ⟨s.leads_after change, can, fun eq => reported.resolve_left fun isDone =>
        done isDone eq⟩
    · refine .inl ⟨⟨rfl, rfl⟩, ?_, why⟩
      cases r with
      | none => rfl
      | some _ =>
        obtain isDone | settled := come nofun
        · exact absurd isDone unreported
        · cases settled
  · obtain ⟨answer, ⟨can, rfl, reported⟩ | ⟨why, _, rfl⟩, eq⟩ := call first
    · refine .inr ⟨s.leads_after change, can, fun _ => reported.resolve_left ?_⟩
      rintro ⟨o, rfl, _⟩
      cases eq
    · exact .inl ⟨⟨rfl, rfl⟩, rfl, why⟩

theorem insert_ends {b : Backoff} {wanted : Instance} {r : Option Operation}
    (h : (site.insert b wanted).Ends (Answers fails m) s r t) :
    (s.Leads [] t ∧ r = none ∧
        (s.memory.getInstance site.spec.zone wanted.name ≠ none ∨ fails)) ∨
      (s.Leads [.inserted site.spec.zone m wanted] t ∧
        s.memory.getInstance site.spec.zone wanted.name = none ∧ (r = none → fails)) := by
  refine change_ends (fun asked => ?_) h
  obtain ⟨result, called, rfl⟩ := Pass.ends_provider.mp asked
  obtain ⟨answer, rule, rfl⟩ := Program.ends_perform.mp called
  exact ⟨answer, rule, rfl⟩

theorem delete_ends {b : Backoff} {r : Option Operation}
    (h : (site.delete b).Ends (Answers fails m) s r t) :
    (s.Leads [] t ∧ r = none ∧
        (s.memory.getInstance site.spec.zone site.name = none ∨ fails)) ∨
      (s.Leads [.deleted site.spec.zone site.name] t ∧
        s.memory.getInstance site.spec.zone site.name ≠ none ∧ (r = none → fails)) := by
  have call {r u} (asked : (Pass.deleteInstance site.machine site.project site.spec.zone
      site.name).Ends (Answers fails m) s r u) :
      ∃ answer, Changes fails s (.deleted site.spec.zone site.name)
        (s.memory.getInstance site.spec.zone site.name ≠ none) answer u ∧ r = answer.toOption := by
    obtain ⟨result, called, rfl⟩ := Pass.ends_provider.mp asked
    obtain ⟨answer, rule, rfl⟩ := Program.ends_perform.mp called
    exact ⟨answer, rule, rfl⟩
  obtain ⟨lead, eq, why⟩ | made := change_ends call h
  · exact .inl ⟨lead, eq, why.imp_left Classical.not_not.mp⟩
  · exact .inr made

end Site

/-! ## Snapshots -/

/-- The machine of the record has this namespace and this name. -/
structure Machine.IsNamed (m : Machine) (ns name : String) : Prop where
  space : m.namespaceText = ns
  name : m.metadata.name = some name

theorem Machine.IsNamed.nameOrStem {m : Machine} {ns name : String} (h : m.IsNamed ns name) :
    m.metadata.nameOrStem = name := by
  rw [ObjectMeta.nameOrStem, h.name]
  rfl

/-- The record of the machine is filed under this namespace and this name. It may be a name that
others are made from. -/
structure Machine.IsFiled (m : Machine) (ns name : String) : Prop where
  space : m.namespaceText = ns
  name : m.metadata.nameOrStem = name

theorem Machine.IsNamed.filed {m : Machine} {ns name : String} (h : m.IsNamed ns name) :
    m.IsFiled ns name := ⟨h.space, h.nameOrStem⟩

theorem Machine.IsFiled.withVersion {m : Machine} {ns name : String} (h : m.IsFiled ns name)
    (version : String) : (Memory.withVersion m version).IsFiled ns name := ⟨h.space, h.name⟩

theorem Machine.IsFiled.withSnapshot {m : Machine} {ns name : String} (h : m.IsFiled ns name)
    (observed : Machine) : (m.withSnapshot observed).IsFiled ns name := ⟨h.space, h.name⟩

namespace Pass

variable {fails : Prop} {m observed : Machine} {s t : Scene} {ns name : String}

/-- What is written when a snapshot is put onto a record. -/
def recordOf (stored observed : Machine) : Machine :=
  Memory.withVersion (stored.withSnapshot observed)
    (Memory.nextVersion stored.metadata.resourceVersion)

/-- What has been written is read. -/
theorem readRecord_recordOf (filed : m.IsFiled ns name) (memory : Memory) :
    ((Change.recorded m (recordOf m m)).apply memory).readRecord ns name
      = some (recordOf m m) := by
  have written := Change.readRecord_recorded m memory (recordOf m m)
  have filed' : (recordOf m m).IsFiled ns name := (filed.withSnapshot m).withVersion _
  rwa [filed'.space, filed'.name] at written

theorem writeRecord_withSnapshot {memory : Memory} {stored : Machine}
    (found : memory.readRecord ns name = some stored) (owned : stored.IsFiled ns name) :
    (memory.writeRecord (stored.withSnapshot observed)).1 = .ok (recordOf stored observed) := by
  have key : Memory.recordKey (stored.withSnapshot observed) = Memory.key ns name := by
    rw [Memory.recordKey, (owned.withSnapshot observed).space, (owned.withSnapshot observed).name]
  have there : memory.records.get? (Memory.key ns name) = some stored := found
  have same : ¬ stored.metadata.resourceVersion
      ≠ (stored.withSnapshot observed).metadata.resourceVersion := fun ne => ne rfl
  simp only [Memory.writeRecord, key, there, if_neg same]
  rfl

/-- **A snapshot is put onto the stored record**, or the part fails. -/
theorem record_ends (filed : observed.IsFiled ns name) {stored : Machine}
    (found : s.memory.readRecord ns name = some stored) (owned : stored.IsFiled ns name)
    {r : Option Machine} (h : (record observed).Ends (Answers fails m) s r t) :
    (t = s ∧ r = none ∧ fails) ∨
      (s.Leads [.recorded m (recordOf stored observed)] t ∧ (r = none → fails)) := by
  have asked {r u} (read : (readRecord observed.namespaceText
      observed.metadata.nameOrStem).Ends (Answers fails m) s r u) :
      u = s ∧ (r = some (some stored) ∨ r = none ∧ fails) := by
    obtain ⟨result, called, rfl⟩ := read
    obtain ⟨answer, ⟨rfl, told⟩, rfl⟩ := Program.ends_perform.mp called
    rw [filed.space, filed.name, found] at told
    obtain rfl | ⟨may, e, rfl⟩ := told
    · exact ⟨rfl, .inl rfl⟩
    · exact ⟨rfl, .inr ⟨rfl, may⟩⟩
  -- the version that is written is the one just read, so the record is not refused
  obtain ⟨answer, u, read, rest⟩ | ⟨rfl, read⟩ := ends_bind.mp h
  · obtain ⟨rfl, eq | ⟨eq, _⟩⟩ := asked read
    · cases eq
      obtain ⟨result, called, rfl⟩ := rest
      obtain ⟨answer, rule, rfl⟩ := Program.ends_perform.mp called
      simp only [Answers, writeRecord_withSnapshot found owned] at rule
      obtain ⟨rfl, told⟩ | ⟨may, rfl, e, rfl⟩ := rule
      · refine .inr ⟨Scene.leads_after _ _, ?_⟩
        obtain rfl | ⟨may, _⟩ := told
        · intro eq
          cases eq
        · exact fun _ => may
      · exact .inl ⟨rfl, rfl, may⟩
    · cases eq
  · obtain ⟨rfl, eq | ⟨_, may⟩⟩ := asked read
    · cases eq
    · exact .inl ⟨rfl, rfl, may⟩

end Pass

end NodeProvisioner
