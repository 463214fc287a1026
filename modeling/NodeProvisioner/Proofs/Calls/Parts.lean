import NodeProvisioner.Proofs.Calls.Logs
import NodeProvisioner.Proofs.Runs.Parts

/-!
# Calls of the parts of a pass

Which calls each part of a pass makes, whatever they are answered with, and which errors it may end
in: looking for an instance, inserting one and deleting one, waiting for an operation, and taking a
snapshot. A part that deals with the provider fails only with errors that may pass.
-/

namespace NodeProvisioner

open Program (logging)

/-- A call of a pass, and what it has been answered with. -/
abbrev Event := Sigma Call.Answer

/-! ## Kinds of calls -/

namespace Call

def inserts : Call → Bool
  | insertInstance .. => true
  | _ => false

def deletes : Call → Bool
  | deleteInstance .. => true
  | _ => false

/-- The call inserts or deletes an instance. -/
def changes (c : Call) : Bool := c.inserts || c.deletes

/-- The call writes a record. -/
def writes : Call → Bool
  | writeRecord _ => true
  | _ => false

/-- The call looks for an instance. -/
def looks : Call → Bool
  | getInstance .. => true
  | _ => false

/-- The call is made while waiting for an operation. -/
def waits : Call → Bool
  | pollOperation .. => true
  | pause _ => true
  | _ => false

end Call

/-- No call of the kind is in the log. -/
def Lacks (kind : Call → Bool) (log : List Event) : Prop := ∀ event ∈ log, kind event.1 = false

section

variable {kind : Call → Bool} {log : List Event}

theorem Lacks.nil : Lacks kind [] := List.forall_mem_nil _

theorem Lacks.cons (h : Lacks kind log) {event : Event} (other : kind event.1 = false) :
    Lacks kind (event :: log) :=
  List.forall_mem_cons.mpr ⟨other, h⟩

end

/-! ## Errors -/

namespace Error

/-- What is asked for is refused: it is not valid, or it cannot be read. -/
inductive IsRefusal : Error → Prop
  | invalid (message : String) : IsRefusal (.validation message)
  | unreadable (machine message : String) : IsRefusal (.decode machine message)

end Error

/-- The call has been answered with this error. What the provider answers is put into words of the
pass, so it is none of these. -/
inductive Event.Hands : Event → Error → Prop
  | token (e : BootstrapError) : Hands ⟨.createToken, .error e⟩ (.bootstrap e)
  | read (ns name : String) (e : Error) : Hands ⟨.readRecord ns name, .error e⟩ e
  | write (record : Machine) (e : Error) : Hands ⟨.writeRecord record, .error e⟩ e

/-- The pass has raised the error itself: no call has been answered with it. -/
def Raises (log : List Event) (e : Error) : Prop := ∀ event ∈ log, ¬ event.Hands e

theorem Raises.nil (e : Error) : Raises [] e := List.forall_mem_nil _

theorem Raises.cons {log : List Event} {event : Event} {e : Error} (h : Raises log e)
    (other : ¬ event.Hands e) : Raises (event :: log) e :=
  List.forall_mem_cons.mpr ⟨other, h⟩

/-- What looks for an instance, inserts one or deletes one hands no error to the pass. -/
theorem Event.Hands.kind {event : Event} {e : Error} (h : event.Hands e) :
    event.1.looks = false ∧ event.1.changes = false := by
  cases h <;> exact ⟨rfl, rfl⟩

/-- The pass stops while it deals with the provider: it is aborted, or it fails with an error that
may pass. -/
inductive Stops {α : Type} : Option (Except Error α) → Prop
  | aborted : Stops none
  | failed {e : Error} (may : e.isRetryable = true) : Stops (some (.error e))

theorem Stops.not_refusal {α : Type} {e : Error}
    (h : Stops (some (.error e) : Option (Except Error α))) : ¬ e.IsRefusal := by
  cases h with
  | failed may => rintro ⟨⟩ <;> cases may

theorem Stops.not_bootstrap {α : Type} {e : BootstrapError} :
    ¬ Stops (some (.error (.bootstrap e)) : Option (Except Error α)) := by
  rintro ⟨⟩
  contradiction

/-- A part that stops lets the whole pass stop. -/
theorem Stops.error {α β : Type} {e : Error}
    (h : Stops (some (.error e) : Option (Except Error α))) :
    Stops (some (.error e) : Option (Except Error β)) := by
  cases h with
  | failed may => exact .failed may

theorem Stops.map {α β : Type} {r : Option (Except Error α)} (h : Stops r) (f : α → β) :
    Stops (r.map (Except.map f)) := by
  cases h with
  | aborted => exact .aborted
  | failed may => exact .failed may

/-- **A call to the provider** is answered well, or the part stops. -/
theorem Pass.provider_logs {α : Type} (event : Except ComputeError α → Event)
    {machine operation : String} {call : Program Call.Answer (Except ComputeError α)}
    {past log : List Event} {r : Option (Except Error α)}
    (calls : ∀ {own u}, call.Ends logging past own u →
      ∃ answer, u = event answer :: past ∧ own = some answer)
    (h : (provider machine operation call).run.Ends logging past r log) :
    (∃ value, log = event (.ok value) :: past ∧ r = some (.ok value)) ∨
      ∃ e, log = event (.error e) :: past ∧ Stops r := by
  obtain ⟨own, called, rfl⟩ := ends_run_provider.mp h
  obtain ⟨answer, rfl, rfl⟩ := calls called
  cases answer with
  | ok value => exact .inl ⟨value, rfl, rfl⟩
  | error e => exact .inr ⟨e, rfl, .failed rfl⟩

/-! ## Waiting -/

/-- Nothing has been done since but to wait for an operation. -/
inductive Waited (past : List Event) : List Event → Prop
  | refl : Waited past past
  | cons {log : List Event} {event : Event} (waited : Waited past log)
    (waits : event.1.waits = true) : Waited past (event :: log)

theorem Waited.lacks {past log : List Event} (h : Waited past log) {kind : Call → Bool}
    (other : ∀ {c : Call}, c.waits = true → kind c = false) (lacks : Lacks kind past) :
    Lacks kind log := by
  induction h with
  | refl => exact lacks
  | cons _ waits ih => exact ih.cons (other waits)

namespace Operation

variable {o : Operation} {machine project zone name : String} {past log : List Event}

/-- The operation has been followed until it was done, without errors. -/
inductive Finishes (o : Operation) (project zone : String) (past : List Event) : List Event → Prop
  | atOnce (succeeded : o.HasSucceeded) : Finishes o project zone past past
  | polled {done : Operation} {log : List Event} (succeeded : done.HasSucceeded)
    (waited : Waited past log) :
    Finishes o project zone past (⟨.pollOperation project zone o.name, .ok done⟩ :: log)

theorem Finishes.waited (h : o.Finishes project zone past log) : Waited past log := by
  cases h with
  | atOnce => exact .refl
  | polled _ waited => exact waited.cons rfl

theorem succeeded_cases (o : Operation) (machine : String) :
    (o.errorMessage? = none ∧ o.succeeded machine = .ok o) ∨
      ∃ e, o.succeeded machine = .error e ∧ e.isRetryable = true := by
  unfold succeeded
  cases o.errorMessage? with
  | none => exact .inl ⟨rfl, rfl⟩
  | some _ => exact .inr ⟨_, rfl, rfl⟩

/-- What attempts to see an operation done end in. -/
def Sees (project zone name : String) (past : List Event) (result : Except Error Operation)
    (log : List Event) : Prop :=
  (∃ done before, result = .ok done ∧ done.isDone = true ∧ Waited past before ∧
    log = ⟨.pollOperation project zone name, .ok done⟩ :: before) ∨
  ∃ e, result = .error e ∧ e.isRetryable = true

theorem poll_logs {before : List Event} {r : Option (Except Error Operation)}
    (waited : Waited past before)
    (h : (poll machine project zone name).run.Ends logging before r log) :
    Waited past log ∧ ∀ result, r = some result → Sees project zone name past result log := by
  obtain ⟨o, u, asked, checked⟩ | ⟨e, rfl, asked⟩ | ⟨rfl, asked⟩ := Program.ends_exceptBind.mp h <;>
    obtain ⟨value, rfl, eq⟩ | ⟨_, rfl, stops⟩ := Pass.provider_logs
      (fun answer => ⟨.pollOperation project zone name, answer⟩) Program.ends_perform.mp asked
  · cases eq
    obtain ⟨rfl, rfl⟩ := Program.ends_exceptOf.mp checked
    refine ⟨waited.cons rfl, ?_⟩
    rintro _ ⟨⟩
    unfold finished
    split
    · rename_i done
      exact .inl ⟨o, before, rfl, done, waited, rfl⟩
    · exact .inr ⟨_, rfl, rfl⟩
  · cases stops
  · cases eq
  · cases stops with
    | failed may => exact ⟨waited.cons rfl, fun _ eq => .inr ⟨e, (Option.some.inj eq).symm, may⟩⟩
  · cases eq
  · exact ⟨waited.cons rfl, nofun⟩

/-- Polling an operation again and again only waits. -/
theorem polls_logs {b : Backoff} {r : Option (Except Error Operation)}
    (h : (b.retry (fun d => .perform (Call.pause d)) Error.isRetryable
      (poll machine project zone name).run).Ends logging past r log) :
    Waited past log ∧ ∀ result, r = some result → Sees project zone name past result log := by
  refine b.attempts_ends (Waited past) _ (fun d before _ u waited paused => ?_)
    (fun before _ u waited polled => poll_logs waited polled) Error.isRetryable _ _ .refl h
  obtain ⟨_, rfl, _⟩ := Program.ends_perform.mp paused
  exact waited.cons rfl

/-- **Waiting for an operation only polls it.** It ends well only if the operation has finished. -/
theorem wait_logs {b : Backoff} {r : Option (Except Error Operation)}
    (h : (o.wait b machine project zone).run.Ends logging past r log) :
    (Waited past log ∧ Stops r) ∨
      (o.Finishes project zone past log ∧ ∃ done, r = some (.ok done)) := by
  rw [wait] at h
  by_cases isDone : o.isDone = true
  · rw [if_pos isDone] at h
    obtain ⟨_, _, ⟨⟨⟩, rfl⟩, checked⟩ | ⟨_, _, ⟨⟨⟩, _⟩⟩ | ⟨_, ⟨⟨⟩, _⟩⟩ :=
      Program.ends_exceptBind.mp h
    obtain ⟨rfl, rfl⟩ := Program.ends_exceptOf.mp checked
    obtain ⟨clean, eq⟩ | ⟨e, eq, may⟩ := o.succeeded_cases machine
    · exact .inr ⟨.atOnce ⟨isDone, clean⟩, o, congrArg some eq⟩
    · exact .inl ⟨.refl, eq ▸ .failed may⟩
  · rw [if_neg isDone] at h
    obtain ⟨done, u, first, checked⟩ | ⟨e, rfl, first⟩ | ⟨rfl, first⟩ :=
      Program.ends_exceptBind.mp h
    · obtain ⟨waited, sees⟩ := polls_logs first
      obtain ⟨rfl, rfl⟩ := Program.ends_exceptOf.mp checked
      obtain ⟨clean, eq⟩ | ⟨e, eq, may⟩ := done.succeeded_cases machine
      · obtain ⟨_, before, ⟨⟩, isDone', waited', rfl⟩ | ⟨e, ⟨⟩, _⟩ := sees _ rfl
        exact .inr ⟨.polled ⟨isDone', clean⟩ waited', done, congrArg some eq⟩
      · exact .inl ⟨waited, eq ▸ .failed may⟩
    · obtain ⟨waited, sees⟩ := polls_logs first
      obtain ⟨_, _, ⟨⟩, _⟩ | ⟨_, ⟨⟩, may⟩ := sees _ rfl
      exact .inl ⟨waited, .failed may⟩
    · exact .inl ⟨(polls_logs first).1, .aborted⟩

end Operation

/-! ## Instances -/

namespace Site

variable {site : Site} {past log : List Event}

/-- The instance at the site has been looked for. -/
def looked (site : Site) (answer : Except ComputeError (Option Instance)) : Event :=
  ⟨.getInstance site.project site.spec.zone site.name, answer⟩

def inserted (site : Site) (wanted : Instance) (answer : Except ComputeError Operation) : Event :=
  ⟨.insertInstance site.project site.spec.zone wanted, answer⟩

def deleted (site : Site) (answer : Except ComputeError Operation) : Event :=
  ⟨.deleteInstance site.project site.spec.zone site.name, answer⟩

theorem find_bind_logs {α : Type} {f : Option Instance → Pass α} {r : Option (Except Error α)}
    (h : (site.find >>= f).run.Ends logging past r log) :
    (∃ found, (f found).run.Ends logging (site.looked (.ok found) :: past) r log) ∨
      ∃ e, log = site.looked (.error e) :: past ∧ Stops r := by
  obtain ⟨found, u, first, rest⟩ | ⟨e, rfl, first⟩ | ⟨rfl, first⟩ :=
    Program.ends_exceptBind.mp h <;>
    obtain ⟨value, rfl, eq⟩ | ⟨e', rfl, stops⟩ :=
      Pass.provider_logs site.looked Program.ends_perform.mp first
  · cases eq
    exact .inl ⟨found, rest⟩
  · cases stops
  · cases eq
  · exact .inr ⟨e', rfl, stops.error⟩
  · cases eq
  · exact .inr ⟨e', rfl, .aborted⟩

/-- **A change that is asked for is waited for**; it ends well only if its operation has
finished. -/
theorem change_logs (event : Except ComputeError Operation → Event) {asked : Pass Operation}
    {b : Backoff} {machine project zone : String} {r : Option (Except Error Operation)}
    (call : ∀ {r u}, asked.run.Ends logging past r u →
      (∃ o, u = event (.ok o) :: past ∧ r = some (.ok o)) ∨
        ∃ e, u = event (.error e) :: past ∧ Stops r)
    (h : (asked >>= fun o => o.wait b machine project zone).run.Ends logging past r log) :
    (∃ answer, Waited (event answer :: past) log ∧ Stops r) ∨
      ∃ o : Operation, o.Finishes project zone (event (.ok o) :: past) log ∧
        ∃ done, r = some (.ok done) := by
  obtain ⟨o, u, first, waited⟩ | ⟨e, rfl, first⟩ | ⟨rfl, first⟩ := Program.ends_exceptBind.mp h <;>
    obtain ⟨o', rfl, eq⟩ | ⟨e', rfl, stops⟩ := call first
  · cases eq
    obtain ⟨waited, stops⟩ | finished := Operation.wait_logs waited
    · exact .inl ⟨_, waited, stops⟩
    · exact .inr ⟨o, finished⟩
  · cases stops
  · cases eq
  · exact .inl ⟨_, .refl, stops⟩
  · cases eq
  · exact .inl ⟨_, .refl, stops⟩

theorem insert_logs {b : Backoff} {wanted : Instance} {r : Option (Except Error Operation)}
    (h : (site.insert b wanted).run.Ends logging past r log) :
    (∃ answer, Waited (site.inserted wanted answer :: past) log ∧ Stops r) ∨
      ∃ o : Operation, o.Finishes site.project site.spec.zone
          (site.inserted wanted (.ok o) :: past) log ∧ ∃ done, r = some (.ok done) :=
  change_logs (site.inserted wanted) (Pass.provider_logs _ Program.ends_perform.mp) h

theorem delete_logs {b : Backoff} {r : Option (Except Error Operation)}
    (h : (site.delete b).run.Ends logging past r log) :
    (∃ answer, Waited (site.deleted answer :: past) log ∧ Stops r) ∨
      ∃ o : Operation, o.Finishes site.project site.spec.zone
          (site.deleted (.ok o) :: past) log ∧ ∃ done, r = some (.ok done) :=
  change_logs site.deleted (Pass.provider_logs _ Program.ends_perform.mp) h

/-- An instance may be found, or not. -/
theorem find_answered (found : Option Instance) :
    site.find.run.Ends logging past (some (.ok found)) (site.looked (.ok found) :: past) :=
  Pass.ends_run_provider.mpr
    ⟨some (.ok found), Program.ends_perform.mpr ⟨.ok found, rfl, rfl⟩, rfl⟩

section

variable {o : Operation} (done : o.HasSucceeded) (b : Backoff)

include done

/-- What is asked for may be done at once. -/
theorem change_done {asked : Pass Operation} {event : Event} (machine project zone : String)
    (call : asked.run.Ends logging past (some (.ok o)) (event :: past)) :
    (asked >>= fun o => o.wait b machine project zone).run.Ends logging past (some (.ok o))
      (event :: past) :=
  Program.ends_exceptBind.mpr (.inl ⟨o, _, call, Operation.wait_succeeded done ..⟩)

theorem insert_done (wanted : Instance) : (site.insert b wanted).run.Ends logging past
    (some (.ok o)) (site.inserted wanted (.ok o) :: past) :=
  change_done done b _ _ _ (Pass.ends_run_provider.mpr
    ⟨some (.ok o), Program.ends_perform.mpr ⟨.ok o, rfl, rfl⟩, rfl⟩)

theorem delete_done :
    (site.delete b).run.Ends logging past (some (.ok o)) (site.deleted (.ok o) :: past) :=
  change_done done b _ _ _ (Pass.ends_run_provider.mpr
    ⟨some (.ok o), Program.ends_perform.mpr ⟨.ok o, rfl, rfl⟩, rfl⟩)

end

end Site

/-! ## Snapshots -/

/-- How taking a snapshot of a machine is logged, and what it is answered with. -/
inductive Records (m : Machine) (past : List Event) : List Event → Except Error Machine → Prop
  | unread (e : Error) : Records m past
      (⟨.readRecord m.namespaceText m.metadata.nameOrStem, .error e⟩ :: past) (.error e)
  | gone : Records m past
      (⟨.readRecord m.namespaceText m.metadata.nameOrStem, .ok none⟩ :: past)
      (.error (.recordGone m.namespaceText m.metadata.nameOrStem))
  | written (stored : Machine) (answer : Except Error Machine) : Records m past
      (⟨.writeRecord (stored.withSnapshot m), answer⟩ ::
        ⟨.readRecord m.namespaceText m.metadata.nameOrStem, .ok (some stored)⟩ :: past)
      answer

theorem Pass.record_logs {m : Machine} {past log : List Event} {r : Option (Except Error Machine)}
    (h : (record m).run.Ends logging past r log) :
    ∃ answer, Records m past log answer ∧ r = some answer := by
  have read {r u} (asked : (readRecord m.namespaceText m.metadata.nameOrStem).run.Ends logging
      past r u) : ∃ answer, r = some answer ∧
      u = ⟨.readRecord m.namespaceText m.metadata.nameOrStem, answer⟩ :: past := by
    obtain ⟨answer, rfl, rfl⟩ := Program.ends_perform.mp asked
    exact ⟨answer, rfl, rfl⟩
  obtain ⟨found, u, first, rest⟩ | ⟨e, rfl, first⟩ | ⟨rfl, first⟩ :=
    Program.ends_exceptBind.mp h <;>
    obtain ⟨answer, eq, rfl⟩ := read first <;> cases eq
  · cases found with
    | none =>
      obtain ⟨rfl, rfl⟩ := rest
      exact ⟨_, .gone, rfl⟩
    | some stored =>
      obtain ⟨answer, rfl, rfl⟩ := Program.ends_perform.mp rest
      exact ⟨answer, .written stored answer, rfl⟩
  · exact ⟨_, .unread e, rfl⟩

/-- A record may be found, and then be written. -/
theorem Pass.record_written (m stored : Machine) (answer : Except Error Machine)
    (past : List Event) : (record m).run.Ends logging past (some answer)
      (⟨.writeRecord (stored.withSnapshot m), answer⟩ ::
        ⟨.readRecord m.namespaceText m.metadata.nameOrStem, .ok (some stored)⟩ :: past) :=
  Program.ends_exceptBind.mpr (.inl ⟨some stored, _,
    Program.ends_perform.mpr ⟨.ok (some stored), rfl, rfl⟩,
    Program.ends_perform.mpr ⟨answer, rfl, rfl⟩⟩)

/-- A snapshot is not taken because the record is gone, or with the error that the store has
answered. -/
theorem Records.gone_of_raises {m : Machine} {past log : List Event} {e : Error}
    (h : Records m past log (.error e)) (raises : Raises log e) :
    e = .recordGone m.namespaceText m.metadata.nameOrStem := by
  cases h with
  | unread => exact absurd (.read _ _ e) (raises _ List.mem_cons_self)
  | gone => rfl
  | written => exact absurd (.write _ e) (raises _ List.mem_cons_self)

end NodeProvisioner
