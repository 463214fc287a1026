import NodeProvisioner.Proofs.Codec.Records
import NodeProvisioner.Proofs.Runs.Ends
import NodeProvisioner.Provisioner

/-!
# Exchanges with the API server

An operation on a collection sends at most one request. If it sends none, it fails; otherwise it
ends as the answer says. The rules leave open what the API server answers.

Main statements: `ends_send_iff` for collections, `ends_read` and `ends_write` for the records that are
kept in one, and `exists_recording` for the recording of a snapshot, which does one after the other.
-/

namespace NodeProvisioner

open Program (Rules Ends ends_bind ends_perform ends_exceptBind ends_exceptOf ends_exceptOf_bind)

variable {α σ : Type}

/-- Requests that are effects end as requests. -/
theorem Effect.ends_ofRequests {rules : Rules Effect.Answer σ} (p : Program HttpRequest.Answer α)
    {s t : σ} {r : Option α} : (Effect.ofRequests p).Ends rules s r t ↔
      p.Ends (fun request => rules (.request request)) s r t := by
  induction p generalizing s with
  | done a => exact Iff.rfl
  | abort => exact Iff.rfl
  | call request next ih =>
    exact exists_congr fun answer => exists_congr fun u => and_congr_right fun _ => ih answer

/-- A resource has been read from the document of the response. -/
theorem HttpResponse.read_of_resource {codec : Codec α} {response : HttpResponse} {a : α}
    (h : response.resource codec = .ok a) :
    codec.read (Json.document response.body).1 = .ok a := by
  rw [HttpResponse.resource] at h
  split at h
  · cases h
  · obtain ⟨value, read, ended⟩ := bind_eq_ok_iff.mp (mapError_eq_ok_iff.mp h)
    split at ended
    · cases ended
      exact read
    · cases ended

/-- No request has been sent. -/
def KubeError.IsUnsent : KubeError → Prop
  | emptyName | invalidUri | longUri => True
  | _ => False

variable {rules : Rules HttpRequest.Answer σ} {s t : σ}

namespace Collection

variable {c : Collection α}

/-- What an answer says of the resource asked for. -/
def result (c : Collection α) (answer : Except String HttpResponse) : Except KubeError α :=
  match answer with
  | .error message => .error (.transport message)
  | .ok response => response.resource c.codec

/-- A request carries its method and its body to the path of the target. -/
theorem request_eq_ok_iff {method : HttpMethod} {target body : String} {request : HttpRequest} :
    Collection.request method target body = .ok request ↔
      target.utf8ByteSize ≤ Target.maxSize ∧
        ∃ path, Target.path? target = some path ∧ request = ⟨method, path, body⟩ := by
  rw [Collection.request]
  split
  · rename_i long
    exact ⟨nofun, fun ⟨fits, _⟩ => absurd fits (Nat.not_le_of_lt long)⟩
  · rename_i fits
    cases Target.path? target with
    | none => exact ⟨nofun, nofun⟩
    | some path =>
      constructor
      · rintro ⟨⟩
        exact ⟨Nat.le_of_not_lt fits, path, rfl, rfl⟩
      · rintro ⟨_, _, ⟨⟩, rfl⟩
        rfl

/-- A request is refused if its target is too long, or has a character out of place. -/
theorem refused_of_request {method : HttpMethod} {target body : String} {e : KubeError}
    (h : Collection.request method target body = .error e) :
    Target.maxSize < target.utf8ByteSize ∨ Target.path? target = none := by
  by_cases long : Target.maxSize < target.utf8ByteSize
  · exact .inl long
  · cases eq : Target.path? target with
    | none => exact .inr rfl
    | some path =>
      have sent : Collection.request method target body = .ok ⟨method, path, body⟩ :=
        request_eq_ok_iff.mpr ⟨Nat.le_of_not_lt long, path, eq, rfl⟩
      cases h.symm.trans sent

/-- A request that can be sent is answered, and the result is what the answer says. -/
theorem ends_send_iff {method : HttpMethod} {target body : String}
    {r : Option (Except KubeError α)} : (c.send method target body).run.Ends rules s r t ↔
      (∃ e, Collection.request method target body = .error e ∧ r = some (.error e) ∧ t = s) ∨
        ∃ request answer, Collection.request method target body = .ok request ∧
          rules request s answer t ∧ r = some (c.result answer) := by
  constructor
  · intro h
    obtain ⟨request, eq, answer, u, rule, h⟩ | refused := ends_exceptOf_bind.mp h
    · refine .inr ⟨request, answer, eq, ?_⟩
      cases answer with
      | error message =>
        obtain ⟨rfl, rfl⟩ := h
        exact ⟨rule, rfl⟩
      | ok response =>
        obtain ⟨rfl, rfl⟩ := ends_exceptOf.mp h
        exact ⟨rule, rfl⟩
    · exact .inl refused
  · rintro (refused | ⟨request, answer, eq, rule, rfl⟩)
    · exact ends_exceptOf_bind.mpr (.inr refused)
    · refine ends_exceptOf_bind.mpr (.inl ⟨request, eq, answer, t, rule, ?_⟩)
      cases answer with
      | error message => exact ⟨rfl, rfl⟩
      | ok response => exact ends_exceptOf.mpr ⟨rfl, rfl⟩

/-- A request that is refused has not been sent. -/
theorem isUnsent_of_request {method : HttpMethod} {target body : String} {e : KubeError}
    (h : Collection.request method target body = .error e) : e.IsUnsent := by
  rw [Collection.request] at h
  split at h
  · cases h
    trivial
  · split at h <;> cases h
    trivial

/-- **One request is sent, and its answer is the result, or none is.** -/
theorem ends_send {method : HttpMethod} {target body : String} {r : Option (Except KubeError α)}
    (h : (c.send method target body).run.Ends rules s r t) :
    (t = s ∧ ∃ e, e.IsUnsent ∧ r = some (.error e)) ∨
      ∃ path answer, rules ⟨method, path, body⟩ s answer t ∧ r = some (c.result answer) := by
  obtain ⟨e, eq, rfl, rfl⟩ | ⟨request, answer, eq, rule, rfl⟩ := ends_send_iff.mp h
  · exact .inl ⟨rfl, e, isUnsent_of_request eq, rfl⟩
  · obtain ⟨_, path, _, rfl⟩ := request_eq_ok_iff.mp eq
    exact .inr ⟨path, answer, rule, rfl⟩

/-- A request for a resource, which has to have a name. -/
theorem ends_resource {method : HttpMethod} {namespaceText name body : String}
    {r : Option (Except KubeError α)}
    (h : (do
      let target ← MonadExcept.ofExcept (c.resourceTarget namespaceText name)
      c.send method target body : Exchange α).run.Ends rules s r t) :
    (t = s ∧ ∃ e, e.IsUnsent ∧ r = some (.error e)) ∨
      ∃ path answer, rules ⟨method, path, body⟩ s answer t ∧ r = some (c.result answer) := by
  obtain ⟨target, _, h⟩ | ⟨e, eq, rfl, rfl⟩ := ends_exceptOf_bind.mp h
  · exact ends_send h
  · refine .inl ⟨rfl, e, ?_, rfl⟩
    rw [resourceTarget] at eq
    split at eq <;> cases eq
    trivial

end Collection

namespace KubeRecords

/-- What the answer to a reading says: where a failure says that there is no record, there is
none. -/
def found (answer : Except String HttpResponse) : Except Error (Option Machine) :=
  match machines.result answer with
  | .ok m => .ok (some m)
  | .error (.api failure) =>
    if failure.reason = "NotFound" then .ok none else .error (.kube (.api failure))
  | .error e => .error (.kube e)

/-- What the answer to a writing of the record says. -/
def kept (m : Machine) (answer : Except String HttpResponse) : Except Error Machine :=
  (machines.result answer).mapError (·.ofWrite m.namespaceText m.metadata.nameOrStem)

/-- A record that is found is the resource of the response. -/
theorem resource_of_found {answer : Except String HttpResponse} {m : Machine}
    (h : found answer = .ok (some m)) :
    ∃ response, answer = .ok response ∧ response.resource Codec.machine = .ok m := by
  unfold found at h
  split at h
  · rename_i n result
    cases h
    cases answer with
    | error message => cases result
    | ok response => exact ⟨response, rfl, result⟩
  · split at h <;> cases h
  · cases h

/-- **A record is read by one request, and the answer says what is found**, unless the request
cannot be sent. -/
theorem ends_read {namespaceText name : String} {r : Option (Except Error (Option Machine))}
    (h : (read namespaceText name).Ends rules s r t) :
    (t = s ∧ ∃ e, r = some (.error (.kube e))) ∨
      ∃ path answer, rules ⟨.get, path, ""⟩ s answer t ∧ r = some (found answer) := by
  obtain ⟨_, _, asked, rfl, rfl⟩ | ⟨rfl, asked⟩ := (ends_bind _ _).mp h
  · obtain ⟨own, _, sent, eq, rfl⟩ | ⟨none, _⟩ := (ends_bind _ _).mp asked
    · cases eq
      obtain ⟨rfl, e, unsent, eq⟩ | ⟨path, answer, rule, eq⟩ := Collection.ends_resource sent
      · cases eq
        cases e with
        | emptyName | invalidUri | longUri => exact .inl ⟨rfl, _, rfl⟩
        | _ => cases unsent
      · cases eq
        refine .inr ⟨path, answer, rule, ?_⟩
        unfold found
        rcases machines.result answer with e | m
        · cases e with
          | api failure =>
            simp only
            split <;> rfl
          | _ => rfl
        · rfl
    · cases none
  · obtain ⟨_, _, _, none, _⟩ | ⟨_, sent⟩ := (ends_bind _ _).mp asked
    · cases none
    · obtain ⟨_, _, _, none⟩ | ⟨_, _, _, none⟩ := Collection.ends_resource sent <;> cases none

/-- **A record is written by one request, which carries its text, and the answer says what has been
kept**, unless the request cannot be sent. -/
theorem ends_write {m : Machine} {r : Option (Except Error Machine)}
    (h : (write m).Ends rules s r t) :
    (t = s ∧ ∃ e, r = some (.error (.kube e))) ∨
      ∃ path answer, rules ⟨.put, path, (Codec.machine.write m).print⟩ s answer t ∧
        r = some (kept m answer) := by
  obtain ⟨_, _, sent, rfl, rfl⟩ | ⟨rfl, sent⟩ := (ends_bind _ _).mp h
  · obtain ⟨rfl, e, unsent, eq⟩ | ⟨path, answer, rule, eq⟩ := Collection.ends_resource sent
    · cases eq
      cases e with
      | emptyName | invalidUri | longUri => exact .inl ⟨rfl, _, rfl⟩
      | _ => cases unsent
    · cases eq
      exact .inr ⟨path, answer, rule, rfl⟩
  · obtain ⟨_, _, _, none⟩ | ⟨_, _, _, none⟩ := Collection.ends_resource sent <;> cases none

end KubeRecords

namespace ApiServer

open KubeRecords

/-- How a recording may go at the API server: the record is read and, if there is one, replaced. A
request that cannot be sent ends it. -/
inductive Recording (rules : Rules Effect.Answer σ) (observed : Machine) (w : σ) :
    Except Error Machine → σ → Prop
  | unasked {e : KubeError} : Recording rules observed w (.error (.kube e)) w
  | unread {path : String} {got : Except String HttpResponse} {u : σ} {e : Error}
      (rule : rules (.request ⟨.get, path, ""⟩) w got u) (failed : found got = .error e) :
      Recording rules observed w (.error e) u
  | absent {path : String} {got : Except String HttpResponse} {u : σ}
      (rule : rules (.request ⟨.get, path, ""⟩) w got u) (none : found got = .ok none) :
      Recording rules observed w
        (.error (.recordGone observed.namespaceText observed.metadata.nameOrStem)) u
  | unsent {path : String} {got : Except String HttpResponse} {u : σ} {stored : Machine}
      {e : KubeError} (rule : rules (.request ⟨.get, path, ""⟩) w got u)
      (there : found got = .ok (some stored)) : Recording rules observed w (.error (.kube e)) u
  | replaced {path path' : String} {got put : Except String HttpResponse} {u w' : σ}
      {stored : Machine} (rule : rules (.request ⟨.get, path, ""⟩) w got u)
      (there : found got = .ok (some stored))
      (rule' : rules (.request
        ⟨.put, path', (Codec.machine.write (stored.withSnapshot observed)).print⟩) u put w') :
      Recording rules observed w (kept (stored.withSnapshot observed) put) w'

variable {s : ApiServer} (byApi : s.records = true) {rules : Rules Effect.Answer σ} {w w' : σ}

include byApi

theorem ends_carry_read {namespaceText name : String} {r : Option (Except Error (Option Machine))}
    (h : (s.carry (.readRecord namespaceText name)).Ends rules w r w') :
    (w' = w ∧ ∃ e, r = some (.error (.kube e))) ∨
      ∃ path answer, rules (.request ⟨.get, path, ""⟩) w answer w' ∧ r = some (found answer) := by
  have same : s.carry (.readRecord namespaceText name)
      = Effect.ofRequests (KubeRecords.read namespaceText name) := if_pos byApi
  rw [same] at h
  exact ends_read ((Effect.ends_ofRequests _).mp h)

theorem ends_carry_write {m : Machine} {r : Option (Except Error Machine)}
    (h : (s.carry (.writeRecord m)).Ends rules w r w') :
    (w' = w ∧ ∃ e, r = some (.error (.kube e))) ∨
      ∃ path answer, rules (.request ⟨.put, path, (Codec.machine.write m).print⟩) w answer w' ∧
        r = some (kept m answer) := by
  have same : s.carry (.writeRecord m) = Effect.ofRequests (KubeRecords.write m) := if_pos byApi
  rw [same] at h
  exact ends_write ((Effect.ends_ofRequests _).mp h)

/-- **Every recording at the API server goes in one of these ways.** -/
theorem exists_recording {observed : Machine} {r : Option (Except Error Machine)}
    (h : (s.carryPass (Pass.record observed)).Ends rules w r w') :
    ∃ result, r = some result ∧ Recording rules observed w result w' := by
  obtain ⟨got, u, first, rest⟩ | ⟨rfl, first⟩ := (ends_bind (s.carry _) _).mp h
  · obtain ⟨rfl, e, eq⟩ | ⟨path, answer, rule, eq⟩ := ends_carry_read byApi first
    · cases eq
      obtain ⟨rfl, rfl⟩ := rest
      exact ⟨_, rfl, .unasked⟩
    · obtain eq := Option.some.inj eq
      subst eq
      match eq : found answer with
      | .error e =>
        rw [eq] at rest
        obtain ⟨rfl, rfl⟩ := rest
        exact ⟨_, rfl, .unread rule eq⟩
      | .ok none =>
        rw [eq] at rest
        obtain ⟨rfl, rfl⟩ := rest
        exact ⟨_, rfl, .absent rule eq⟩
      | .ok (some stored) =>
        rw [eq] at rest
        obtain ⟨put, _, second, rfl, rfl⟩ | ⟨rfl, second⟩ := (ends_bind (s.carry _) _).mp rest
        · obtain ⟨rfl, e, none⟩ | ⟨path', put, rule', none⟩ := ends_carry_write byApi second
          · cases none
            exact ⟨_, rfl, .unsent rule eq⟩
          · cases none
            exact ⟨_, rfl, .replaced rule eq rule'⟩
        · obtain ⟨_, _, none⟩ | ⟨_, _, _, none⟩ := ends_carry_write byApi second <;> cases none
  · obtain ⟨_, _, none⟩ | ⟨_, _, _, none⟩ := ends_carry_read byApi first <;> cases none

/-- A recording at the API server reads the record, and replaces no other one than what it has
read. -/
theorem ends_record {observed : Machine} {r : Option (Except Error Machine)}
    (h : (s.carryPass (Pass.record observed)).Ends rules w r w') :
    (w' = w ∨ ∃ path got, rules (.request ⟨.get, path, ""⟩) w got w') ∨
      ∃ path response stored between path' got,
        rules (.request ⟨.get, path, ""⟩) w (.ok response) between ∧
        response.resource Codec.machine = .ok stored ∧
        rules (.request
            ⟨.put, path', (Codec.machine.write (stored.withSnapshot observed)).print⟩)
          between got w' := by
  obtain ⟨_, _, recording⟩ := exists_recording byApi h
  cases recording with
  | unasked => exact .inl (.inl rfl)
  | unread rule | absent rule | unsent rule => exact .inl (.inr ⟨_, _, rule⟩)
  | replaced rule there rule' =>
    obtain ⟨response, rfl, resource⟩ := resource_of_found there
    exact .inr ⟨_, response, _, _, _, _, rule, resource, rule'⟩

end ApiServer

end NodeProvisioner
