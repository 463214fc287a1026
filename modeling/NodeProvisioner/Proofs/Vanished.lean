import NodeProvisioner.Proofs.Calls.Logs
import NodeProvisioner.Proofs.Kube.Exchanges

/-!
# Records that are gone

A record may be gone by the time it is read, or by the time it is replaced. The API server says so
in a failure, which has a code and a reason. A writer goes by the code, and a reader by the reason:
so they agree on a failure that has both, and not on one that has the code alone. A response that
does not describe its failure has only the code.

Main statement: `ApiServer.vanished_iff`.
-/

namespace NodeProvisioner

open Program (logging)

/-- The response says that a request has failed, and this is how it describes the failure. -/
def HttpResponse.Reports (response : HttpResponse) (f : ApiFailure) : Prop :=
  response.isFailure = true ∧ response.failure = f

namespace HttpResponse.Reports

variable {response : HttpResponse} {f : ApiFailure} (h : response.Reports f)

include h

theorem resource {α : Type} (codec : Codec α) : response.resource codec = .error (.api f) := by
  rw [HttpResponse.resource, if_pos h.1, h.2]

/-- A reader goes by the reason of the failure. -/
theorem found : KubeRecords.found (.ok response)
    = if f.reason = "NotFound" then .ok none else .error (.kube (.api f)) := by
  have result : machines.result (.ok response) = .error (.api f) := h.resource Codec.machine
  rw [KubeRecords.found, result]

/-- A writer goes by its code. -/
theorem kept (m : Machine) : KubeRecords.kept m (.ok response)
    = .error ((KubeError.api f).ofWrite m.namespaceText m.metadata.nameOrStem) := by
  have result : machines.result (.ok response) = .error (.api f) := h.resource Codec.machine
  rw [KubeRecords.kept, result]
  rfl

/-- A response that does not describe its failure has its status for a code, and a reason that
stands for any. -/
theorem undescribed
    (plain : (Json.readDocument Codec.apiFailure.read response.body).toOption = none) :
    f.code = UInt16.ofNat response.status ∧ f.reason ≠ "NotFound" := by
  obtain ⟨-, rfl⟩ := h
  unfold failure
  cases described : Json.readDocument Codec.apiFailure.read response.body with
  | ok described' =>
    rw [described] at plain
    cases plain
  | error e =>
    have other : "Failed to parse error data" ≠ "NotFound" := by decide
    exact ⟨rfl, other⟩

end HttpResponse.Reports

/-- A request of this method has been answered with the response. -/
def Answered (log : List (Sigma Effect.Answer)) (method : HttpMethod) (response : HttpResponse) :
    Prop :=
  ∃ request : HttpRequest, request.method = method ∧
    (⟨.request request, Except.ok response⟩ : Sigma Effect.Answer) ∈ log

theorem not_answered_nil {method : HttpMethod} {response : HttpResponse} :
    ¬ Answered [] method response := by
  rintro ⟨_, _, mem⟩
  cases mem

theorem answered_cons_iff {request : HttpRequest} {answer : request.Answer}
    {log : List (Sigma Effect.Answer)} {method : HttpMethod} {response : HttpResponse} :
    Answered (⟨.request request, answer⟩ :: log) method response ↔
      (request.method = method ∧ answer = Except.ok response) ∨ Answered log method response := by
  constructor
  · rintro ⟨other, asked, mem⟩
    rcases List.mem_cons.mp mem with same | earlier
    · cases same
      exact .inl ⟨asked, rfl⟩
    · exact .inr ⟨other, asked, earlier⟩
  · rintro (⟨asked, rfl⟩ | ⟨other, asked, mem⟩)
    · exact ⟨request, asked, List.mem_cons_self⟩
    · exact ⟨other, asked, List.mem_cons_of_mem _ mem⟩

namespace ApiServer

variable {s : ApiServer} {response : HttpResponse} {f : ApiFailure} {log : List (Sigma Effect.Answer)}

/-- The reading of a record that the API server reports a failure of. -/
theorem read_reported (byApi : s.records = true) (reported : response.Reports f)
    {namespaceText name : String} {r : Option (Except Error (Option Machine))}
    (h : (s.carry (.readRecord namespaceText name)).Ends logging [] r log)
    (answered : Answered log .get response) :
    r = some (if f.reason = "NotFound" then .ok none else .error (.kube (.api f))) := by
  rcases ends_carry_read byApi h with ⟨rfl, _⟩ | ⟨path, answer, rule, rfl⟩
  · exact absurd answered not_answered_nil
  · rw [show log = _ from rule] at answered
    rcases answered_cons_iff.mp answered with ⟨_, rfl⟩ | none
    · rw [reported.found]
    · exact absurd none not_answered_nil

/-- The writing of a record that the API server reports a failure of. -/
theorem write_reported (byApi : s.records = true) (reported : response.Reports f) {m : Machine}
    {r : Option (Except Error Machine)}
    (h : (s.carry (.writeRecord m)).Ends logging [] r log)
    (answered : Answered log .put response) :
    r = some (.error ((KubeError.api f).ofWrite m.namespaceText m.metadata.nameOrStem)) := by
  rcases ends_carry_write byApi h with ⟨rfl, _⟩ | ⟨path, answer, rule, rfl⟩
  · exact absurd answered not_answered_nil
  · rw [show log = _ from rule] at answered
    rcases answered_cons_iff.mp answered with ⟨_, rfl⟩ | none
    · rw [reported.kept]
    · exact absurd none not_answered_nil

theorem ofWrite_gone {ns name : String} (code : f.code = 404) :
    (KubeError.api f).ofWrite ns name = .recordGone ns name := by
  have other : ¬ f.code = 409 := by
    rw [code]
    decide
  rw [KubeError.ofWrite, if_neg other, if_pos code]

theorem ofWrite_conflict {ns name : String} (code : f.code = 409) :
    (KubeError.api f).ofWrite ns name = .conflict ns name := if_pos code

/-- **Recordings whose reading fails** end as the reason says. -/
theorem record_reported_read (byApi : s.records = true) (reported : response.Reports f)
    {m : Machine} {r : Option (Except Error Machine)}
    (h : (s.carryPass (Pass.record m)).Ends logging [] r log)
    (answered : Answered log .get response) :
    r = some (.error (if f.reason = "NotFound" then
      .recordGone m.namespaceText m.metadata.nameOrStem else .kube (.api f))) := by
  obtain ⟨result, rfl, recording⟩ := exists_recording byApi h
  -- whatever follows, it is the one reading that has been answered so
  have own {path : String} {got : Except String HttpResponse}
      (answered : Answered [⟨.request ⟨.get, path, ""⟩, got⟩] .get response) :
      KubeRecords.found got
        = if f.reason = "NotFound" then .ok none else .error (.kube (.api f)) := by
    rcases answered_cons_iff.mp answered with ⟨_, rfl⟩ | none
    · exact reported.found
    · exact absurd none not_answered_nil
  cases recording with
  | unasked => exact absurd answered not_answered_nil
  | unread rule failed =>
    rw [show log = _ from rule] at answered
    rw [own answered] at failed
    split at failed <;> cases failed
    rename_i other
    rw [if_neg other]
  | absent rule none =>
    rw [show log = _ from rule] at answered
    rw [own answered] at none
    split at none <;> cases none
    rename_i same
    rw [if_pos same]
  | unsent rule there =>
    rw [show log = _ from rule] at answered
    rw [own answered] at there
    split at there <;> cases there
  | replaced rule there rule' =>
    cases rule
    rw [show log = _ from rule'] at answered
    rcases answered_cons_iff.mp answered with ⟨asked, _⟩ | earlier
    · cases asked
    · rw [own earlier] at there
      split at there <;> cases there

/-- **A record is replaced only after it has been read**, and then it is the answer to the second
request that counts. -/
theorem record_replaces (byApi : s.records = true) {m : Machine}
    {r : Option (Except Error Machine)}
    (h : (s.carryPass (Pass.record m)).Ends logging [] r log) {put : HttpRequest}
    {answer : put.Answer} (isPut : put.method = .put) (sent : ⟨.request put, answer⟩ ∈ log) :
    ∃ got stored, Answered log .get got ∧ got.resource Codec.machine = .ok stored ∧
      r = some (KubeRecords.kept (stored.withSnapshot m) answer) := by
  obtain ⟨result, rfl, recording⟩ := exists_recording byApi h
  cases recording with
  | unasked => cases sent
  | unread rule | absent rule | unsent rule =>
    rw [show log = _ from rule] at sent
    cases List.mem_singleton.mp sent
    cases isPut
  | replaced rule there rule' =>
    cases rule
    rw [show log = _ from rule'] at sent ⊢
    obtain ⟨got, rfl, resource⟩ := KubeRecords.resource_of_found there
    rcases List.mem_cons.mp sent with same | earlier
    · cases same
      exact ⟨got, _, answered_cons_iff.mpr (.inr (answered_cons_iff.mpr (.inl ⟨rfl, rfl⟩))),
        resource, rfl⟩
    · cases List.mem_singleton.mp earlier
      cases isPut

/-- **A record that is gone is taken for gone by a writer if the code says so, and by a reader if and
only if the reason does.** A recording reads first, so it comes to its end at once, and for good, if the
reason says so; if only the code does, it fails with an error that may pass. -/
theorem vanished_iff (byApi : s.records = true) (reported : response.Reports f) :
    (∀ (ns name : String) (r : Option (Except Error (Option Machine))) log,
      (s.carry (.readRecord ns name)).Ends logging [] r log → Answered log .get response →
        (r = some (.ok none) ↔ f.reason = "NotFound") ∧
        (f.reason ≠ "NotFound" → r = some (.error (.kube (.api f))))) ∧
    (∀ (m : Machine) (r : Option (Except Error Machine)) log,
      (s.carry (.writeRecord m)).Ends logging [] r log → Answered log .put response →
        (f.code = 404 → r = some (.error (.recordGone m.namespaceText m.metadata.nameOrStem))) ∧
        (f.code = 409 → r = some (.error (.conflict m.namespaceText m.metadata.nameOrStem)))) ∧
    (∀ (m : Machine) (r : Option (Except Error Machine)) log,
      (s.carryPass (Pass.record m)).Ends logging [] r log →
        (Answered log .get response →
          (r = some (.error (.recordGone m.namespaceText m.metadata.nameOrStem)) ↔
            f.reason = "NotFound") ∧
          (f.reason ≠ "NotFound" → r = some (.error (.kube (.api f))))) ∧
        (∀ (put : HttpRequest) (answer : put.Answer), put.method = .put →
          ⟨.request put, answer⟩ ∈ log →
            ∃ got stored, Answered log .get got ∧ got.resource Codec.machine = .ok stored ∧
              (answer = Except.ok response → f.code = 404 →
                r = some (.error (.recordGone stored.namespaceText stored.metadata.nameOrStem))) ∧
              (answer = Except.ok response → f.code = 409 →
                r = some (.error (.conflict stored.namespaceText stored.metadata.nameOrStem))))) ∧
    (∀ ns name, (Error.recordGone ns name).isRetryable = false) ∧
    (Error.kube (.api f)).isRetryable = true ∧
    ((Json.readDocument Codec.apiFailure.read response.body).toOption = none →
      f.code = UInt16.ofNat response.status ∧ f.reason ≠ "NotFound") := by
  refine ⟨fun ns name r log h answered => ?_, fun m r log h answered => ⟨fun code => ?_,
    fun code => ?_⟩, fun m r log h => ⟨fun answered => ?_, fun put answer isPut sent => ?_⟩,
    fun _ _ => rfl, rfl, reported.undescribed⟩
  · rw [read_reported byApi reported h answered]
    by_cases reason : f.reason = "NotFound"
    · simp [reason]
    · simp [reason]
  · rw [write_reported byApi reported h answered, ofWrite_gone code]
  · rw [write_reported byApi reported h answered, ofWrite_conflict code]
  · rw [record_reported_read byApi reported h answered]
    by_cases reason : f.reason = "NotFound"
    · simp [reason]
    · simp [reason]
  · obtain ⟨got, stored, asked, resource, rfl⟩ := record_replaces byApi h isPut sent
    refine ⟨got, stored, asked, resource, fun same code => ?_, fun same code => ?_⟩
    · rw [same, reported.kept, ofWrite_gone code]
      rfl
    · rw [same, reported.kept, ofWrite_conflict code]
      rfl

end ApiServer

/-! ## A failure that is not described -/

/-- A page that is not there, at a server that does not describe its failures. -/
def pageNotFound : HttpResponse := ⟨404, "404 page not found\n"⟩

/-- What stands for the description. -/
def pageFailure : ApiFailure where
  status := "404 Not Found"
  message := "\"404 page not found\\n\""
  reason := "Failed to parse error data"
  code := 404

theorem reports_pageNotFound : pageNotFound.Reports pageFailure := by
  refine ⟨rfl, ?_⟩
  decide +kernel

/-- The API server keeps the records of the machines. -/
def keepsRecords : ApiServer where
  records := true
  issuer := none
  now := ⟨0, 0⟩
  blocks := []

/-- A machine with a name, and no more. -/
def bareWorker : Machine := { metadata := { name := some "worker", namespaceName := some "default" } }

/-- A request for the record of the machine. -/
def requestOfWorker (method : HttpMethod) (body : String) : HttpRequest :=
  ⟨method, "/apis/cluster.k8s.io/v1alpha1/namespaces/default/machines/worker", body⟩

/-- The one request of the log has been answered so. -/
def pageLog (method : HttpMethod) (body : String) : List (Sigma Effect.Answer) :=
  [⟨.request (requestOfWorker method body), Except.ok pageNotFound⟩]

theorem answered_pageLog (method : HttpMethod) (body : String) :
    Answered (pageLog method body) method pageNotFound :=
  answered_cons_iff.mpr (.inl ⟨rfl, rfl⟩)

namespace ApiServer

/-- The text of the machine. -/
def workerText : String := (Codec.machine.write bareWorker).print

theorem ends_read_page : ∃ r, (keepsRecords.carry (.readRecord "default" "worker")).Ends logging []
    r (pageLog .get "") :=
  ⟨_, Except.ok pageNotFound, _, rfl, rfl, rfl⟩

theorem ends_write_page : ∃ r, (keepsRecords.carry (.writeRecord bareWorker)).Ends logging [] r
    (pageLog .put workerText) :=
  ⟨_, Except.ok pageNotFound, _, rfl, rfl, rfl⟩

theorem ends_record_page : ∃ r, (keepsRecords.carryPass (Pass.record bareWorker)).Ends logging [] r
    (pageLog .get "") :=
  ⟨_, Except.ok pageNotFound, _, rfl, rfl, rfl⟩

/-- Of the page that is not there, a writer makes a record that is gone, and a reader and a recording
make an error that may pass. -/
theorem vanished_iff_of_page :
    pageNotFound.Reports pageFailure ∧ pageFailure.code = 404 ∧ pageFailure.reason ≠ "NotFound" ∧
    (keepsRecords.carry (.readRecord "default" "worker")).Ends logging []
      (some (.error (.kube (.api pageFailure)))) (pageLog .get "") ∧
    (keepsRecords.carry (.writeRecord bareWorker)).Ends logging []
      (some (.error (.recordGone "default" "worker"))) (pageLog .put workerText) ∧
    (keepsRecords.carryPass (Pass.record bareWorker)).Ends logging []
      (some (.error (.kube (.api pageFailure)))) (pageLog .get "") := by
  obtain ⟨reading, writing, recording, -, -, -⟩ :=
    vanished_iff (s := keepsRecords) rfl reports_pageNotFound
  have other : pageFailure.reason ≠ "NotFound" := by decide
  obtain ⟨r, reads⟩ := ends_read_page
  obtain ⟨r', writes⟩ := ends_write_page
  obtain ⟨r'', records⟩ := ends_record_page
  refine ⟨reports_pageNotFound, rfl, other, ?_, ?_, ?_⟩
  · rwa [(reading _ _ r _ reads (answered_pageLog _ _)).2 other] at reads
  · rwa [(writing _ r' _ writes (answered_pageLog _ _)).1 rfl] at writes
  · rwa [((recording _ r'' _ records).1 (answered_pageLog _ _)).2 other] at records

/-- The failure has the code of what is not there, and yet the record is not found to be absent when
it is read, nor to be gone when a recording reads it. -/
theorem not_vanished : ∃ f : ApiFailure, pageNotFound.Reports f ∧ f.code = 404 ∧
    ¬ (keepsRecords.carry (.readRecord "default" "worker")).Ends logging []
        (some (Except.ok none : Except Error (Option Machine))) (pageLog .get "") ∧
    (keepsRecords.carryPass (Pass.record bareWorker)).Ends logging []
      (some (.error (.kube (.api f)))) (pageLog .get "") ∧
    (Error.kube (.api f)).isRetryable = true := by
  refine ⟨pageFailure, reports_pageNotFound, rfl, fun h => ?_, ?_, rfl⟩
  · have read := read_reported rfl reports_pageNotFound h (answered_pageLog _ _)
    cases read
  · obtain ⟨r, records⟩ := ends_record_page
    have read := record_reported_read rfl reports_pageNotFound records (answered_pageLog _ _)
    rwa [read] at records

end ApiServer

end NodeProvisioner
