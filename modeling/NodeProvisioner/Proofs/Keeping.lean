import NodeProvisioner.Proofs.Calls.Logs
import NodeProvisioner.Proofs.Json.Reading
import NodeProvisioner.Proofs.Keeping.Records
import NodeProvisioner.Proofs.Kube.Exchanges

/-!
# What a recording keeps of the stored record

To put a snapshot onto a record at the API server, a pass reads the record, and replaces it by what
the codec of machines writes. What others have written into the record stays where the codec knows
the place: where it does not, or leaves a value out because it is empty, or has a text of its own for
the header, it is lost.

Main statement: `record_keeps_iff`.
-/

namespace NodeProvisioner

/-! ## The shapes of machines -/

namespace Shape

def managedFields : Shape :=
  .record [("apiVersion", .value), ("fieldsType", .value), ("fieldsV1", .value),
    ("manager", .value), ("operation", .value), ("subresource", .value), ("time", .time)]

def ownerReference : Shape :=
  .record [("apiVersion", .value), ("blockOwnerDeletion", .value), ("controller", .value),
    ("kind", .value), ("name", .value), ("uid", .value)]

/-- The metadata, with the annotations that are for others to change. -/
def objectMeta (free : List String) : Shape :=
  .record [("annotations", .dict free), ("creationTimestamp", .time),
    ("deletionGracePeriodSeconds", .value), ("deletionTimestamp", .time),
    ("finalizers", .list .value), ("generateName", .value), ("generation", .value),
    ("labels", .dict []), ("managedFields", .list managedFields), ("name", .value),
    ("namespace", .value), ("ownerReferences", .list ownerReference),
    ("resourceVersion", .value), ("selfLink", .value), ("uid", .value)]

def machineSpec : Shape :=
  .record [("providerSpec", .record [("value", .value)]),
    ("versions", .record [("kubelet", .value), ("controlPlane", .nonempty .value)]),
    ("providerID", .value)]

def machineStatus : Shape :=
  .record [("addresses", .nonempty (.list (.record [("type", .value), ("address", .value)]))),
    ("phase", .value), ("errorReason", .value), ("errorMessage", .value)]

/-- A machine at the API server, with an annotation that is for a snapshot. -/
def machine : Shape :=
  .record [("apiVersion", .fixed apiVersion), ("kind", .fixed "Machine"),
    ("metadata", objectMeta [snapshotKey]), ("spec", machineSpec), ("status", machineStatus)]

end Shape

namespace Codec

open Member

/-! ## Metadata -/

theorem holds_managedFields (f : ManagedFields) : managedFields.Holds .managedFields f f := by
  refine holds_record rfl (by decide) (fun _ => rfl) ?_
  exact ⟨rfl, holds_optionalSame holds_text, rfl, holds_optionalSame holds_text,
    rfl, holds_optionalSame holds_any, rfl, holds_optionalSame holds_text,
    rfl, holds_optionalSame holds_text, rfl, holds_optionalSame holds_text,
    rfl, holds_optionalSame holds_timestamp, rfl⟩

theorem holds_ownerReference (o : OwnerReference) : ownerReference.Holds .ownerReference o o := by
  refine holds_record rfl (by decide) (fun _ => rfl) ?_
  exact ⟨rfl, holds_blank (holds_text _), rfl, holds_optionalSame holds_bool,
    rfl, holds_optionalSame holds_bool, rfl, holds_blank (holds_text _),
    rfl, holds_blank (holds_text _), rfl, holds_blank (holds_text _), rfl⟩

/-- Annotated metadata hold all but the annotation. -/
theorem holds_objectMeta (m : ObjectMeta) (key value : String) :
    objectMeta.Holds (.objectMeta [key]) m (m.annotate key value) := by
  refine holds_record rfl (by decide) (fun _ => rfl) ?_
  refine ⟨rfl, holds_optional ?_, rfl, holds_optionalSame holds_timestamp,
    rfl, holds_optionalSame holds_int64, rfl, holds_optionalSame holds_timestamp,
    rfl, holds_optionalSame fun _ => holds_list fun s _ => holds_text s,
    rfl, holds_optionalSame holds_text, rfl, holds_optionalSame holds_int64,
    rfl, holds_optionalSame fun _ => holds_dict (fun _ _ => rfl) (List.forall_mem_nil _),
    rfl, holds_optionalSame fun _ => holds_list fun f _ => holds_managedFields f,
    rfl, holds_optionalSame holds_text, rfl, holds_optionalSame holds_text,
    rfl, holds_optionalSame fun _ => holds_list fun o _ => holds_ownerReference o,
    rfl, holds_optionalSame holds_text, rfl, holds_optionalSame holds_text,
    rfl, holds_optionalSame holds_text, rfl⟩
  intro annotations eq
  refine ⟨_, rfl, holds_dict ?_ ?_⟩
  · intro name other
    rw [eq, Option.getD_some, StringMap.get?_insert, if_neg (List.ne_of_not_mem_cons other)]
  · intro name mem
    rw [List.mem_singleton.mp mem, StringMap.get?_insert, if_pos rfl]
    rfl

/-! ## Specs and states -/

theorem holds_machineSpec (s : MachineSpec) : machineSpec.Holds .machineSpec s s := by
  have provider : providerSpec.Holds (.record [("value", .value)]) s.providerSpec s.providerSpec :=
    holds_record rfl (by decide) (fun _ => rfl) ⟨rfl, holds_optionalSame holds_any, rfl⟩
  have versions : versions.Holds
      (.record [("kubelet", .value), ("controlPlane", .nonempty .value)]) s.versions s.versions := by
    refine holds_record rfl (by decide) (fun _ => rfl) ?_
    refine ⟨rfl, holds_defaulted (holds_text _), rfl, holds_omitted (holds_text _) ?_, rfl⟩
    intro n unspelled read
    exact isEmpty_of_read_text unspelled read
  refine holds_record rfl (by decide) (fun _ => rfl) ?_
  exact ⟨rfl, holds_defaulted provider, rfl, holds_defaulted versions,
    rfl, holds_optionalSame holds_text, rfl⟩

theorem holds_machineStatus (s : MachineStatus) : machineStatus.Holds .machineStatus s s := by
  have address (a : MachineAddress) : machineAddress.Holds
      (.record [("type", .value), ("address", .value)]) a a :=
    holds_record rfl (by decide) (fun _ => rfl)
      ⟨rfl, holds_required (holds_text _), rfl, holds_required (holds_text _), rfl⟩
  refine holds_record rfl (by decide) (fun _ => rfl) ?_
  refine ⟨rfl, holds_omitted (holds_list fun a _ => address a) ?_,
    rfl, holds_optionalSame holds_text, rfl, holds_optionalSame holds_text,
    rfl, holds_optionalSame holds_text, rfl⟩
  intro n unspelled read
  exact isEmpty_of_read_list unspelled read

/-! ## Machines -/

/-- **A machine with a snapshot holds all but its last snapshot.** -/
theorem holds_machine (m observed : Machine) :
    machine.Holds .machine m (m.withSnapshot observed) := by
  refine holds_record rfl (by decide) (fun _ => rfl) ?_
  exact ⟨rfl, holds_required (holds_objectMeta _ _ _), rfl, holds_required (holds_machineSpec _),
    rfl, holds_keyed fun s eq => ⟨s, eq, holds_machineStatus s⟩, rfl⟩

end Codec

/-! ## Recordings -/

/-- **A place of the stored record is kept if and only if machines have such a place.** Whatever
the API server answers, the record is replaced only after it has been read, by the machine that has
been read with the new snapshot. -/
theorem ApiServer.record_keeps_iff {s : ApiServer} (byApi : s.records = true) {observed : Machine}
    {r : Option (Except Error Machine)} {log : List (Sigma Effect.Answer)}
    (h : (s.carryPass (Pass.record observed)).Ends Program.logging [] r log)
    {put : HttpRequest} {answer : put.Answer} (isPut : put.method = .put)
    (sent : ⟨.request put, answer⟩ ∈ log) :
    ∃ get response stored, get.method = .get ∧
      log = [⟨.request put, answer⟩, ⟨.request get, .ok response⟩] ∧
      response.resource Codec.machine = .ok stored ∧
      put.body = (Codec.machine.write (stored.withSnapshot observed)).print ∧
      ∀ path, Shape.machine.Keeps path (Json.document response.body).1
          (Codec.machine.write (stored.withSnapshot observed)) ↔
        Shape.machine.Covers path (Json.document response.body).1 := by
  obtain (rfl | ⟨path, got, rfl⟩) | ⟨path, response, stored, _, path', got, rfl, resource, rfl⟩ :=
    ends_record byApi h
  · cases sent
  · cases List.mem_singleton.mp sent
    cases isPut
  · obtain own | earlier := List.mem_cons.mp sent
    · cases own
      exact ⟨_, response, stored, rfl, rfl, resource, rfl, Codec.holds_machine stored observed _
        (Json.isUnspelled_document _) (HttpResponse.read_of_resource resource)⟩
    · cases List.mem_singleton.mp earlier
      cases isPut

/-- A record with taints, which machines do not know. -/
def taintedRecord : Json :=
  .obj [("metadata", .obj [("name", .str "worker"), ("namespace", .str "default")]),
    ("spec", .obj [("taints", .arr [.str "busy"])])]

/-- The machine that is read from the record. -/
def untainted : Machine := { metadata := { name := some "worker", namespaceName := some "default" } }

/-- The API server keeps the records, and nothing else. -/
def recordsByApi : ApiServer := { records := true, issuer := none, now := ⟨0, 0⟩, blocks := [] }

/-- The request that puts a snapshot onto the record. -/
def taintsReplaced : HttpRequest where
  method := .put
  path := "/apis/cluster.k8s.io/v1alpha1/namespaces/default/machines/worker"
  body := (Codec.machine.write (untainted.withSnapshot untainted)).print

/-- The requests of a recording: the record is read, and replaced. -/
def taintedLog : List (Sigma Effect.Answer) :=
  [⟨.request taintsReplaced, Except.error "closed"⟩,
    ⟨.request ⟨.get, taintsReplaced.path, ""⟩, Except.ok ⟨200, taintedRecord.print⟩⟩]

theorem ends_taintedLog : (recordsByApi.carryPass (Pass.record untainted)).Ends Program.logging []
    (some (.error (.kube (.transport "closed")))) taintedLog :=
  ⟨Except.ok ⟨200, taintedRecord.print⟩, _, rfl, Except.error "closed", _, rfl, rfl, rfl⟩

namespace ApiServer

/-- Of the record with taints, the name is kept, and the taints are not. -/
theorem record_keeps_iff_of_taints : ∃ stored : Machine,
    Shape.machine.Keeps [.member "metadata", .member "name"] (Json.document taintedRecord.print).1
      (Codec.machine.write (stored.withSnapshot untainted)) ∧
    ¬ Shape.machine.Keeps [.member "spec", .member "taints"] (Json.document taintedRecord.print).1
      (Codec.machine.write (stored.withSnapshot untainted)) := by
  obtain ⟨get, response, stored, _, requests, _, _, kept⟩ :=
    record_keeps_iff rfl ends_taintedLog (rfl : taintsReplaced.method = .put) List.mem_cons_self
  cases requests
  refine ⟨stored, (kept _).mpr ?_, fun h => ?_⟩
  · intro name rest v eq there
    cases eq
    cases there
    refine .inr ?_
    intro name rest v eq there
    cases eq
    cases there
    exact .inr trivial
  · have spec := (kept _).mp h
    obtain null | spec := spec "spec" _ _ rfl rfl
    · cases null
    · obtain null | taints := spec "taints" _ _ rfl rfl
      · cases null
      · exact taints

/-- The taints are in the record that has been read, and not in the one that replaces it. -/
theorem record_loses_taints : ∃ r,
    (recordsByApi.carryPass (Pass.record untainted)).Ends Program.logging [] r taintedLog ∧
    ∃ read written, Json.parse taintedRecord.print = .ok read ∧
      Json.parse taintsReplaced.body = .ok written ∧
      (read.member "spec").member? "taints" = some (.arr [.str "busy"]) ∧
      (written.member "spec").member? "taints" = none :=
  ⟨_, ends_taintedLog, _, _, Json.parse_print rfl (by decide), Json.parse_print rfl (by decide), rfl,
    rfl⟩

end ApiServer

end NodeProvisioner
