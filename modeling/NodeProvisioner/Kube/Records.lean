import NodeProvisioner.Error
import NodeProvisioner.Kube.Collection

/-!
# Records at the API server

The records of machines may be kept by the API server. It refuses to replace a record that has
changed since it was read.
-/

namespace NodeProvisioner

/-- What it means for a write of a record that a request has failed. -/
def KubeError.ofWrite (namespaceText name : String) : KubeError → Error
  | .api failure =>
    if failure.code = 409 then .conflict namespaceText name
    else if failure.code = 404 then .recordGone namespaceText name
    else .kube (.api failure)
  | e => .kube e

namespace KubeRecords

/-- Reads the record of a machine. -/
def read (namespaceText name : String) :
    Program HttpRequest.Answer (Except Error (Option Machine)) :=
  (machines.get? namespaceText name).run.bind fun result => .done (result.mapError .kube)

/-- Replaces the record of a machine. -/
def write (m : Machine) : Program HttpRequest.Answer (Except Error Machine) :=
  let ns := m.namespaceText
  let name := m.metadata.nameOrStem
  (machines.replace ns name m).run.bind fun result => .done (result.mapError (·.ofWrite ns name))

end KubeRecords

end NodeProvisioner
