import NodeProvisioner.Net.Address
import NodeProvisioner.Pki.Error

/-!
# Alternative names

The names and addresses that a server certificate is good for. A service of the cluster goes by
its name alone, with its namespace, and by two longer names.
-/

namespace NodeProvisioner

/-- The names and addresses of a server. -/
structure AltNames where
  addresses : List IpAddress := []
  dnsNames : List String := []
deriving DecidableEq

/-- The names of a service, the shortest first. -/
def serviceNames (service namespaceName domain : String) : List String :=
  let long := s!"{service}.{namespaceName}"
  [service, long, long ++ ".svc", s!"{long}.svc.{domain}"]

namespace AltNames

/-- The names of a service after those of its hosts, and the texts that are addresses. -/
def ofService (service namespaceName domain : String) (addresses hosts : List String) : AltNames :=
  ⟨addresses.filterMap IpAddress.parse, hosts ++ serviceNames service namespaceName domain⟩

/-- A certificate can hold names in ASCII only: the first that is not fails. -/
def check (names : AltNames) : Except PkiError Unit :=
  match names.dnsNames.find? fun name => name.toList.any (·.toNat ≥ 128) with
  | some name => .error (.signing (.dnsName name))
  | none => .ok ()

end AltNames

end NodeProvisioner
