import NodeProvisioner.Text.Quoted

/-!
# Errors of the Kubernetes API

A request fails before it is sent, on the way, because the API server answers with an error, or
because its answer cannot be read.
-/

namespace NodeProvisioner

/-- An error the API server answers with. -/
structure ApiFailure where
  status : String := ""
  message : String := ""
  reason : String := ""
  code : UInt16 := 0
deriving Inhabited, DecidableEq, Repr

/-- Why a request to the API server fails. -/
inductive KubeError where
  | api (failure : ApiFailure)
  | transport (message : String)
  | unreadable (message : String)
  | emptyName
  | invalidUri
  | longUri
deriving Inhabited, DecidableEq, Repr

/-- The failure with the names of its parts. -/
def ApiFailure.describe (f : ApiFailure) : String :=
  let status := Text.quoted f.status
  let message := Text.quoted f.message
  let reason := Text.quoted f.reason
  s!"ErrorResponse \x7b status: {status}, message: {message}, reason: {reason}, code: {f.code} \x7d"

/-- The error in words. -/
def KubeError.message : KubeError → String
  | api f => s!"ApiError: {f.message}: {f.reason} ({f.describe})"
  | transport message => s!"ServiceError: {message}"
  | unreadable message => s!"Error deserializing response: {message}"
  | emptyName =>
    "Failed to build request: failed to validate request: A non-empty name is required"
  | invalidUri => "Failed to build request: failed to build request: invalid uri character"
  | longUri => "Failed to build request: failed to build request: uri too long"

end NodeProvisioner
