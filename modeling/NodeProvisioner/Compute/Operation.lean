import NodeProvisioner.Resource.Machine

/-!
# Operations

The compute provider answers a request to create or delete an instance with an operation, which
goes on until it is done. An operation that has failed is done, and carries its errors. The provider
may also refuse the request, or not be reached at all.
-/

namespace NodeProvisioner

/-- Why a call to the compute provider fails. -/
inductive ComputeError where
  /-- The provider answers with an error status. -/
  | api (code : UInt16) (text : String)
  /-- The request does not arrive, or its answer cannot be read. -/
  | transport (text : String)
deriving Inhabited, DecidableEq, Repr

/-- The error in words. -/
def ComputeError.message : ComputeError → String
  | api code text => s!"googleapi: Error {code}: {text}"
  | transport text => s!"transport error: {text}"

/-- An error of an operation. -/
structure OperationFailure where
  code : String
  message : String
deriving Inhabited, DecidableEq

/-- The errors of an operation. -/
structure OperationFailures where
  errors : List OperationFailure := []
deriving Inhabited, DecidableEq

/-- An operation of the compute provider. -/
structure Operation where
  name : String
  status : String
  operationType : String := ""
  targetLink : String := ""
  error : Option OperationFailures := none
deriving Inhabited, DecidableEq

namespace Codec

def operationFailure : Codec OperationFailure :=
  record (structFormat "OperationErrorItem")
    (.cons (.required "code" text) <| .cons (.required "message" text) .nil)
    (fun (a, b, ()) => ⟨a, b⟩) (fun e => (e.code, e.message, ()))

def operationFailures : Codec OperationFailures :=
  record (structFormat "OperationError")
    (.cons (.defaulted "errors" (list operationFailure) []) .nil)
    (fun (a, ()) => ⟨a⟩) (fun e => (e.errors, ()))

def operation : Codec Operation :=
  record (structFormat "Operation")
    (.cons (.required "name" text) <| .cons (.required "status" text) <|
     .cons (.defaulted "operationType" text "") <| .cons (.defaulted "targetLink" text "") <|
     .cons (.optional "error" operationFailures) .nil)
    (fun (a, b, c, d, e, ()) => ⟨a, b, c, d, e⟩)
    (fun o => (o.name, o.status, o.operationType, o.targetLink, o.error, ()))

end Codec

namespace Operation

/-- The operation has come to its end. -/
def isDone (o : Operation) : Bool := o.status = "DONE"

/-- The errors of the operation in words, one after the other: `none` if there are none. -/
def errorMessage? (o : Operation) : Option String :=
  match o.error with
  | none => none
  | some failures =>
    if failures.errors.isEmpty then none
    else some ("; ".intercalate (failures.errors.map fun e => s!"{e.code}: {e.message}"))

end Operation

end NodeProvisioner
