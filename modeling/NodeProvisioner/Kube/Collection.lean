import NodeProvisioner.Codec.Record
import NodeProvisioner.Json.Printer
import NodeProvisioner.Json.Reader
import NodeProvisioner.Kube.Error
import NodeProvisioner.Kube.Http
import NodeProvisioner.Resource.Secret

/-!
# Collections of resources

The API server keeps resources of one kind in collections, one for each namespace. A resource is
read, created and replaced by a request each.

A response that says that the request has failed carries a description of the failure. What the
description says counts, even where it does not agree with the status of the response.
-/

namespace NodeProvisioner

/-- A computation that sends requests to the API server. -/
abbrev Exchange (α : Type) := ExceptT KubeError (Program HttpRequest.Answer) α

namespace Codec

def apiFailure : Codec ApiFailure :=
  record (structFormat "ErrorResponse")
    (.cons (.required "status" text) <| .cons (.defaulted "message" text "") <|
     .cons (.defaulted "reason" text "") <| .cons (.required "code" uint16) .nil)
    (fun (a, b, c, d, ()) => ⟨a, b, c, d⟩)
    (fun f => (f.status, f.message, f.reason, f.code, ()))

end Codec

namespace HttpResponse

/-- The failure that a response describes. A response with any other body is described by its
status and the body. -/
def failure (r : HttpResponse) : ApiFailure :=
  match Json.readDocument Codec.apiFailure.read r.body with
  | .ok failure => failure
  | .error _ =>
    { status := r.statusLine, message := Text.quoted r.body,
      reason := "Failed to parse error data", code := UInt16.ofNat r.status }

/-- The resource of a response. -/
def resource {α : Type} (codec : Codec α) (r : HttpResponse) : Except KubeError α :=
  if r.isFailure then .error (.api r.failure)
  else (Json.readDocument codec.read r.body).mapError fun fault => .unreadable fault.jsonMessage

end HttpResponse

/-- The collections of one kind of resource. -/
structure Collection (α : Type) where
  /-- The path of the API that the kind belongs to. -/
  api : String
  plural : String
  codec : Codec α

/-- The machines. -/
def machines : Collection Machine := ⟨"/apis/" ++ apiVersion, "machines", Codec.machine⟩

/-- The secrets. -/
def secrets : Collection Secret := ⟨"/api/v1", "secrets", Codec.secret⟩

namespace Collection

variable {α : Type} (c : Collection α)

/-- The target of the collection of a namespace. -/
def target (namespaceText : String) : String :=
  s!"{c.api}/namespaces/{namespaceText}/{c.plural}"

/-- The target of a resource, which has to have a name. -/
def resourceTarget (namespaceText name : String) : Except KubeError String :=
  if name.isEmpty then .error .emptyName else .ok (c.target namespaceText ++ "/" ++ name)

/-- The request for a target, if it can be sent. -/
def request (method : HttpMethod) (target body : String) : Except KubeError HttpRequest :=
  if target.utf8ByteSize > Target.maxSize then .error .longUri
  else match Target.path? target with
    | none => .error .invalidUri
    | some path => .ok ⟨method, path, body⟩

/-- Sends a request and reads the resource that it is answered with. -/
def send (method : HttpMethod) (target body : String) : Exchange α := do
  let request ← MonadExcept.ofExcept (request method target body)
  match ← ExceptT.lift (Program.perform request) with
  | Except.error message => throw (.transport message)
  | Except.ok response => MonadExcept.ofExcept (response.resource c.codec)

/-- Reads a resource. -/
def get (namespaceText name : String) : Exchange α := do
  let target ← MonadExcept.ofExcept (c.resourceTarget namespaceText name)
  c.send .get target ""

/-- Reads a resource that may not be there. It is not there if the reason of the failure says
so. -/
def get? (namespaceText name : String) : Exchange (Option α) :=
  ExceptT.mk ((c.get namespaceText name).run.bind fun result => .done <|
    match result with
    | .ok a => .ok (some a)
    | .error (.api failure) =>
      if failure.reason = "NotFound" then .ok none else .error (.api failure)
    | .error e => .error e)

/-- Replaces a resource. -/
def replace (namespaceText name : String) (a : α) : Exchange α := do
  let target ← MonadExcept.ofExcept (c.resourceTarget namespaceText name)
  c.send .put target (c.codec.write a).print

/-- Creates a resource. -/
def create (namespaceText : String) (a : α) : Exchange α :=
  c.send .post (c.target namespaceText) (c.codec.write a).print

end Collection

end NodeProvisioner
