import NodeProvisioner.Provisioner
import NodeProvisioner.Simulation.Faults

/-!
# Prepared responses

An API server whose responses have been prepared beforehand: each request takes the next one. When
there are none left, no response comes.
-/

namespace NodeProvisioner

/-- A prepared response. -/
inductive Prepared where
  | none (message : String)
  | response (r : HttpResponse)
  /-- The body of the request comes back. -/
  | echo (status : Nat)

/-- The response to a request. -/
def Prepared.answer (r : HttpRequest) : Prepared → Except String HttpResponse
  | none message => .error message
  | response r => .ok r
  | echo status => .ok ⟨status, r.body⟩

/-- The world of prepared responses. -/
def Prepared.world : Program.World HttpRequest.Answer (List Prepared)
  | _, [] => (.error "no response", [])
  | r, next :: rest => (next.answer r, rest)

/-- The world of a simulation and of prepared responses. -/
def Effect.world : Program.World Effect.Answer (Simulation × List Prepared)
  | .call c, (s, responses) =>
    let (answer, s) := Simulation.world c s
    (answer, s, responses)
  | .request r, (s, responses) =>
    let (answer, responses) := Prepared.world r responses
    (answer, s, responses)

end NodeProvisioner
