import NodeProvisioner.Backoff
import NodeProvisioner.Pass.Call

/-!
# Waiting for operations

An operation is polled until it is done. Failures on the way are forgotten once it is; what counts
then are the errors that it carries itself.
-/

namespace NodeProvisioner

namespace Operation

/-- The operation, unless it carries errors. -/
def succeeded (o : Operation) (machine : String) : Except Error Operation :=
  match o.errorMessage? with
  | some message => .error (.provisioning machine o.operationType message)
  | none => .ok o

/-- The operation, unless it goes on. -/
def finished (o : Operation) : Except Error Operation :=
  if o.isDone then .ok o else .error (.operationPending o.name o.status)

/-- Polls an operation once. -/
def poll (machine project zone operation : String) : Pass Operation := do
  let o ← Pass.pollOperation machine project zone operation
  MonadExcept.ofExcept o.finished

/-- Waits until an operation is done. -/
def wait (o : Operation) (backoff : Backoff) (machine project zone : String) : Pass Operation := do
  let done ←
    if o.isDone then pure o
    else ExceptT.mk (backoff.retry (fun d => .perform (Call.pause d)) Error.isRetryable
      (poll machine project zone o.name).run)
  MonadExcept.ofExcept (done.succeeded machine)

end Operation

end NodeProvisioner
