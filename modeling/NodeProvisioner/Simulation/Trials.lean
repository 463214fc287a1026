import NodeProvisioner.Backoff

/-!
# Trials

A request that is made again and again, in a world where the result of each attempt is known
beforehand. The last result is that of all further attempts.
-/

namespace NodeProvisioner

/-- What is done while a request is made again. -/
inductive Trial where
  | attempt
  | pause (delay : Duration)

namespace Trial

variable {ε α : Type}

/-- What a trial is answered with. -/
def Answer (ε α : Type) : Trial → Type
  | attempt => Except ε α
  | pause _ => Unit

/-- The world in which attempts have these results. There is one result at least, `last`. -/
def world (last : Except ε α) : Program.World (Answer ε α) (List (Except ε α))
  | .attempt, [] => (last, [])
  | .attempt, result :: rest => (result, rest)
  | .pause _, results => ((), results)

/-- The request. -/
def request : Program (Answer ε α) (Except ε α) := .perform Trial.attempt

/-- A pause. -/
def wait (delay : Duration) : Program (Answer ε α) Unit := .perform (Trial.pause delay)

/-- How it goes when a request is made again after pauses, unless its error is one for good: the
result, unless there is none, and what has been done. -/
def run (backoff : Backoff) (mayPass : ε → Bool) (results : List (Except ε α))
    (last : Except ε α) : Option (Except ε α) × List Trial :=
  let (result, trials, _) := (backoff.retry wait mayPass request).run (world last) results
  (result, trials)

/-- The delay of a pause. -/
def delay? : Trial → Option Duration
  | attempt => none
  | pause delay => some delay

end Trial

end NodeProvisioner
