import NodeProvisioner.Duration
import NodeProvisioner.Program

/-!
# Trying again

A request whose failure may pass is made again after a pause. The pause grows by a factor from one
attempt to the next, up to a ceiling. Attempts are limited in number, or they go on for as long as
they can be counted in thirty-two bits.

`grown` is the rule by which pauses grow, over any numbers: the pauses are computed with it in
floating-point arithmetic.
-/

namespace NodeProvisioner

/-- How often and after which pauses a request is made again. -/
structure Backoff where
  /-- The number of attempts; zero stands for no limit. -/
  maxAttempts : Nat
  initialDelay : Duration
  maxDelay : Duration
  multiplier : Float
deriving Inhabited

/-- The next pause after one of `delay`. -/
def grown {α : Type} [Mul α] [Min α] (multiplier ceiling delay : α) : α :=
  min (delay * multiplier) ceiling

namespace Backoff

/-- The next pause: `none` if it is negative. -/
def nextDelay? (b : Backoff) (delay : Duration) : Option Duration :=
  Duration.ofFloat? (grown b.multiplier b.maxDelay.seconds delay.seconds)

/-- A pause spread by a factor drawn at random between a half and one and a half. -/
def spread? (factor : Float) (delay : Duration) : Option Duration :=
  Duration.ofFloat? (delay.seconds * factor)

/-- The number of attempts that can be counted. -/
def countable : Nat := 1 <<< 32 - 1

variable {C : Type} {A : C → Type} {ε α : Type}

/-- Makes the attempts that are left, with `delay` before the next but one. -/
def attempts (b : Backoff) (pause : Duration → Program A Unit) (mayPass : ε → Bool)
    (attempt : Program A (Except ε α)) : Nat → Duration → Program A (Except ε α)
  | 0, _ => .abort
  | left + 1, delay => attempt.bind fun result =>
    match result with
    | .ok a => .done (.ok a)
    | .error e =>
      if !mayPass e || (b.maxAttempts ≠ 0 && left = 0) then .done (.error e)
      else (pause delay).bind fun _ =>
        match b.nextDelay? delay with
        | none => .abort
        | some next => b.attempts pause mayPass attempt left next

/-- Makes attempts until one succeeds, one fails for good, or they run out. -/
def retry (b : Backoff) (pause : Duration → Program A Unit) (mayPass : ε → Bool)
    (attempt : Program A (Except ε α)) : Program A (Except ε α) :=
  b.attempts pause mayPass attempt (if b.maxAttempts = 0 then countable else b.maxAttempts)
    b.initialDelay

end Backoff

end NodeProvisioner
