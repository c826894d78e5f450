import Safeguard.Invalid

/-!
# Configuration of repeated attempts

After a failed attempt the next one waits. The wait grows with the number of the
attempt along one of three curves, is capped, and may be lengthened by a random
quarter so that callers do not come back in step.

## Main definitions

* `Retry.Backoff`: the curves.
* `Retry.Config`: the number of attempts and the waits between them.
* `Retry.Config.baseDelay`: the capped wait after an attempt.
* `Retry.Config.delay`: the wait with its random part.
-/

namespace Safeguard.Retry

/-- How the delay between attempts grows. -/
inductive Backoff where
  /-- By a factor each time. -/
  | exponential
  /-- By the first delay each time. -/
  | linear
  /-- Not at all. -/
  | constant
deriving DecidableEq, Repr

namespace Backoff

/-- The name of a curve. -/
def name : Backoff → String
  | .exponential => "exponential"
  | .linear => "linear"
  | .constant => "constant"

/-- The curve of a name. -/
def ofName? : String → Option Backoff
  | "exponential" => some .exponential
  | "linear" => some .linear
  | "constant" => some .constant
  | _ => none

@[simp] theorem ofName?_name (b : Backoff) : ofName? b.name = some b := by cases b <;> rfl

end Backoff

/-- How often a failed operation is tried, and the waits between the attempts. -/
structure Config (R : Type) where
  /-- All attempts, the first one included. -/
  maxAttempts : UInt32
  /-- The delay after the first attempt. -/
  initialDelay : Duration
  /-- The longest delay, before the random part. -/
  maxDelay : Duration
  /-- The factor of exponential growth. -/
  multiplier : R
  /-- How the delay grows. -/
  backoff : Backoff
  /-- Whether a random part is added. -/
  jitter : Bool
deriving DecidableEq

namespace Config

variable {R : Type} [Scalar R]

/-- Three attempts, a tenth of a second apart and doubling, at most half a
minute, with a random part. -/
def default : Config R where
  maxAttempts := 3
  initialDelay := .ofMillis 100
  maxDelay := .ofSeconds 30
  multiplier := Scalar.ofNat 2
  backoff := .exponential
  jitter := true

/-- A single attempt. -/
def noRetry : Config R := { default with maxAttempts := 1 }

/-- Sets the number of attempts; there is at least one. -/
def withMaxAttempts (c : Config R) (attempts : UInt32) : Config R :=
  { c with maxAttempts := max attempts 1 }

/-- Sets the factor; delays never shrink. -/
def withMultiplier (c : Config R) (multiplier : R) : Config R :=
  { c with multiplier := Scalar.max multiplier Scalar.one }

/-- Checks that the configuration describes a usable backoff. -/
def validate (c : Config R) : Except (Invalid R) Unit :=
  if !Scalar.isFinite c.multiplier || Scalar.lt c.multiplier Scalar.one then
    .error (.multiplier c.multiplier)
  else if c.maxDelay < c.initialDelay then .error .delayOrder
  else .ok ()

/-- The largest power the factor is raised to. -/
abbrev largestPower : Nat := 2147483647

/-- The delay after an attempt, in seconds, before the cap. Attempts count from
one. -/
def growth (c : Config R) (attempt : Nat) : R :=
  let initial : R := Scalar.seconds c.initialDelay.nanos
  match c.backoff with
  | .constant => initial
  | .linear => initial * Scalar.ofNat attempt
  | .exponential => initial * Scalar.power c.multiplier (min (attempt - 1) largestPower)

/-- The delay after an attempt, capped and without the random part. -/
def baseDelay (c : Config R) (attempt : Nat) : Duration :=
  let limit : R := Scalar.seconds c.maxDelay.nanos
  -- Growth without bound, or to nothing that denotes a number, meets the limit here.
  let capped := Scalar.max (Scalar.min (c.growth attempt) limit) Scalar.zero
  min ((Duration.ofSeconds? capped).getD c.maxDelay) c.maxDelay

/-- The most that the random part adds, as a fraction of the delay. -/
def jitterFraction : R := Scalar.ofNat 1 / Scalar.ofNat 4

/-- The delay after an attempt. The draw is a number from zero to below one. -/
def delay (c : Config R) (attempt : Nat) (draw : R) : Duration :=
  let base := c.baseDelay attempt
  if c.jitter then
    base.add ((Duration.ofSeconds? (Scalar.seconds base.nanos * draw * jitterFraction)).getD .zero)
  else base

/-- Whether the delays for the least draw and for draws up to nearly one stay
between the base delay and a quarter more, within a microsecond. -/
def jitterInRange (c : Config R) (attempt : Nat) : Bool :=
  let base := (c.baseDelay attempt).nanos
  let draws : List R := (List.range 8).map fun k => Scalar.ofNat k / Scalar.ofNat 8
  draws.all fun draw =>
    let d := (c.delay attempt draw).nanos
    base ≤ d && d ≤ base + base / 4 + 1000

/-- Whether another attempt may follow the given one. -/
def mayFollow (c : Config R) (attempt : Nat) : Bool := attempt < c.maxAttempts.toNat

end Config

end Safeguard.Retry
