import Safeguard.Decimal.Layout

/-!
# Why a configuration is refused

A configuration can be well formed and still describe a layer that could never
work. Each such fault is a cause of its own; the wording belongs to the report.

## Main definitions

* `Invalid`: the causes, over the numbers that rates and multipliers are.
* `Invalid.component`: the layer a cause is about.
* `Invalid.message`: the whole report.
-/

namespace Safeguard

/-- The most slots a bulkhead can have: one eighth of the 64-bit range. -/
abbrev largestCapacity : Nat := UInt64.size / 8 - 1

/-- Why a configuration is refused. -/
inductive Invalid (R : Type) where
  /-- The refill rate is not a positive finite number. -/
  | rate (given : R)
  /-- The bucket holds no token. -/
  | burst
  /-- The bulkhead has no slot. -/
  | noSlot
  /-- The bulkhead has more slots than can be counted. -/
  | tooManySlots
  /-- The circuit opens after no failure at all. -/
  | failureThreshold
  /-- The circuit closes after no success at all. -/
  | successThreshold
  /-- The half-open circuit admits no probe. -/
  | probes
  /-- The delays between attempts do not grow by a finite factor of one or more. -/
  | multiplier (given : R)
  /-- The longest delay is shorter than the first one. -/
  | delayOrder
  /-- The deadline is no time away. -/
  | noTime
deriving DecidableEq

namespace Invalid

variable {R : Type}

/-- The name of the layer a cause is about. -/
def component : Invalid R → String
  | .rate _ | .burst => "rate_limiter"
  | .noSlot | .tooManySlots => "bulkhead"
  | .failureThreshold | .successThreshold | .probes => "circuit_breaker"
  | .multiplier _ | .delayOrder => "retry"
  | .noTime => "timeout"

/-- The cause in words. -/
def reason : Invalid Float → String
  | .rate given =>
    "rate must be a positive, finite number, got " ++ String.ofList (Decimal.plainText given)
  | .burst => "burst must be at least 1"
  | .noSlot => "max_concurrent must be at least 1"
  | .tooManySlots => "max_concurrent must not exceed " ++ Nat.repr largestCapacity
  | .failureThreshold => "failure_threshold must be at least 1"
  | .successThreshold => "success_threshold must be at least 1"
  | .probes => "max_half_open_probes must be at least 1"
  | .multiplier given =>
    "multiplier must be a finite value >= 1.0, got " ++ String.ofList (Decimal.plainText given)
  | .delayOrder => "max_delay must not be shorter than initial_delay"
  | .noTime => "duration must be non-zero"

/-- The whole report. -/
def message (cause : Invalid Float) : String :=
  "invalid " ++ cause.component ++ " configuration: " ++ cause.reason

end Invalid

end Safeguard
