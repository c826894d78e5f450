import Safeguard.Invalid

/-!
# Configuration of a rate limiter

## Main definitions

* `RateLimiter.Config`: refill rate, bucket size and waiting.
* `RateLimiter.Config.validate`: whether the bucket can ever admit a call.
-/

namespace Safeguard.RateLimiter

/-- How fast tokens accrue, how many the bucket holds, and whether a call waits
for one. -/
structure Config (R : Type) where
  /-- Tokens per second. -/
  rate : R
  /-- The most tokens the bucket holds. -/
  burst : UInt32
  /-- Whether a call that finds no token waits for one. -/
  wait : Bool
  /-- The longest a call waits. -/
  maxWait : Duration
deriving DecidableEq

namespace Config

variable {R : Type} [Scalar R]

/-- A hundred tokens a second, ten at once, no waiting. -/
def default : Config R where
  rate := Scalar.ofNat 100
  burst := 10
  wait := false
  maxWait := .ofSeconds 1

/-- Checks that the bucket can ever admit a call. -/
def validate (c : Config R) : Except (Invalid R) Unit :=
  if !Scalar.isFinite c.rate || Scalar.le c.rate Scalar.zero then .error (.rate c.rate)
  else if c.burst = 0 then .error .burst
  else .ok ()

end Config

end Safeguard.RateLimiter
