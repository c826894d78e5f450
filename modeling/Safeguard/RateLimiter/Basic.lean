import Safeguard.RateLimiter.Config

/-!
# The token bucket

Tokens accrue at a steady rate up to the size of the bucket. No timer runs:
every access first adds what has accrued since the one before. A request takes
all its tokens or none. A caller that finds too few may sleep for the time the
missing ones need, and asks once more when it wakes; until then nothing is
reserved for it.

## Main definitions

* `RateLimiter`: a bucket and its counters.
* `RateLimiter.allow`: a request that does not wait.
* `RateLimiter.beginWait`: the first half of one that does; `RateLimiter.allow`
  is the second half.
-/

namespace Safeguard

/-- A token bucket with counters of granted and refused requests. -/
structure RateLimiter (R : Type) where
  /-- The configuration, as it was given. -/
  config : RateLimiter.Config R
  /-- The tokens in the bucket when it was last looked at. -/
  tokens : R
  /-- When that was. -/
  refilledAt : Instant
  /-- Requests that were granted. -/
  admitted : Nat
  /-- Requests that were refused. -/
  rejected : Nat

namespace RateLimiter

/-- A snapshot of a limiter. -/
structure Metrics (R : Type) where
  tokens : R
  rate : R
  burst : UInt32
  admitted : Nat
  rejected : Nat

/-- How a request that is ready to wait starts. -/
inductive WaitStart where
  /-- The tokens were there. -/
  | granted
  /-- The bucket can never hold that many. -/
  | refused
  /-- The tokens are missing; it is worth asking again after the delay. -/
  | pending (delay : Duration)
deriving DecidableEq

variable {R : Type} [Scalar R]

/-- What a request may overdraw: it absorbs the rounding between a computed
delay and the tokens that accrue meanwhile. -/
def tolerance : R := Scalar.ofNat 1 / Scalar.ofNat nanosPerSecond

/-- The size of the bucket. -/
def capacity (l : RateLimiter R) : R := Scalar.ofNat l.config.burst.toNat

/-- A limiter with a full bucket. -/
def new (c : Config R) (now : Instant) : RateLimiter R where
  config := c
  tokens := Scalar.ofNat c.burst.toNat
  refilledAt := now
  admitted := 0
  rejected := 0

/-- Adds the tokens that accrued since the last access. -/
def refill (l : RateLimiter R) (now : Instant) : RateLimiter R :=
  let accrued := Scalar.seconds (now - l.refilledAt) * Scalar.max l.config.rate Scalar.zero
  { l with tokens := Scalar.min (l.tokens + accrued) l.capacity, refilledAt := now }

/-- Whether the bucket holds that many tokens. -/
def holds (l : RateLimiter R) (n : UInt32) : Bool :=
  Scalar.le (Scalar.ofNat n.toNat) (l.tokens + tolerance)

/-- Takes that many tokens out; the bucket is never overdrawn. -/
def spend (l : RateLimiter R) (n : UInt32) : RateLimiter R :=
  { l with tokens := Scalar.max (l.tokens - Scalar.ofNat n.toNat) Scalar.zero }

/-- Counts a request by its result. -/
def record (l : RateLimiter R) (granted : Bool) : RateLimiter R :=
  if granted then { l with admitted := l.admitted + 1 }
  else { l with rejected := l.rejected + 1 }

/-- Takes that many tokens if they are there, and none otherwise. -/
def allow (l : RateLimiter R) (n : UInt32) (now : Instant) : RateLimiter R × Bool :=
  let l := l.refill now
  if l.holds n then ((l.spend n).record true, true) else (l.record false, false)

/-- The time after which missing tokens should be there, at most the longest
wait. -/
def waitFor (c : Config R) (shortfall : R) : Duration :=
  -- Nothing accrues at a rate of zero, so no wait is long enough.
  if Scalar.le c.rate Scalar.zero then c.maxWait
  else min ((Duration.ofSeconds? (shortfall / c.rate)).getD c.maxWait) c.maxWait

/-- Starts a request that waits. More tokens than the bucket can hold are refused
at once. A request that has to wait is counted when it ends. -/
def beginWait (l : RateLimiter R) (n : UInt32) (now : Instant) : RateLimiter R × WaitStart :=
  if l.config.burst < n then (l.record false, .refused)
  else
    let l := l.refill now
    if l.holds n then ((l.spend n).record true, .granted)
    else (l, .pending (waitFor l.config (Scalar.ofNat n.toNat - l.tokens)))

/-- The tokens that are there now. -/
def level (l : RateLimiter R) (now : Instant) : RateLimiter R × R :=
  let l := l.refill now
  (l, l.tokens)

/-- Fills the bucket. -/
def reset (l : RateLimiter R) (now : Instant) : RateLimiter R :=
  { l with tokens := l.capacity, refilledAt := now }

/-- A snapshot, taken after the bucket was refilled. -/
def metrics (l : RateLimiter R) (now : Instant) : RateLimiter R × Metrics R :=
  let (l, tokens) := l.level now
  (l, ⟨tokens, l.config.rate, l.config.burst, l.admitted, l.rejected⟩)

end RateLimiter

end Safeguard
