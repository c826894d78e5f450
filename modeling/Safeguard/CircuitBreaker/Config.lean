import Safeguard.Invalid

/-!
# Configuration of a circuit breaker

## Main definitions

* `CircuitBreaker.Config`: thresholds, cooldown and the number of probes.
* `CircuitBreaker.Config.validate`: whether they can drive a breaker.
* `CircuitBreaker.Config.clamp`: the nearest configuration that can.
-/

namespace Safeguard.CircuitBreaker

/-- When a circuit opens, how long it stays open, and how it closes again. -/
structure Config where
  /-- Consecutive failures that open the circuit. -/
  failureThreshold : UInt32
  /-- Successful probes that close it again. -/
  successThreshold : UInt32
  /-- The time an open circuit rejects every call. -/
  cooldown : Duration
  /-- The most probes that run at once. -/
  maxHalfOpenProbes : UInt32
deriving DecidableEq

namespace Config

/-- Five failures open the circuit for half a minute, and one probe closes it. -/
def default : Config where
  failureThreshold := 5
  successThreshold := 1
  cooldown := .ofSeconds 30
  maxHalfOpenProbes := 1

/-- Opens early and recovers cautiously. -/
def strict : Config where
  failureThreshold := 3
  successThreshold := 2
  cooldown := .ofSeconds 60
  maxHalfOpenProbes := 1

/-- Tolerates more failures and probes sooner. -/
def highAvailability : Config where
  failureThreshold := 10
  successThreshold := 1
  cooldown := .ofSeconds 10
  maxHalfOpenProbes := 3

/-- Checks that the configuration can drive a breaker. -/
def validate {R : Type} (c : Config) : Except (Invalid R) Unit :=
  if c.failureThreshold = 0 then .error .failureThreshold
  else if c.successThreshold = 0 then .error .successThreshold
  else if c.maxHalfOpenProbes = 0 then .error .probes
  else .ok ()

/-- Raises thresholds and the number of probes to one. -/
def clamp (c : Config) : Config where
  failureThreshold := max c.failureThreshold 1
  successThreshold := max c.successThreshold 1
  cooldown := c.cooldown
  maxHalfOpenProbes := max c.maxHalfOpenProbes 1

end Config

end Safeguard.CircuitBreaker
