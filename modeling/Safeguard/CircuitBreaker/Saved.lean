import Safeguard.CircuitBreaker.Basic
import Safeguard.Json.Codec
import Safeguard.Timestamp

/-!
# The saved form of a circuit breaker

## Main definitions

* `CircuitBreaker.State.codec`: states, by name.
* `CircuitBreaker.Config.codec`: configurations; members that are left out take
  their defaults.
* `CircuitBreaker.Metrics.codec`: snapshots; every member is required, but an
  object may leave out the time of the last failure.
-/

namespace Safeguard.CircuitBreaker

open Json

/-- States in JSON. -/
def State.codec : Codec State := Codec.choice State.ofName? State.name

/-- A configuration as a record. -/
def Config.schema : Schema Config where
  fields := [
    .of "failure_threshold" Codec.word32 (·.failureThreshold)
      fun v c => { c with failureThreshold := v },
    .of "success_threshold" Codec.word32 (·.successThreshold)
      fun v c => { c with successThreshold := v },
    .of "cooldown" Codec.millis (·.cooldown) fun v c => { c with cooldown := v },
    .of "max_half_open_probes" Codec.word32 (·.maxHalfOpenProbes)
      fun v c => { c with maxHalfOpenProbes := v }]
  start := Config.default
  defaults := true

/-- Configurations in JSON. -/
def Config.codec : Codec Config := Config.schema.codec

/-- Timestamps in JSON, as texts. -/
def timestampCodec : Codec Timestamp where
  read d := do
    let s ← Codec.readText d
    (Timestamp.ofText? s).elim (.error .data) .ok
  write t := .text t.text

/-- A snapshot as a record. -/
def Metrics.schema : Schema (Metrics Timestamp) where
  fields := [
    .of "state" State.codec (·.state) fun v m => { m with state := v },
    .of "failures" (Codec.count largestCount) (·.failures) fun v m => { m with failures := v },
    .of "successes" (Codec.count largestCount) (·.successes) fun v m => { m with successes := v },
    .orNull "last_failure" timestampCodec (·.lastFailure) fun v m => { m with lastFailure := v },
    .of "total_requests" (Codec.count largestWord) (·.totalRequests)
      fun v m => { m with totalRequests := v },
    .of "rejected_requests" (Codec.count largestWord) (·.rejectedRequests)
      fun v m => { m with rejectedRequests := v },
    .of "times_opened" (Codec.count largestWord) (·.timesOpened)
      fun v m => { m with timesOpened := v },
    .of "times_closed" (Codec.count largestWord) (·.timesClosed)
      fun v m => { m with timesClosed := v }]
  start := ⟨.closed, 0, 0, none, 0, 0, 0, 0⟩
  defaults := false

/-- Snapshots in JSON. -/
def Metrics.codec : Codec (Metrics Timestamp) := Metrics.schema.codec

end Safeguard.CircuitBreaker
