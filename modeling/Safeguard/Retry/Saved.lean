import Safeguard.Retry.Config
import Safeguard.Json.Codec

/-!
# The saved form of a retry configuration

## Main definitions

* `Retry.Backoff.codec`: curves, by name.
* `Retry.Config.codec`: configurations; members that are left out take their
  defaults.
-/

namespace Safeguard.Retry

open Json

/-- Curves in JSON. -/
def Backoff.codec : Codec Backoff := Codec.choice Backoff.ofName? Backoff.name

/-- A configuration as a record. -/
def Config.schema : Schema (Config Float) where
  fields := [
    .of "max_attempts" Codec.word32 (·.maxAttempts) fun v c => { c with maxAttempts := v },
    .of "initial_delay" Codec.millis (·.initialDelay) fun v c => { c with initialDelay := v },
    .of "max_delay" Codec.millis (·.maxDelay) fun v c => { c with maxDelay := v },
    .of "multiplier" Codec.real (·.multiplier) fun v c => { c with multiplier := v },
    .of "backoff" Backoff.codec (·.backoff) fun v c => { c with backoff := v },
    .of "jitter" Codec.bool (·.jitter) fun v c => { c with jitter := v }]
  start := Config.default
  defaults := true

/-- Configurations in JSON. -/
def Config.codec : Codec (Config Float) := Config.schema.codec

end Safeguard.Retry
