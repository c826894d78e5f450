import Safeguard.RateLimiter.Basic
import Safeguard.Json.Codec

/-!
# The saved form of a rate limiter

## Main definitions

* `RateLimiter.Config.codec`: configurations; members that are left out take
  their defaults.
* `RateLimiter.Metrics.codec`: snapshots; every member is required.
-/

namespace Safeguard.RateLimiter

open Json

/-- A configuration as a record. -/
def Config.schema : Schema (Config Float) where
  fields := [
    .of "rate" Codec.real (·.rate) fun v c => { c with rate := v },
    .of "burst" Codec.word32 (·.burst) fun v c => { c with burst := v },
    .of "wait" Codec.bool (·.wait) fun v c => { c with wait := v },
    .of "max_wait" Codec.millis (·.maxWait) fun v c => { c with maxWait := v }]
  start := Config.default
  defaults := true

/-- Configurations in JSON. -/
def Config.codec : Codec (Config Float) := Config.schema.codec

/-- A snapshot as a record. -/
def Metrics.schema : Schema (Metrics Float) where
  fields := [
    .of "tokens" Codec.real (·.tokens) fun v m => { m with tokens := v },
    .of "rate" Codec.real (·.rate) fun v m => { m with rate := v },
    .of "burst" Codec.word32 (·.burst) fun v m => { m with burst := v },
    .of "admitted" (Codec.count largestWord) (·.admitted) fun v m => { m with admitted := v },
    .of "rejected" (Codec.count largestWord) (·.rejected) fun v m => { m with rejected := v }]
  start := ⟨0, 0, 0, 0, 0⟩
  defaults := false

/-- Snapshots in JSON. -/
def Metrics.codec : Codec (Metrics Float) := Metrics.schema.codec

end Safeguard.RateLimiter
