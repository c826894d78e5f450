import Safeguard.Bulkhead.Basic
import Safeguard.Json.Codec

/-!
# The saved form of a bulkhead

## Main definitions

* `Bulkhead.Config.codec`: configurations; members that are left out take their
  defaults.
* `Bulkhead.Metrics.codec`: snapshots; every member is required.
-/

namespace Safeguard.Bulkhead

open Json

/-- A configuration as a record. -/
def Config.schema : Schema Config where
  fields := [
    .of "max_concurrent" Codec.word64 (·.maxConcurrent) fun v c => { c with maxConcurrent := v },
    .of "max_wait" Codec.millis (·.maxWait) fun v c => { c with maxWait := v }]
  start := Config.default
  defaults := true

/-- Configurations in JSON. -/
def Config.codec : Codec Config := Config.schema.codec

/-- A snapshot as a record. -/
def Metrics.schema : Schema Metrics where
  fields := [
    .of "active" (Codec.count largestWord) (·.active) fun v m => { m with active := v },
    .of "max_active" (Codec.count largestWord) (·.maxActive) fun v m => { m with maxActive := v },
    .of "available" (Codec.count largestWord) (·.available) fun v m => { m with available := v },
    .of "capacity" (Codec.count largestWord) (·.capacity) fun v m => { m with capacity := v },
    .of "rejected" (Codec.count largestWord) (·.rejected) fun v m => { m with rejected := v }]
  start := ⟨0, 0, 0, 0, 0⟩
  defaults := false

/-- Snapshots in JSON. -/
def Metrics.codec : Codec Metrics := Metrics.schema.codec

end Safeguard.Bulkhead
