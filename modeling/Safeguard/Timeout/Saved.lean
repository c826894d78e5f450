import Safeguard.Timeout.Config
import Safeguard.Json.Codec

/-!
# The saved form of a timeout

## Main definitions

* `Timeout.Config.codec`: configurations; a duration that is left out takes its
  default.
-/

namespace Safeguard.Timeout

open Json

/-- A configuration as a record. -/
def Config.schema : Schema Config where
  fields := [.of "duration" Codec.millis (·.duration) fun v _ => ⟨v⟩]
  start := Config.default
  defaults := true

/-- Configurations in JSON. -/
def Config.codec : Codec Config := Config.schema.codec

end Safeguard.Timeout
