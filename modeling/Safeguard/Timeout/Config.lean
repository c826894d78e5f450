import Safeguard.Invalid

/-!
# Configuration of a timeout

## Main definitions

* `Timeout.Config`: the time an attempt is given.
-/

namespace Safeguard.Timeout

/-- The time an attempt is given. -/
structure Config where
  /-- From the start of the attempt to its deadline. -/
  duration : Duration
deriving DecidableEq

namespace Config

/-- Half a minute. -/
def default : Config := ⟨.ofSeconds 30⟩

/-- Checks that the deadline is in the future. -/
def validate {R : Type} (c : Config) : Except (Invalid R) Unit :=
  if c.duration.isZero then .error .noTime else .ok ()

end Config

end Safeguard.Timeout
