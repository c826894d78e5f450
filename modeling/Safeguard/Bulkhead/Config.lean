import Safeguard.Invalid

/-!
# Configuration of a bulkhead

## Main definitions

* `Bulkhead.Config`: the number of slots and the wait for one.
* `Bulkhead.Config.validate`: whether the number can be honoured.
* `Bulkhead.Config.clamp`: the nearest number that can.
-/

namespace Safeguard.Bulkhead

/-- How many operations may run at once, and how long a call waits for its turn. -/
structure Config where
  /-- The number of slots. -/
  maxConcurrent : UInt64
  /-- The longest a call waits for a slot; with none it is turned away at once. -/
  maxWait : Duration
deriving DecidableEq

namespace Config

/-- Ten slots, no waiting. -/
def default : Config where
  maxConcurrent := 10
  maxWait := .zero

/-- Checks that the number of slots can be honoured. -/
def validate {R : Type} (c : Config) : Except (Invalid R) Unit :=
  if c.maxConcurrent = 0 then .error .noSlot
  else if largestCapacity < c.maxConcurrent.toNat then .error .tooManySlots
  else .ok ()

/-- The nearest number of slots that can be honoured. -/
def clamp (c : Config) : Config :=
  { c with maxConcurrent := UInt64.ofNat (max 1 (min c.maxConcurrent.toNat largestCapacity)) }

end Config

end Safeguard.Bulkhead
