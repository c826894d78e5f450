import Safeguard.RateLimiter.Saved
import Safeguard.Bulkhead.Saved
import Safeguard.CircuitBreaker.Saved
import Safeguard.Retry.Saved
import Safeguard.Timeout.Saved

/-!
# Configuration of all layers

A configuration has a section for each layer; a layer without a section is left
out. It is loaded from a text, which is checked section by section, outermost
layer first, and saved as an indented text.

## Main definitions

* `Resilience.Config`: a section for each layer.
* `Resilience.Config.load`, `Resilience.Config.save`: texts.
* `Resilience.ConfigError`: why a text was refused.
-/

namespace Safeguard.Resilience

open Json

/-- A section for each layer. -/
structure Config where
  rateLimiter : Option (RateLimiter.Config Float)
  bulkhead : Option Bulkhead.Config
  circuitBreaker : Option CircuitBreaker.Config
  retry : Option (Retry.Config Float)
  timeout : Option Timeout.Config
deriving DecidableEq

/-- Why a text was refused: it could not be read, or it describes a layer that
cannot work. -/
inductive ConfigError where
  | unreadable (fault : Fault)
  | invalid (cause : Invalid Float)
deriving DecidableEq

namespace Config

/-- No layers. -/
def empty : Config := ⟨none, none, none, none, none⟩

/-- A configuration as a record; sections that are absent are not written. -/
def schema : Schema Config where
  fields := [
    .optional "rate_limiter" RateLimiter.Config.codec (·.rateLimiter)
      fun v c => { c with rateLimiter := v },
    .optional "bulkhead" Bulkhead.Config.codec (·.bulkhead) fun v c => { c with bulkhead := v },
    .optional "circuit_breaker" CircuitBreaker.Config.codec (·.circuitBreaker)
      fun v c => { c with circuitBreaker := v },
    .optional "retry" Retry.Config.codec (·.retry) fun v c => { c with retry := v },
    .optional "timeout" Timeout.Config.codec (·.timeout) fun v c => { c with timeout := v }]
  start := empty
  defaults := true

/-- Configurations in JSON. -/
def codec : Codec Config := schema.codec

/-- Checks a section that is present. -/
def checkSection {α : Type} (validate : α → Except (Invalid Float) Unit) :
    Option α → Except (Invalid Float) Unit
  | none => .ok ()
  | some c => validate c

/-- Checks every section that is present, outermost layer first. -/
def validate (c : Config) : Except (Invalid Float) Unit := do
  checkSection RateLimiter.Config.validate c.rateLimiter
  checkSection Bulkhead.Config.validate c.bulkhead
  checkSection CircuitBreaker.Config.validate c.circuitBreaker
  checkSection Retry.Config.validate c.retry
  checkSection Timeout.Config.validate c.timeout

/-- Reads a configuration from a text and checks it. -/
def load (text : String) : Except ConfigError Config :=
  match codec.parse text with
  | .error f => .error (.unreadable f)
  | .ok c =>
    match c.validate with
    | .error cause => .error (.invalid cause)
    | .ok () => .ok c

/-- The text a configuration is saved as. -/
def save (c : Config) : String := codec.indented c

end Config

end Safeguard.Resilience
