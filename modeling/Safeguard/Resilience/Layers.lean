import Safeguard.Resilience.Config

/-!
# Layers built from a configuration

## Main definitions

* `Layer`: the five layers, outermost first.
* `Resilience.Layers`: the components of the layers that are present.
* `Resilience.Config.assemble`, `Resilience.Config.build`: components from a
  configuration, without and with a check.
* `Resilience.Metrics`: a snapshot of all components.
-/

namespace Safeguard

/-- A protective layer. -/
inductive Layer where
  | rateLimiter
  | bulkhead
  | circuitBreaker
  | retry
  | timeout
deriving DecidableEq, Repr

namespace Layer

/-- All layers, outermost first. -/
def all : List Layer := [.rateLimiter, .bulkhead, .circuitBreaker, .retry, .timeout]

/-- The name of a layer. -/
def name : Layer → String
  | .rateLimiter => "rate_limiter"
  | .bulkhead => "bulkhead"
  | .circuitBreaker => "circuit_breaker"
  | .retry => "retry"
  | .timeout => "timeout"

/-- The layer of a name. -/
def ofName? (s : String) : Option Layer := all.find? (·.name == s)

@[simp] theorem ofName?_name (l : Layer) : ofName? l.name = some l := by cases l <;> rfl

end Layer

namespace Resilience

/-- The components of the layers that are present. Calls that wait in the
bulkhead are named by their numbers. -/
structure Layers where
  rateLimiter : Option (RateLimiter Float)
  bulkhead : Option (Bulkhead Nat)
  circuitBreaker : Option CircuitBreaker
  retry : Option (Retry.Config Float)
  timeout : Option Duration

namespace Layers

/-- Whether a layer is present. -/
def has (l : Layers) : Layer → Bool
  | .rateLimiter => l.rateLimiter.isSome
  | .bulkhead => l.bulkhead.isSome
  | .circuitBreaker => l.circuitBreaker.isSome
  | .retry => l.retry.isSome
  | .timeout => l.timeout.isSome

/-- The layers that are present, outermost first. -/
def present (l : Layers) : List Layer := Layer.all.filter l.has

end Layers

/-- Components for the sections that are present, as they are given. -/
def Config.assemble (c : Config) (now : Instant) : Layers where
  rateLimiter := c.rateLimiter.map (RateLimiter.new · now)
  bulkhead := c.bulkhead.map Bulkhead.new
  circuitBreaker := c.circuitBreaker.map CircuitBreaker.new
  retry := c.retry
  timeout := c.timeout.map (·.duration)

/-- Components for the sections that are present, if all sections can work. -/
def Config.build (c : Config) (now : Instant) : Except (Invalid Float) Layers :=
  c.validate.map fun _ => c.assemble now

/-- A snapshot of the components that have counters; `τ` is the type of points
of time. -/
structure Metrics (τ : Type) where
  rateLimiter : Option (RateLimiter.Metrics Float)
  bulkhead : Option Bulkhead.Metrics
  circuitBreaker : Option (CircuitBreaker.Metrics τ)

/-- A snapshot of components that no time passes for. -/
def Layers.metrics (l : Layers) (now : Instant) : Metrics Instant where
  rateLimiter := l.rateLimiter.map fun r => (r.metrics now).2
  bulkhead := l.bulkhead.map Bulkhead.metrics
  circuitBreaker := l.circuitBreaker.map fun b => (b.observe now).1.metrics

open Json in
/-- A snapshot as a record; what is absent is written as `null`. -/
def Metrics.schema : Schema (Metrics Timestamp) where
  fields := [
    .orNull "rate_limiter" RateLimiter.Metrics.codec (·.rateLimiter)
      fun v m => { m with rateLimiter := v },
    .orNull "bulkhead" Bulkhead.Metrics.codec (·.bulkhead) fun v m => { m with bulkhead := v },
    .orNull "circuit_breaker" CircuitBreaker.Metrics.codec (·.circuitBreaker)
      fun v m => { m with circuitBreaker := v }]
  start := ⟨none, none, none⟩
  defaults := false

/-- Snapshots in JSON. -/
def Metrics.codec : Json.Codec (Metrics Timestamp) := Metrics.schema.codec

end Resilience

end Safeguard
