import Safeguard.Operation
import Safeguard.CircuitBreaker.Basic

/-!
# What can be observed of a run

Calls leave events, runs of operations leave their ends, circuits leave their
transitions, and the layers leave notices for a log.

## Main definitions

* `Event`, `RunRecord`, `TransitionRecord`, `Notice`: the four kinds of records.
* `Trace`: all records since the trace was last taken.
-/

namespace Safeguard

open CircuitBreaker (State Transition)

/-- What happens in a call. -/
inductive Event (α : Type) where
  /-- The operation was invoked for the given time, with a token that was or was
  not cancelled. -/
  | invoked (number : Nat) (cancelled : Bool)
  /-- The breaker's predicate judged an error. -/
  | judgedFailure (error : String) (verdict : Bool)
  /-- The retry predicate judged an error. -/
  | judgedRetry (error : String) (verdict : Bool)
  /-- The retry hook was told of an attempt that failed and the pause after it. -/
  | retrying (attempt : Nat) (delay : Duration) (error : String)
  /-- A slot was acquired. -/
  | acquired
  /-- The call ended. -/
  | done (outcome : Outcome α)

/-- An event with the time and the call it belongs to. -/
structure EventRecord (α : Type) where
  time : Nat
  call : Nat
  event : Event α

/-- The end of a run of an operation. -/
structure RunRecord where
  time : Nat
  call : Nat
  number : Nat
  ending : RunEnd
deriving DecidableEq, Repr

/-- A transition that a hook was told of. -/
structure TransitionRecord where
  time : Nat
  transition : Transition
  /-- The call on whose behalf it happened; none if the breaker was used directly. -/
  call : Option Nat
  /-- The state that the hook saw, if it looked. -/
  seen : Option State
deriving DecidableEq, Repr

/-- A notice for the log. -/
inductive Notice where
  | circuitChanged (breaker : String) (transition : Transition)
  | circuitRejected (breaker : String)
  | tokensAwaited (tokens : UInt32) (delay : Duration)
  | tokensMissed (tokens : UInt32)
  | rateExceeded
  | slotAwaited (maxWait : Duration)
  | slotRefused (capacity : Nat)
  | attemptRepeated (attempt maxAttempts : Nat) (delay : Duration) (error : String)
  | deadlineElapsed (timeout : Duration)

/-- How urgent a notice is. -/
inductive Level where
  | debug
  | info
  | warn
deriving DecidableEq, Repr

/-- A value in a notice. -/
inductive NoticeValue where
  | text (s : String)
  | count (n : Nat)

namespace Notice

/-- A circuit that opens deserves a warning, other changes are information, and
the rest is for tracing a fault. -/
def level : Notice → Level
  | .circuitChanged _ t => if t.target = .opened then .warn else .info
  | _ => .debug

/-- The wording of a notice. -/
def message : Notice → String
  | .circuitChanged .. => "Circuit state changed"
  | .circuitRejected _ => "Circuit open, call rejected"
  | .tokensAwaited .. => "Waiting for rate limiter tokens"
  | .tokensMissed _ => "Rate limit exceeded after waiting"
  | .rateExceeded => "Rate limit exceeded, call rejected"
  | .slotAwaited _ => "Bulkhead full, waiting for a slot"
  | .slotRefused _ => "Bulkhead full, call rejected"
  | .attemptRepeated .. => "Retrying operation"
  | .deadlineElapsed _ => "Operation deadline elapsed"

/-- Whole milliseconds modulo `2 ^ 64`, as notices count them. -/
def millis (d : Duration) : NoticeValue := .count (d.millis % UInt64.size)

/-- The values of a notice, by name. -/
def values : Notice → List (String × NoticeValue)
  | .circuitChanged breaker t =>
    [("breaker", .text breaker), ("from", .text t.source.name), ("to", .text t.target.name)]
  | .circuitRejected breaker => [("breaker", .text breaker)]
  | .tokensAwaited tokens delay => [("tokens", .count tokens.toNat), ("delay_ms", millis delay)]
  | .tokensMissed tokens => [("tokens", .count tokens.toNat)]
  | .rateExceeded => []
  | .slotAwaited maxWait => [("max_wait_ms", millis maxWait)]
  | .slotRefused capacity => [("capacity", .count capacity)]
  | .attemptRepeated attempt maxAttempts delay error =>
    [("attempt", .count attempt), ("max_attempts", .count maxAttempts),
      ("delay_ms", millis delay), ("error", .text error)]
  | .deadlineElapsed timeout => [("timeout_ms", millis timeout)]

end Notice

/-- Records in the order in which they were made. -/
structure Trace (α : Type) where
  events : List (EventRecord α)
  runs : List RunRecord
  transitions : List TransitionRecord
  notices : List Notice

/-- No records. -/
def Trace.empty {α : Type} : Trace α := ⟨[], [], [], []⟩

end Safeguard
