import Safeguard.CircuitBreaker.Config

/-!
# The circuit breaker

A closed circuit lets calls pass and counts consecutive failures; enough of them
open it. An open circuit rejects every call until its cooldown has passed, and
then turns half-open the next time anybody looks. A half-open circuit admits a
few probes at a time, whose results decide whether it closes or opens again.

Every change of state starts a new period, and a probe carries the period it was
admitted in: when it ends it hands its place back only if that period still runs.
A call that ends without a result, because it was abandoned or panicked, only
hands its place back.

## Main definitions

* `CircuitBreaker.State`, `CircuitBreaker.Transition`: states and their changes.
* `CircuitBreaker`: the state of a breaker.
* `CircuitBreaker.request`, `CircuitBreaker.settle`, `CircuitBreaker.abandon`: the
  life of a call.
* `CircuitBreaker.observe`, `CircuitBreaker.reset`, `CircuitBreaker.forceOpen`:
  what else is done to a breaker.
-/

namespace Safeguard

namespace CircuitBreaker

/-- The state of a circuit. -/
inductive State where
  /-- Calls pass. -/
  | closed
  /-- Calls are rejected. -/
  | opened
  /-- A few calls probe whether the operation has recovered. -/
  | halfOpen
deriving DecidableEq, Repr

namespace State

/-- The name of a state. -/
def name : State → String
  | .closed => "closed"
  | .opened => "open"
  | .halfOpen => "half_open"

/-- The state of a name. -/
def ofName? : String → Option State
  | "closed" => some .closed
  | "open" => some .opened
  | "half_open" => some .halfOpen
  | _ => none

@[simp] theorem ofName?_name (s : State) : ofName? s.name = some s := by cases s <;> rfl

end State

/-- A change of state. -/
structure Transition where
  /-- The state that was left. -/
  source : State
  /-- The state that was entered. -/
  target : State
deriving DecidableEq, Repr

/-- An admitted call. -/
structure Permit where
  /-- For a probe, the period it was admitted in. -/
  probe : Option Nat
deriving DecidableEq, Repr

/-- The name of a breaker that was given none. -/
def defaultName : String := "circuit_breaker"

/-- Counts of failures and successes stop here. -/
abbrev largestCount : Nat := UInt32.size - 1

/-- One more, up to the largest count. -/
def countUp (n : Nat) : Nat := min (n + 1) largestCount

end CircuitBreaker

open CircuitBreaker in
/-- The state of a breaker. -/
structure CircuitBreaker where
  /-- The configuration in force. -/
  config : Config
  /-- The state that was last entered. -/
  state : State
  /-- Consecutive failures. -/
  failures : Nat
  /-- Consecutive successes. -/
  successes : Nat
  /-- When the last failure was recorded, or the circuit was forced open. -/
  lastFailure : Option Instant
  /-- Probes of the current period that have not ended. -/
  probes : Nat
  /-- The number of the current period: how often the state has changed. -/
  period : Nat
  /-- Calls that asked for admission. -/
  totalRequests : Nat
  /-- Calls that were rejected. -/
  rejectedRequests : Nat
  /-- How often the circuit opened. -/
  timesOpened : Nat
  /-- How often the circuit closed. -/
  timesClosed : Nat

namespace CircuitBreaker

/-- A snapshot of a breaker; `τ` is the type of points of time. -/
structure Metrics (τ : Type) where
  state : State
  failures : Nat
  successes : Nat
  lastFailure : Option τ
  totalRequests : Nat
  rejectedRequests : Nat
  timesOpened : Nat
  timesClosed : Nat
deriving DecidableEq

/-- The share of calls that were rejected; none if there were no calls. -/
def Metrics.rejectionRate {τ R : Type} [Scalar R] (m : Metrics τ) : R :=
  if m.totalRequests = 0 then Scalar.zero
  else Scalar.ofNat m.rejectedRequests / Scalar.ofNat m.totalRequests

/-- A closed circuit that has seen no call; its configuration is clamped. -/
def new (c : Config) : CircuitBreaker where
  config := c.clamp
  state := .closed
  failures := 0
  successes := 0
  lastFailure := none
  probes := 0
  period := 0
  totalRequests := 0
  rejectedRequests := 0
  timesOpened := 0
  timesClosed := 0

/-- Enters a state, which starts a new period. -/
def enter (b : CircuitBreaker) : State → CircuitBreaker
  | .opened =>
    { b with state := .opened, period := b.period + 1, probes := 0,
             timesOpened := b.timesOpened + 1 }
  | .halfOpen =>
    { b with state := .halfOpen, period := b.period + 1, probes := 0, successes := 0 }
  | .closed =>
    { b with state := .closed, period := b.period + 1, probes := 0, failures := 0,
             successes := 0, timesClosed := b.timesClosed + 1 }

@[simp] theorem state_enter (b : CircuitBreaker) (s : State) : (b.enter s).state = s := by
  cases s <;> rfl

@[simp] theorem period_enter (b : CircuitBreaker) (s : State) :
    (b.enter s).period = b.period + 1 := by
  cases s <;> rfl

/-- A period starts without probes. -/
@[simp] theorem probes_enter (b : CircuitBreaker) (s : State) : (b.enter s).probes = 0 := by
  cases s <;> rfl

@[simp] theorem config_enter (b : CircuitBreaker) (s : State) : (b.enter s).config = b.config := by
  cases s <;> rfl

/-- Changes the state, unless it is the present one. -/
def transition (b : CircuitBreaker) (target : State) : CircuitBreaker × Option Transition :=
  if b.state = target then (b, none) else (b.enter target, some ⟨b.state, target⟩)

/-- Whether the cooldown of an open circuit has passed. -/
def cooled (b : CircuitBreaker) (now : Instant) : Bool :=
  match b.lastFailure with
  | none => true
  | some failedAt => b.config.cooldown.nanos ≤ now - failedAt

/-- Turns an open circuit half-open once its cooldown has passed. -/
def refresh (b : CircuitBreaker) (now : Instant) : CircuitBreaker × Option Transition :=
  if b.state = .opened ∧ b.cooled now then b.transition .halfOpen else (b, none)

/-- Hands back the place of a probe whose period still runs. -/
def freeProbe (b : CircuitBreaker) (p : Permit) : CircuitBreaker :=
  if p.probe = some b.period then { b with probes := b.probes - 1 } else b

/-- Records a failure: enough of them open a closed circuit, one reopens a
half-open one. -/
def recordFailure (b : CircuitBreaker) (now : Instant) : CircuitBreaker × Option Transition :=
  let b := { b with failures := countUp b.failures, successes := 0, lastFailure := some now }
  match b.state with
  | .closed =>
    if b.config.failureThreshold.toNat ≤ b.failures then b.transition .opened else (b, none)
  | .halfOpen => b.transition .opened
  | .opened => (b, none)

/-- Records a success: it ends a run of failures, and enough of them close a
half-open circuit. A success that comes when the circuit is open is ignored. -/
def recordSuccess (b : CircuitBreaker) : CircuitBreaker × Option Transition :=
  match b.state with
  | .closed => ({ b with failures := 0, successes := countUp b.successes }, none)
  | .halfOpen =>
    let b := { b with successes := countUp b.successes }
    if b.config.successThreshold.toNat ≤ b.successes then b.transition .closed else (b, none)
  | .opened => (b, none)

/-- A call asks for admission. A closed circuit admits it, a half-open one admits
it as a probe while there is a place, and otherwise it is rejected. -/
def request (b : CircuitBreaker) (now : Instant) :
    CircuitBreaker × Option Transition × Option Permit :=
  let (b, change) := b.refresh now
  -- A call counts whether or not it is admitted.
  let b := { b with totalRequests := b.totalRequests + 1 }
  match b.state with
  | .closed => (b, change, some ⟨none⟩)
  | .halfOpen =>
    if b.probes < b.config.maxHalfOpenProbes.toNat then
      ({ b with probes := b.probes + 1 }, change, some ⟨some b.period⟩)
    else ({ b with rejectedRequests := b.rejectedRequests + 1 }, change, none)
  | .opened => ({ b with rejectedRequests := b.rejectedRequests + 1 }, change, none)

/-- An admitted call ends with a result. -/
def settle (b : CircuitBreaker) (p : Permit) (failed : Bool) (now : Instant) :
    CircuitBreaker × Option Transition :=
  if failed then (b.freeProbe p).recordFailure now else (b.freeProbe p).recordSuccess

/-- An admitted call ends without a result. -/
def abandon (b : CircuitBreaker) (p : Permit) : CircuitBreaker := b.freeProbe p

/-- Looks at the state, which may have to turn half-open first. -/
def observe (b : CircuitBreaker) (now : Instant) : CircuitBreaker × Option Transition :=
  b.refresh now

/-- Closes the circuit and clears the consecutive counts. -/
def reset (b : CircuitBreaker) : CircuitBreaker × Option Transition :=
  let (b, change) := b.transition .closed
  -- Also without a transition: a closed circuit forgets its failures.
  ({ b with failures := 0, successes := 0, probes := 0 }, change)

/-- Opens the circuit and starts a new cooldown. -/
def forceOpen (b : CircuitBreaker) (now : Instant) : CircuitBreaker × Option Transition :=
  { b with lastFailure := some now }.transition .opened

/-- A snapshot of the counters as they stand. -/
def metrics (b : CircuitBreaker) : Metrics Instant where
  state := b.state
  failures := b.failures
  successes := b.successes
  lastFailure := b.lastFailure
  totalRequests := b.totalRequests
  rejectedRequests := b.rejectedRequests
  timesOpened := b.timesOpened
  timesClosed := b.timesClosed

end CircuitBreaker

end Safeguard
