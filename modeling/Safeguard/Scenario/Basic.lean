import Safeguard.Traffic.Schedule

/-!
# Scenarios

A scenario is a list of steps that callers take one after the other: they start,
drop and cancel calls, let time pass, use a component directly, or ask for its
counters. After every step all calls go on as far as they can without time
passing.

## Main definitions

* `Scenario.Target`: the layers that a call goes through.
* `Scenario.Step`, `Scenario.Reply`: what callers do and what they are told.
* `Session`: calls in flight, with names for tokens.
* `Session.perform`: one step.
-/

namespace Safeguard

open CircuitBreaker (State Transition)

namespace Scenario

/-- The layers that a call goes through. -/
inductive Target where
  /-- All that are present. -/
  | all
  /-- Those of the listed ones that are present, in their proper order. -/
  | group (layers : List Layer)
  /-- One component by itself. -/
  | alone (l : Layer)

/-- Whether a layer is among those that a call goes through. -/
def Target.includes (t : Target) (l : Layer) : Bool :=
  match t with
  | .all => true
  | .group layers => layers.contains l
  | .alone k => k = l

/-- The stages of a call. -/
def Target.stages (t : Target) (present : List Layer) : List Stage :=
  match t with
  | .alone l => [.layer l]
  | t => (present.filter t.includes).map .layer

/-- The name of a token, innermost part first: a longer name hangs from the rest
of it. -/
abbrev TokenName := List String

/-- What a caller does. -/
inductive Step (α : Type) where
  /-- Starts a call. -/
  | call (target : Target) (token : TokenName) (script : List (Operation α))
  /-- Starts to acquire a slot and to hold it. -/
  | acquire (token : TokenName)
  /-- Tells such a call to let go. -/
  | release (call : Nat)
  /-- Starts to wait for tokens. -/
  | wait (n : UInt32) (token : TokenName)
  /-- Drops a call. -/
  | abort (call : Nat)
  /-- Cancels a token. -/
  | cancel (token : TokenName)
  /-- Lets time pass. -/
  | advance (millis : Nat)
  | allow (n : UInt32)
  | tokens
  | resetLimiter
  | limiterMetrics
  | bulkheadMetrics
  | state
  | breakerMetrics
  | resetBreaker
  | forceOpen
  | metrics (target : Target)
  /-- Looks at stored states and attachments, and changes nothing. -/
  | inspect

/-- Stored states and attachments. -/
structure Inspection where
  /-- The stored state and the name of the breaker, and whether a predicate and a
  hook are attached. -/
  breaker : Option (State × String × Bool × Bool)
  /-- Whether a predicate and a hook are attached to the retry policy. -/
  retry : Option (Bool × Bool)
  /-- The free slots of the bulkhead. -/
  available : Option Nat

/-- What a caller is told. -/
inductive Reply where
  | nothing
  | started (call : Nat)
  | flag (b : Bool)
  | level (tokens : Float)
  | state (s : State)
  | limiter (m : RateLimiter.Metrics Float)
  | bulkhead (m : Bulkhead.Metrics)
  | breaker (m : CircuitBreaker.Metrics Instant)
  | metrics (m : Resilience.Metrics Instant)
  | inspection (i : Inspection)
  | panicked (message : String)

end Scenario

open Scenario

/-- Calls in flight, with names for tokens. -/
structure Session (α : Type) where
  traffic : Traffic α
  names : List (TokenName × TokenId)

namespace Session

variable {α : Type}

/-- Gives a token that has just been made its name. -/
def giveName (s : Session α) (name : TokenName) (made : TokenForest × TokenId) :
    Session α × TokenId :=
  ({ traffic := { s.traffic with tokens := made.1 }, names := (name, made.2) :: s.names }, made.2)

/-- The token of a name, made on first mention. -/
def token (s : Session α) : TokenName → Session α × TokenId
  | [] => s.giveName [] s.traffic.tokens.root
  | part :: above =>
    match s.names.lookup (part :: above) with
    | some id => (s, id)
    | none =>
      if above = [] then s.giveName [part] s.traffic.tokens.root
      else
        let (s, parent) := s.token above
        s.giveName (part :: above) (s.traffic.tokens.child parent 1)

/-- Starts a call. -/
def begin (s : Session α) (token : TokenName) (stages : List Stage) (work : Work α) :
    Session α × Reply :=
  let (s, id) := s.token token
  ({ s with traffic := s.traffic.begin id stages work }, .started s.traffic.calls.length)

/-- Uses the rate limiter, if there is one. -/
def onLimiter (s : Session α)
    (use : RateLimiter Float → Instant → RateLimiter Float × Reply) : Session α × Reply :=
  match s.traffic.layers.rateLimiter with
  | none => (s, .nothing)
  | some l =>
    let (l, reply) := use l s.traffic.now
    ({ s with traffic := s.traffic.setLimiter l }, reply)

/-- Uses the circuit breaker, if there is one. A hook that panics spoils the
reply. -/
def onBreaker (s : Session α)
    (use : CircuitBreaker → Instant → CircuitBreaker × Option Transition)
    (reply : CircuitBreaker → Reply) : Session α × Reply :=
  match s.traffic.layers.circuitBreaker with
  | none => (s, .nothing)
  | some b =>
    let (b, change) := use b s.traffic.now
    let (tr, panicked) := s.traffic.changeBreaker none b change
    ({ s with traffic := tr }, panicked.elim (reply b) .panicked)

/-- Counters of the components of a target. -/
def metrics (s : Session α) (target : Target) : Session α × Reply :=
  let tr := s.traffic
  let (tr, limiter) :=
    match tr.layers.rateLimiter, target.includes .rateLimiter with
    | some l, true =>
      let (l, m) := l.metrics tr.now
      (tr.setLimiter l, some m)
    | _, _ => (tr, none)
  let bulkhead :=
    if target.includes .bulkhead then tr.layers.bulkhead.map Bulkhead.metrics else none
  match tr.layers.circuitBreaker, target.includes .circuitBreaker with
  | some b, true =>
    let (b, change) := b.observe tr.now
    let (tr, panicked) := tr.changeBreaker none b change
    ({ s with traffic := tr },
      panicked.elim (.metrics ⟨limiter, bulkhead, some b.metrics⟩) .panicked)
  | _, _ => ({ s with traffic := tr }, .metrics ⟨limiter, bulkhead, none⟩)

/-- Stored states and attachments. -/
def inspection (s : Session α) : Inspection where
  breaker := s.traffic.layers.circuitBreaker.map fun b =>
    (b.state, s.traffic.attached.breakerName, s.traffic.attached.failureIf.isSome,
      s.traffic.attached.onTransition.isSome)
  retry := s.traffic.layers.retry.map fun _ =>
    (s.traffic.attached.retryIf.isSome, s.traffic.attached.onRetry.isSome)
  available := s.traffic.layers.bulkhead.map (·.available)

/-- Carries out a step, before calls go on. -/
def apply (s : Session α) : Step α → Session α × Reply
  | .call target token script =>
    s.begin token (target.stages s.traffic.layers.present) (.operation script)
  | .acquire token => s.begin token [.layer .bulkhead] (.hold false)
  | .wait n token => s.begin token [.tokens n] .nothing
  | .release call => ({ s with traffic := s.traffic.letGo call }, .flag (s.traffic.mayLetGo call))
  | .abort call => ({ s with traffic := s.traffic.abort call }, .flag (s.traffic.isPending call))
  | .cancel token =>
    let (s, id) := s.token token
    ({ s with traffic := s.traffic.cancelToken id }, .nothing)
  | .advance millis => ({ s with traffic := s.traffic.advance millis }, .nothing)
  | .allow n => s.onLimiter fun l now =>
      let (l, granted) := l.allow n now
      (l, .flag granted)
  | .tokens => s.onLimiter fun l now =>
      let (l, level) := l.level now
      (l, .level level)
  | .resetLimiter => s.onLimiter fun l now => (l.reset now, .nothing)
  | .limiterMetrics => s.onLimiter fun l now =>
      let (l, m) := l.metrics now
      (l, .limiter m)
  | .bulkheadMetrics =>
    (s, s.traffic.layers.bulkhead.elim .nothing fun b => .bulkhead b.metrics)
  | .state => s.onBreaker (·.observe ·) fun b => .state b.state
  | .breakerMetrics => s.onBreaker (·.observe ·) fun b => .breaker b.metrics
  | .resetBreaker => s.onBreaker (fun b _ => b.reset) fun _ => .nothing
  | .forceOpen => s.onBreaker (·.forceOpen ·) fun _ => .nothing
  | .metrics target => s.metrics target
  | .inspect => (s, .inspection s.inspection)

/-- Carries out a step, and lets all calls go on as far as they can. -/
def perform (s : Session α) (step : Step α) : Session α × Reply :=
  let (s, reply) := s.apply step
  ({ s with traffic := s.traffic.settle }, reply)

end Session

end Safeguard
