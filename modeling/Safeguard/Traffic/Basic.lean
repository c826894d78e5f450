import Safeguard.Traffic.Trace
import Safeguard.Resilience.Layers
import Safeguard.Cancellation

/-!
# Calls in flight

Calls share the components of their layers, a clock of whole milliseconds and a
forest of cancellation tokens. A call is data: the layers it still has to enter,
the layers it is inside, and what it is doing. Operations that race a deadline
run as tasks of their own and may outlive their call.

## Main definitions

* `Stage`, `Frame`, `Activity`: what lies ahead of a call, what it is inside,
  and what it does.
* `Call`, `Run`, `Task`: the things that make progress.
* `Attachments`: predicates and hooks.
* `Traffic`: everything together.
-/

namespace Safeguard

open CircuitBreaker (State Transition Permit)
open Resilience (Layers)

/-- A protection that a call has yet to enter. -/
inductive Stage where
  /-- A layer, as it is configured. -/
  | layer (l : Layer)
  /-- A wait for that many tokens. -/
  | tokens (n : UInt32)
deriving DecidableEq, Repr

/-- A protection that a call is inside. -/
inductive Frame where
  /-- It holds a slot of the bulkhead. -/
  | slot
  /-- The circuit breaker admitted it. -/
  | permit (p : Permit)
  /-- It is in an attempt, which enters the given stages. -/
  | attempt (number : Nat) (inner : List Stage)

/-- What a call does. -/
inductive Activity (α : Type) where
  /-- It is about to enter the first of these stages, or to do its work. -/
  | entering (stages : List Stage)
  /-- It is on its way out with an outcome. -/
  | leaving (outcome : Outcome α)
  /-- It sleeps until tokens should be there. -/
  | awaitingTokens (n : UInt32) (due : Nat) (inner : List Stage)
  /-- It waits in the queue of the bulkhead. -/
  | awaitingSlot (due : Nat) (inner : List Stage)
  /-- It sleeps between two attempts. -/
  | pausing (due : Nat)
  /-- It runs its operation. -/
  | operating (number : Nat) (op : Operation α) (due : Option Nat)
  /-- It waits for a run of its operation, under a deadline and with a token for
  that run. -/
  | racing (run : Nat) (deadline : TokenId) (due : Nat)
  /-- It holds on to what it acquired. -/
  | holding
  /-- It has ended. -/
  | ended

/-- What a call does once it is inside all its layers. -/
inductive Work (α : Type) where
  /-- It invokes an operation. -/
  | operation (script : List (Operation α))
  /-- It holds on until it is told to let go. -/
  | hold (released : Bool)
  /-- Nothing: getting in was all. -/
  | nothing

/-- A call. -/
structure Call (α : Type) where
  /-- The caller's token. -/
  token : TokenId
  work : Work α
  /-- How often the operation was invoked. -/
  invocations : Nat
  /-- What the call is inside, innermost first. -/
  frames : List Frame
  activity : Activity α
  /-- When it fell asleep, in the order in which tasks do. -/
  since : Nat

/-- How far a run of an operation is. -/
inductive RunStatus (α : Type) where
  /-- Its task has not been looked at yet. -/
  | fresh
  | running (due : Option Nat)
  | finished (outcome : Outcome α)

/-- A run of an operation as a task of its own. -/
structure Run (α : Type) where
  /-- The call it belongs to. -/
  call : Nat
  /-- The number of the invocation. -/
  number : Nat
  /-- Its token, which is cancelled when the race for it is over. -/
  deadline : TokenId
  op : Operation α
  status : RunStatus α
  /-- When it fell asleep, in the order in which tasks do. -/
  since : Nat

/-- Something that can be given a turn. -/
inductive Task where
  | call (id : Nat)
  | run (id : Nat)
deriving DecidableEq, Repr

/-- A hook that is told of transitions. -/
structure TransitionHook where
  /-- Whether it looks at the breaker first. -/
  looks : Bool
  /-- The message it panics with after recording the transition, if it does. -/
  panics : State → Option String

/-- A hook that is told of failed attempts. -/
structure RetryHook where
  /-- The message it panics with after recording the attempt, if it does. -/
  panics : Nat → Option String

/-- What is attached to the components. -/
structure Attachments where
  breakerName : String
  failureIf : Option Predicate
  onTransition : Option TransitionHook
  retryIf : Option Predicate
  onRetry : Option RetryHook
  /-- The random numbers for the pauses between attempts. -/
  draw : Nat → Float

/-- Nothing is attached. -/
def Attachments.none : Attachments where
  breakerName := CircuitBreaker.defaultName
  failureIf := .none
  onTransition := .none
  retryIf := .none
  onRetry := .none
  draw _ := 0

/-- Calls in flight and all they share. -/
structure Traffic (α : Type) where
  /-- The clock, in milliseconds. -/
  clock : Nat
  layers : Layers
  attached : Attachments
  tokens : TokenForest
  /-- All calls ever started, by number. -/
  calls : List (Call α)
  /-- All runs ever started, by number. -/
  runs : List (Run α)
  /-- Tasks that are due for a turn, in order. -/
  ready : List Task
  /-- How often a task fell asleep so far. -/
  stamps : Nat
  /-- How many random numbers were drawn. -/
  drawn : Nat
  trace : Trace α

namespace Traffic

variable {α : Type}

/-- No calls yet. -/
def start (layers : Layers) (attached : Attachments) : Traffic α where
  clock := 0
  layers := layers
  attached := attached
  tokens := .empty
  calls := []
  runs := []
  ready := []
  stamps := 0
  drawn := 0
  trace := .empty

/-- The present point of time. -/
def now (tr : Traffic α) : Instant := tr.clock * nanosPerMilli

/-- The first clock reading that is not before the end of a span that starts
now. -/
def dueIn (tr : Traffic α) (d : Duration) : Nat := tr.clock + d.millisUp

/-! ## Records -/

/-- Records an event of a call. -/
def record (tr : Traffic α) (call : Nat) (event : Event α) : Traffic α :=
  { tr with trace := { tr.trace with events := tr.trace.events ++ [⟨tr.clock, call, event⟩] } }

/-- Records the end of a run of an operation. -/
def recordRun (tr : Traffic α) (call number : Nat) (ending : RunEnd) : Traffic α :=
  { tr with trace :=
    { tr.trace with runs := tr.trace.runs ++ [⟨tr.clock, call, number, ending⟩] } }

/-- Records a transition that a hook was told of. -/
def recordTransition (tr : Traffic α) (t : Transition) (call : Option Nat) (seen : Option State) :
    Traffic α :=
  { tr with trace :=
    { tr.trace with transitions := tr.trace.transitions ++ [⟨tr.clock, t, call, seen⟩] } }

/-- Leaves a notice. -/
def note (tr : Traffic α) (n : Notice) : Traffic α :=
  { tr with trace := { tr.trace with notices := tr.trace.notices ++ [n] } }

/-! ## Parts -/

/-- Replaces a call. -/
def setCall (tr : Traffic α) (id : Nat) (c : Call α) : Traffic α :=
  { tr with calls := tr.calls.set id c }

/-- Replaces a run. -/
def setRun (tr : Traffic α) (id : Nat) (r : Run α) : Traffic α :=
  { tr with runs := tr.runs.set id r }

/-- Replaces the rate limiter. -/
def setLimiter (tr : Traffic α) (l : RateLimiter Float) : Traffic α :=
  { tr with layers := { tr.layers with rateLimiter := some l } }

/-- Replaces the bulkhead. -/
def setBulkhead (tr : Traffic α) (b : Bulkhead Nat) : Traffic α :=
  { tr with layers := { tr.layers with bulkhead := some b } }

/-- Replaces the circuit breaker. -/
def setBreaker (tr : Traffic α) (b : CircuitBreaker) : Traffic α :=
  { tr with layers := { tr.layers with circuitBreaker := some b } }

/-! ## Waking -/

/-- Puts a task at the end of those due for a turn, unless it is among them. -/
def wake (tr : Traffic α) (t : Task) : Traffic α :=
  if t ∈ tr.ready then tr else { tr with ready := tr.ready ++ [t] }

/-- Wakes a call that was handed a slot. -/
def wakeCall (tr : Traffic α) : Option Nat → Traffic α
  | none => tr
  | some id => tr.wake (.call id)

end Traffic

/-- The clock reading at which a sleeping call wakes by itself. -/
def Activity.due? {α : Type} : Activity α → Option Nat
  | .awaitingTokens _ due _ => some due
  | .awaitingSlot due _ => some due
  | .pausing due => some due
  | .operating _ _ due => due
  | .racing _ _ due => some due
  | _ => none

/-- Whether a sleeping call watches its caller's token. -/
def Activity.watches {α : Type} : Activity α → Bool
  | .awaitingTokens .. | .awaitingSlot .. | .pausing _ | .racing .. => true
  | .operating _ op _ => op.heeds
  | _ => false

/-- The clock reading at which a run ends by itself. -/
def Run.due? {α : Type} (r : Run α) : Option Nat :=
  match r.status with
  | .running due => due
  | _ => none

/-- Whether a run watches its token. -/
def Run.watches {α : Type} (r : Run α) : Bool :=
  match r.status with
  | .running _ => r.op.heeds
  | _ => false

namespace Traffic

variable {α : Type}

/-- The tasks that satisfy a condition, in the order in which they fell asleep. -/
def sleepers (tr : Traffic α) (call : Call α → Bool) (run : Run α → Bool) : List Task :=
  let calls := (tr.calls.zipIdx.filter fun (c, _) => call c).map
    fun (c, i) => (c.since, Task.call i)
  let runs := (tr.runs.zipIdx.filter fun (r, _) => run r).map
    fun (r, i) => (r.since, Task.run i)
  ((calls ++ runs).mergeSort fun a b => a.1 ≤ b.1).map (·.2)

/-- Wakes the watchers of a token. -/
def wakeWatchers (tr : Traffic α) (token : TokenId) : Traffic α :=
  (tr.sleepers (fun c => c.activity.watches && c.token = token)
    (fun r => r.watches && r.deadline = token)).foldl wake tr

/-- Cancels a token and wakes all watchers. -/
def cancelToken (tr : Traffic α) (token : TokenId) : Traffic α :=
  let (tokens, order) := tr.tokens.cancel token
  order.foldl wakeWatchers { tr with tokens := tokens }

/-- One holder of a token fewer. -/
def dropToken (tr : Traffic α) (token : TokenId) : Traffic α :=
  { tr with tokens := tr.tokens.drop token }

/-! ## Transitions -/

/-- Tells the log and the hook of a transition, on behalf of a call if one is
given. The hook may look at the breaker first, which may turn an open circuit
half-open and so be a transition in turn; looking at a half-open circuit changes
nothing more, so two levels are all there is. Returns the message of a hook that
panics. -/
def announce : Nat → Traffic α → Option Nat → Transition → Traffic α × Option String
  | 0, tr, _, _ => (tr, none)
  | levels + 1, tr, call, t =>
    let tr := tr.note (.circuitChanged tr.attached.breakerName t)
    match tr.attached.onTransition with
    | none => (tr, none)
    | some hook =>
      match hook.looks, tr.layers.circuitBreaker with
      | true, some b =>
        let (b, change) := b.observe tr.now
        -- What the look itself changes is told before this transition is recorded.
        let (tr, panicked) :=
          match change with
          | none => (tr.setBreaker b, none)
          | some t => announce levels (tr.setBreaker b) call t
        match panicked with
        | some message => (tr, some message)
        | none => (tr.recordTransition t call (some b.state), hook.panics t.target)
      | _, _ => (tr.recordTransition t call none, hook.panics t.target)

/-- Puts the breaker into a new state and tells of the transition that led there,
if any. -/
def changeBreaker (tr : Traffic α) (call : Option Nat) (b : CircuitBreaker)
    (change : Option Transition) : Traffic α × Option String :=
  match change with
  | none => (tr.setBreaker b, none)
  | some t => announce 2 (tr.setBreaker b) call t

end Traffic

end Safeguard
