import Safeguard.Failure

/-!
# Operations

An operation takes some time, or never ends, and then returns a value, fails, or
panics. It may heed its cancellation token and stop as soon as the token is
cancelled. A call that repeats its operation may meet a different behaviour each
time: a script lists them, and its last entry goes on for ever.

## Main definitions

* `Operation`: the behaviour of one attempt.
* `Operation.ofScript`: the behaviour of an attempt by its number.
* `Outcome`: what a call or an attempt ends in.
* `Operation.poll`: what an operation that has been started does now.
-/

namespace Safeguard

/-- What an operation ends in by itself. -/
inductive Ending (α : Type) where
  | value (v : Option α)
  | failure (f : Failure)
  | panic (message : String)

/-- The behaviour of one attempt. -/
structure Operation (α : Type) where
  /-- How many milliseconds it takes; none if it never ends by itself. -/
  delay : Option Nat
  /-- What it then ends in. -/
  ending : Ending α
  /-- Whether it stops when its token is cancelled. -/
  heeds : Bool

/-- What a call ends in. -/
inductive Outcome (α : Type) where
  | value (v : Option α)
  | error (e : CallError)
  | panic (message : String)

/-- How a run of an operation ended. -/
inductive RunEnd where
  | returned
  | failed
  | panicked
  /-- It heeded its token. -/
  | stopped
  /-- It was abandoned before it ended. -/
  | dropped
deriving DecidableEq, Repr

namespace Operation

variable {α : Type}

/-- An operation that returns nothing at once. -/
def nothing : Operation α := ⟨some 0, .value none, false⟩

/-- The behaviour of an attempt; attempts count from one. -/
def ofScript (script : List (Operation α)) (number : Nat) : Operation α :=
  (script[number - 1]?).getD (script.getLast?.getD nothing)

/-- The error of an operation that stopped because its token was cancelled. -/
def stoppedFailure : Failure := .root (.operation (-1) "stopped")

/-- The clock reading at which an operation started now ends by itself. -/
def due (op : Operation α) (clock : Nat) : Option Nat := op.delay.map (clock + ·)

/-- What the operation ends in by itself, and how its run is recorded. -/
def result (op : Operation α) : Outcome α × RunEnd :=
  match op.ending with
  | .value v => (.value v, .returned)
  | .failure f => (.error (.operation f), .failed)
  | .panic message => (.panic message, .panicked)

/-- What an operation does now, if it ends now. A cancelled token comes first. -/
def poll (op : Operation α) (cancelled : Bool) (due : Option Nat) (clock : Nat) :
    Option (Outcome α × RunEnd) :=
  if op.heeds && cancelled then some (.error (.operation stoppedFailure), .stopped)
  else
    match due with
    | none => none
    | some tick => if tick ≤ clock then some op.result else none

end Operation

end Safeguard
