/-!
# Errors and their sources

A layer that turns a call away, or gives it up, reports one of six errors. The
operation reports errors of its own. A call ends in an error of one of these two
sorts, and wraps what it reports: the wrapper is an error whose source is the
layer's error or the operation's. Errors may have further sources, so an error is
read as a chain, and a predicate on errors looks for the first link it knows.

## Main definitions

* `LayerError`: what the layers report.
* `Failure`: an error with its sources.
* `Failure.chain`, `Failure.findSource`: the links, and the first of a kind.
* `CallError`: what a call ends in.
* `Predicate`: a judgement on errors.
-/

namespace Safeguard

/-- What the layers themselves report. -/
inductive LayerError where
  /-- The circuit is open, or has no probe to spare. -/
  | circuitOpen
  /-- No attempt was allowed. -/
  | attemptsExceeded
  /-- There was no token. -/
  | rateLimited
  /-- There was no slot. -/
  | bulkheadFull
  /-- The attempt did not finish before its deadline. -/
  | timedOut
  /-- The caller gave the call up. -/
  | cancelled
deriving DecidableEq, Repr

namespace LayerError

/-- All of them, in the order in which they are listed. -/
def all : List LayerError :=
  [.circuitOpen, .attemptsExceeded, .rateLimited, .bulkheadFull, .timedOut, .cancelled]

/-- A stable name for reports. -/
def name : LayerError → String
  | .circuitOpen => "circuit_open"
  | .attemptsExceeded => "max_retries_exceeded"
  | .rateLimited => "rate_limit_exceeded"
  | .bulkheadFull => "bulkhead_full"
  | .timedOut => "timeout"
  | .cancelled => "cancelled"

/-- The error of a name. -/
def ofName? (s : String) : Option LayerError := all.find? (·.name == s)

@[simp] theorem ofName?_name (e : LayerError) : ofName? e.name = some e := by cases e <;> rfl

/-- The error in words. -/
def message : LayerError → String
  | .circuitOpen => "circuit breaker is open"
  | .attemptsExceeded => "maximum retry attempts exceeded"
  | .rateLimited => "rate limit exceeded"
  | .bulkheadFull => "bulkhead is full"
  | .timedOut => "operation timed out"
  | .cancelled => "operation was cancelled"

/-- Whether the call was turned away before the operation ran. -/
def isRejection : LayerError → Bool
  | .circuitOpen | .rateLimited | .bulkheadFull => true
  | _ => false

end LayerError

/-- A link in a chain of errors. -/
inductive Cause where
  /-- A layer's error. -/
  | layer (error : LayerError)
  /-- An error of the operation, with a code. -/
  | operation (code : Int) (message : String)
  /-- A remark on an error further down. -/
  | note (message : String)
  /-- The wrapper that a call puts around what it ends in. -/
  | call
deriving DecidableEq, Repr

namespace Cause

/-- The layer's error, if the link is one. -/
def layer? : Cause → Option LayerError
  | .layer e => some e
  | _ => none

/-- The operation's code, if the link is an error of the operation. -/
def code? : Cause → Option Int
  | .operation code _ => some code
  | _ => none

/-- The operation's message, if the link is an error of the operation. -/
def operationMessage? : Cause → Option String
  | .operation _ message => some message
  | _ => none

/-- The remark, if the link is one. -/
def note? : Cause → Option String
  | .note message => some message
  | _ => none

/-- Whether the link is a call's wrapper. -/
def wrapper? : Cause → Option Unit
  | .call => some ()
  | _ => none

/-- What a link says for itself; a wrapper says nothing. -/
def message : Cause → String
  | .layer e => e.message
  | .operation _ message => message
  | .note message => message
  | .call => ""

end Cause

/-- An error, perhaps with another one as its source. -/
inductive Failure where
  | root (cause : Cause)
  | because (cause : Cause) (source : Failure)
deriving DecidableEq, Repr

namespace Failure

/-- The error itself, without its sources. -/
def head : Failure → Cause
  | .root c => c
  | .because c _ => c

/-- The source of an error. -/
def source? : Failure → Option Failure
  | .root _ => none
  | .because _ s => some s

/-- An error in words. A wrapper speaks for its source. -/
def message : Failure → String
  | .root c => c.message
  | .because .call s => s.message
  | .because c _ => c.message

/-- The error and all errors behind it, outermost first. -/
def errors : Failure → List Failure
  | .root c => [.root c]
  | .because c s => .because c s :: s.errors

/-- The links, outermost first. -/
def chain (f : Failure) : List Cause := f.errors.map head

/-- The first link that the selection knows, starting at the error itself and
following the sources. -/
def findSource {β : Type} (select : Cause → Option β) : Failure → Option β
  | .root c => select c
  | .because c s =>
    match select c with
    | some b => some b
    | none => s.findSource select

end Failure

/-- What a call ends in when it does not succeed. -/
inductive CallError where
  /-- A layer failed the call. -/
  | layer (error : LayerError)
  /-- The operation ran and failed. -/
  | operation (error : Failure)
deriving DecidableEq, Repr

namespace CallError

/-- The error as the start of a chain: a wrapper around what happened. -/
def failure : CallError → Failure
  | .layer e => .because .call (.root (.layer e))
  | .operation f => .because .call f

/-- The layer's error, if a layer failed the call. -/
def kind? : CallError → Option LayerError
  | .layer e => some e
  | .operation _ => none

/-- The operation's error, if the operation failed. -/
def operation? : CallError → Option Failure
  | .layer _ => none
  | .operation f => some f

/-- The error in words. -/
def message (e : CallError) : String := e.failure.message

end CallError

/-- A judgement on errors. It may itself panic, with a message. -/
abbrev Predicate := Failure → Except String Bool

namespace Predicate

/-- The same judgement on every error. -/
def always (verdict : Bool) : Predicate := fun _ => .ok verdict

/-- Looks for an error of the operation and asks whether its code is listed. -/
def codes (listed : List Int) (otherwise : Bool) : Predicate := fun f =>
  .ok ((f.findSource Cause.code?).elim otherwise listed.contains)

/-- Looks for a layer's error and asks whether it is listed. -/
def layerErrors (listed : List LayerError) (otherwise : Bool) : Predicate := fun f =>
  .ok ((f.findSource Cause.layer?).elim otherwise listed.contains)

/-- Panics on every error. -/
def panics (message : String) : Predicate := fun _ => .error message

end Predicate

end Safeguard
