import Safeguard.Traffic.Schedule

/-!
# Components by themselves

Every component can run an operation by itself, without an executor. Here is what the execution of
a component does when it is polled, written from top to bottom, the way one reads it: what it asks
for, where it waits, when it invokes the operation, and what it does with the result. There are no
stages to enter and no frames to leave. What follows the operation is handed down as a function, and
the repetition of attempts is a recursion over the attempts that are left.

An execution that has to wait stops, and the record of its call says where: what it waits for, and
the permit or the number of the attempt that it holds. The next poll goes on from there.

## Main definitions

* `Ending.wrapped`: the result of an operation with its error wrapped.
* `Alone.invoke`: the bare operation.
* `Alone.poll`: what an execution does when it is polled.
* `Alone.drop`: what becomes of it when its caller drops it.
-/

namespace Safeguard

open CircuitBreaker (Permit)

variable {α : Type}

/-- What the caller of an operation gets: a value or a panic as it is, and an error of the operation
as one. -/
def Ending.wrapped : Ending α → Outcome α
  | .value v => .value v
  | .failure f => .error (.operation f)
  | .panic message => .panic message

/-- How an operation that ends by itself is recorded. -/
def Ending.recorded : Ending α → RunEnd
  | .value _ => .returned
  | .failure _ => .failed
  | .panic _ => .panicked

/-- What an operation ends in now, if it ends now, and how that is recorded. -/
def Operation.ending? (op : Operation α) (cancelled : Bool) (due : Option Nat) (clock : Nat) :
    Option (Ending α × RunEnd) :=
  if op.heeds && cancelled then some (.failure stoppedFailure, .stopped)
  else if due.any (· ≤ clock) then some (op.ending, op.ending.recorded)
  else none

/-- What follows when the operation has ended. -/
abbrev Sequel (α : Type) := Traffic α → Call α → Outcome α → Traffic α

namespace Alone

/-! ## The operation -/

/-- The caller gets the outcome, and the call is over. -/
def finish (id : Nat) : Sequel α := fun tr c outcome =>
  (tr.record id (.done outcome)).setCall id { c with frames := [], activity := .ended }

/-- The caller gets an error of the component. -/
def fail (tr : Traffic α) (id : Nat) (c : Call α) (e : LayerError) : Traffic α :=
  finish id tr c (.error (.layer e))

/-- Awaits the operation. -/
def await (tr : Traffic α) (id : Nat) (c : Call α) (number : Nat) (op : Operation α)
    (due : Option Nat) (sequel : Sequel α) : Traffic α :=
  match op.ending? (tr.givenUp c) due tr.clock with
  | some (ending, how) => sequel (tr.recordRun id number how) c ending.wrapped
  | none => tr.become id c (.operating number op due)

/-- Invokes the operation with the caller's token and awaits it. -/
def invoke (tr : Traffic α) (id : Nat) (c : Call α) (script : List (Operation α))
    (sequel : Sequel α) : Traffic α :=
  let number := c.invocations + 1
  let op := Operation.ofScript script number
  let tr := tr.record id (.invoked number (tr.givenUp c))
  await { tr with stamps := tr.stamps + 1 } id { c with invocations := number, since := tr.stamps }
    number op (op.due tr.clock) sequel

/-- Polls the bare operation. -/
def pollOperation (tr : Traffic α) (id : Nat) (c : Call α) (script : List (Operation α)) :
    Traffic α :=
  match c.activity with
  | .entering _ => invoke tr id c script (finish id)
  | .operating number op due => await tr id c number op due (finish id)
  | _ => tr

/-- Asks a predicate about an error; every error will do if there is none. The predicate may
panic. -/
def consult (tr : Traffic α) (id : Nat) (predicate : Option Predicate)
    (event : String → Bool → Event α) (e : CallError) : Traffic α × Except String Bool :=
  match predicate with
  | none => (tr, .ok true)
  | some judge =>
    match judge e.failure with
    | .error message => (tr, .error message)
    | .ok verdict => (tr.record id (event e.message verdict), .ok verdict)

/-! ## The rate limiter -/

/-- Sleeps until a token should be there, and asks once more. -/
def awaitToken (tr : Traffic α) (id : Nat) (c : Call α) (l : RateLimiter Float)
    (script : List (Operation α)) (due : Nat) : Traffic α :=
  if tr.givenUp c then fail tr id c .cancelled
  else if tr.clock < due then tr.become id c (.awaitingTokens 1 due [])
  else
    match l.allow 1 tr.now with
    | (l, true) => invoke (tr.setLimiter l) id c script (finish id)
    | (l, false) => fail ((tr.setLimiter l).note (.tokensMissed 1)) id c .rateLimited

/-- Takes a token, at once or after a wait, and invokes the operation. -/
def takeToken (tr : Traffic α) (id : Nat) (c : Call α) (l : RateLimiter Float)
    (script : List (Operation α)) : Traffic α :=
  if l.config.wait then
    match l.beginWait 1 tr.now with
    | (l, .granted) => invoke (tr.setLimiter l) id c script (finish id)
    | (l, .refused) => fail (tr.setLimiter l) id c .rateLimited
    | (l, .pending delay) =>
      let tr := (tr.setLimiter l).note (.tokensAwaited 1 delay)
      awaitToken { tr with stamps := tr.stamps + 1 } id { c with since := tr.stamps } l script
        (tr.dueIn delay)
  else
    match l.allow 1 tr.now with
    | (l, true) => invoke (tr.setLimiter l) id c script (finish id)
    | (l, false) => fail ((tr.setLimiter l).note .rateExceeded) id c .rateLimited

/-- Polls an execution of the rate limiter. -/
def pollLimiter (tr : Traffic α) (id : Nat) (c : Call α) (script : List (Operation α))
    (l : RateLimiter Float) : Traffic α :=
  match c.activity with
  | .entering _ => takeToken tr id c l script
  | .awaitingTokens _ due _ => awaitToken tr id c l script due
  | .operating number op due => await tr id c number op due (finish id)
  | _ => tr

/-! ## The bulkhead -/

/-- Gives the slot back. -/
def giveBack (id : Nat) : Sequel α := fun tr c outcome => finish id tr.releaseSlot c outcome

/-- Invokes the operation while holding a slot. -/
def occupy (tr : Traffic α) (id : Nat) (c : Call α) (b : Bulkhead Nat)
    (script : List (Operation α)) : Traffic α :=
  invoke (tr.setBulkhead b) id { c with frames := [.slot] } script (giveBack id)

/-- There is no slot for the call. -/
def turnAway (tr : Traffic α) (id : Nat) (c : Call α) (b : Bulkhead Nat) : Traffic α :=
  fail ((tr.setBulkhead b.reject).note (.slotRefused b.capacity)) id c .bulkheadFull

/-- Waits for a slot until the time is up. -/
def awaitSlot (tr : Traffic α) (id : Nat) (c : Call α) (b : Bulkhead Nat)
    (script : List (Operation α)) (due : Nat) : Traffic α :=
  if tr.givenUp c then fail (tr.leaveQueue id) id c .cancelled
  else
    match b.resume id with
    | some b => occupy tr id c b script
    | none =>
      if tr.clock < due then tr.become id c (.awaitingSlot due [])
      else turnAway tr id c (b.leave id).1

/-- Takes a slot, at once or after a wait, and invokes the operation. -/
def takeSlot (tr : Traffic α) (id : Nat) (c : Call α) (b : Bulkhead Nat)
    (script : List (Operation α)) : Traffic α :=
  match b.tryEnter with
  | some b => occupy tr id c b script
  | none =>
    if b.config.maxWait.isZero then turnAway tr id c b
    else
      let tr := tr.note (.slotAwaited b.config.maxWait)
      if tr.givenUp c then fail tr id c .cancelled
      else
        let tr := tr.setBulkhead (b.enqueue id)
        awaitSlot { tr with stamps := tr.stamps + 1 } id { c with since := tr.stamps }
          (b.enqueue id) script (tr.dueIn b.config.maxWait)

/-- Polls an execution of the bulkhead. -/
def pollBulkhead (tr : Traffic α) (id : Nat) (c : Call α) (script : List (Operation α))
    (b : Bulkhead Nat) : Traffic α :=
  match c.activity with
  | .entering _ => takeSlot tr id c b script
  | .awaitingSlot due _ => awaitSlot tr id c b script due
  | .operating number op due => await tr id c number op due (giveBack id)
  | _ => tr

/-! ## The circuit breaker -/

/-- Whether an outcome is a failure. A panic of the operation or of the predicate goes on. -/
def judge (tr : Traffic α) (id : Nat) : Outcome α → Traffic α × Except String Bool
  | .value _ => (tr, .ok false)
  | .error e => consult tr id tr.attached.failureIf .judgedFailure e
  | .panic message => (tr, .error message)

/-- Settles the permit with a result. A hook that panics replaces the outcome. -/
def settleAs (id : Nat) (p : Permit) (failed : Bool) : Sequel α := fun tr c outcome =>
  match tr.layers.circuitBreaker with
  | none => finish id tr c outcome
  | some b =>
    let (b, change) := b.settle p failed tr.now
    match tr.changeBreaker (some id) b change with
    | (tr, some message) => finish id tr c (.panic message)
    | (tr, none) => finish id tr c outcome

/-- Settles the permit, or hands it back without a result if something panicked. -/
def settle (id : Nat) (p : Permit) : Sequel α := fun tr c outcome =>
  match judge tr id outcome with
  | (tr, .error message) => finish id (tr.abandonPermit p) c (.panic message)
  | (tr, .ok failed) => settleAs id p failed tr c outcome

/-- Asks for admission and invokes the operation. -/
def requestPermit (tr : Traffic α) (id : Nat) (c : Call α) (b : CircuitBreaker)
    (script : List (Operation α)) : Traffic α :=
  match b.request tr.now with
  | (b, change, permit) =>
    match tr.changeBreaker (some id) b change, permit with
    | (tr, some message), _ => finish id tr c (.panic message)
    | (tr, none), some p => invoke tr id { c with frames := [.permit p] } script (settle id p)
    | (tr, none), none =>
      fail (tr.note (.circuitRejected tr.attached.breakerName)) id c .circuitOpen

/-- Polls an execution of the circuit breaker. -/
def pollBreaker (tr : Traffic α) (id : Nat) (c : Call α) (script : List (Operation α))
    (b : CircuitBreaker) : Traffic α :=
  match c.activity, c.frames with
  | .entering _, _ => requestPermit tr id c b script
  | .operating number op due, [.permit p] => await tr id c number op due (settle id p)
  | _, _ => tr

/-! ## The retry policy -/

/-- Sleeps between two attempts. -/
def awaitAttempt (tr : Traffic α) (id : Nat) (c : Call α) (due : Nat)
    (again : Traffic α → Call α → Traffic α) : Traffic α :=
  if tr.givenUp c then fail tr id c .cancelled
  else if tr.clock < due then tr.become id c (.pausing due)
  else again tr c

/-- Tells the hook of a failed attempt and sleeps before the next one. -/
def backOff (tr : Traffic α) (id : Nat) (c : Call α) (config : Retry.Config Float) (number : Nat)
    (e : CallError) (again : Traffic α → Call α → Traffic α) : Traffic α :=
  let delay := config.delay number (tr.attached.draw tr.drawn)
  let tr := { tr with drawn := tr.drawn + 1 }
  let sleep (tr : Traffic α) : Traffic α :=
    let tr := tr.note (.attemptRepeated number config.maxAttempts.toNat delay e.message)
    awaitAttempt { tr with stamps := tr.stamps + 1 } id { c with since := tr.stamps }
      (tr.dueIn delay) again
  match tr.attached.onRetry with
  | none => sleep tr
  | some hook =>
    let tr := tr.record id (.retrying number delay e.message)
    match hook.panics number with
    | some message => finish id tr c (.panic message)
    | none => sleep tr

/-- Returns the outcome of an attempt, or tries again. -/
def tryAgain (id : Nat) (config : Retry.Config Float) (number : Nat)
    (again : Traffic α → Call α → Traffic α) : Sequel α
  | tr, c, .error e =>
    match consult tr id tr.attached.retryIf .judgedRetry e with
    | (tr, .error message) => finish id tr c (.panic message)
    | (tr, .ok worthIt) =>
      if worthIt && config.mayFollow number then backOff tr id c config number e again
      else finish id tr c (.error e)
  | tr, c, outcome => finish id tr c outcome

/-- The attempts from a number on, as many as are left. -/
def attempt (id : Nat) (script : List (Operation α)) (config : Retry.Config Float) :
    (left number : Nat) → Traffic α → Call α → Traffic α
  | 0, _, tr, c => fail tr id c .attemptsExceeded
  | left + 1, number, tr, c =>
    invoke tr id { c with frames := [.attempt number []] } script
      (tryAgain id config number (attempt id script config left (number + 1)))

/-- The attempts that follow the given one. -/
def attemptAfter (id : Nat) (script : List (Operation α)) (config : Retry.Config Float)
    (number : Nat) : Traffic α → Call α → Traffic α :=
  attempt id script config (config.maxAttempts.toNat - number) (number + 1)

/-- Polls an execution of the retry policy. -/
def pollRetry (tr : Traffic α) (id : Nat) (c : Call α) (script : List (Operation α))
    (config : Retry.Config Float) : Traffic α :=
  match c.activity, c.frames with
  | .entering _, _ => attemptAfter id script config 0 tr c
  | .pausing due, [.attempt number _] =>
    awaitAttempt tr id c due (attemptAfter id script config number)
  | .operating k op due, [.attempt number _] =>
    await tr id c k op due (tryAgain id config number (attemptAfter id script config number))
  | _, _ => tr

/-! ## The timeout -/

/-- Waits for the run of the operation, the caller's cancellation or the deadline. However that
ends, the token of the run is cancelled. -/
def race (tr : Traffic α) (id : Nat) (c : Call α) (run : Nat) (deadline : TokenId) (due : Nat)
    (limit : Duration) : Traffic α :=
  if tr.givenUp c then fail (tr.endRace deadline) id c .cancelled
  else
    match tr.runOutcome run with
    | some outcome => finish id (tr.endRace deadline) c outcome
    | none =>
      if tr.clock < due then tr
      else fail ((tr.note (.deadlineElapsed limit)).endRace deadline) id c .timedOut

/-- Invokes the operation as a task of its own, with a token that hangs from the caller's. The race
and the task hold that token. -/
def spawn (tr : Traffic α) (id : Nat) (c : Call α) (script : List (Operation α)) :
    Traffic α × TokenId :=
  let number := c.invocations + 1
  let (tokens, deadline) := tr.tokens.child c.token 2
  let tr := { tr with tokens := tokens }.record id (.invoked number (tokens.isCancelled deadline))
  let started : Run α := ⟨id, number, deadline, Operation.ofScript script number, .fresh, 0⟩
  ({ tr with runs := tr.runs ++ [started] }.wake (.run tr.runs.length), deadline)

/-- Starts the operation and races it. -/
def startRace (tr : Traffic α) (id : Nat) (c : Call α) (script : List (Operation α))
    (limit : Duration) : Traffic α :=
  let run := tr.runs.length
  let due := tr.dueIn limit
  let (tr, deadline) := spawn tr id c script
  let c := { c with invocations := c.invocations + 1, since := tr.stamps,
                    activity := .racing run deadline due }
  race ({ tr with stamps := tr.stamps + 1 }.setCall id c) id c run deadline due limit

/-- Polls an execution of the timeout. -/
def pollTimeout (tr : Traffic α) (id : Nat) (c : Call α) (script : List (Operation α))
    (limit : Duration) : Traffic α :=
  match c.activity with
  | .entering _ => startRace tr id c script limit
  | .racing run deadline due => race tr id c run deadline due limit
  | _ => tr

/-! ## Executions -/

/-- Polls an execution of a component, or of the bare operation if there is none. -/
def poll (l : Option Layer) (tr : Traffic α) (id : Nat) : Traffic α :=
  match tr.calls[id]? with
  | some c =>
    match c.work with
    | .operation script =>
      match l with
      | none => pollOperation tr id c script
      | some .rateLimiter => tr.layers.rateLimiter.elim tr (pollLimiter tr id c script)
      | some .bulkhead => tr.layers.bulkhead.elim tr (pollBulkhead tr id c script)
      | some .circuitBreaker => tr.layers.circuitBreaker.elim tr (pollBreaker tr id c script)
      | some .retry => tr.layers.retry.elim tr (pollRetry tr id c script)
      | some .timeout => tr.layers.timeout.elim tr (pollTimeout tr id c script)
    | _ => tr
  | none => tr

/-- What an execution gives back when it is dropped in the middle of something. -/
def cleanUp (l : Option Layer) (tr : Traffic α) (id : Nat) (c : Call α) : Traffic α :=
  match l, c.activity, c.frames with
  | some .bulkhead, .awaitingSlot _ _, _ => tr.leaveQueue id
  | some .bulkhead, .operating number _ _, _ => (tr.recordRun id number .dropped).releaseSlot
  | some .circuitBreaker, .operating number _ _, [.permit p] =>
    (tr.recordRun id number .dropped).abandonPermit p
  | some .timeout, .racing _ deadline _, _ => tr.endRace deadline
  | _, .operating number _ _, _ => tr.recordRun id number .dropped
  | _, _, _ => tr

/-- Drops an execution that has not ended. -/
def drop (l : Option Layer) (tr : Traffic α) (id : Nat) : Traffic α :=
  match tr.calls[id]? with
  | some c =>
    match c.activity with
    | .ended => tr
    | _ => (cleanUp l tr id c).setCall id { c with frames := [], activity := .ended }
  | none => tr

end Alone

end Safeguard
