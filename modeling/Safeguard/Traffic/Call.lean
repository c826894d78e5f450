import Safeguard.Traffic.Basic

/-!
# One step of a call

A call enters its layers from the outermost inwards, does its work, and leaves
them again with an outcome. A step enters one layer, leaves one layer, or looks
whether what the call sleeps for has come. Where several things can end a sleep,
the caller's token comes first, then what was waited for, then the clock.

A panic travels outwards like an outcome and gives back what the layers lent. An
abandoned call gives everything back at once, from the innermost layer outwards.

## Main definitions

* `Traffic.step`: one step of a call, if it can take one.
* `Traffic.abandon`: the end of a call whose caller dropped it.
-/

namespace Safeguard.Traffic

open CircuitBreaker (Permit)

variable {α : Type}

/-- Lets a call go on with another activity. -/
def become (tr : Traffic α) (id : Nat) (c : Call α) (activity : Activity α) : Traffic α :=
  tr.setCall id { c with activity := activity }

/-- Puts a call to sleep. -/
def sleep (tr : Traffic α) (id : Nat) (c : Call α) (activity : Activity α) : Traffic α :=
  { tr with stamps := tr.stamps + 1 }.setCall id { c with activity := activity, since := tr.stamps }

/-- Lets a call leave with an error of a layer. -/
def refuse (tr : Traffic α) (id : Nat) (c : Call α) (e : LayerError) : Traffic α :=
  tr.become id c (.leaving (.error (.layer e)))

/-- Whether the caller's token is cancelled. -/
def givenUp (tr : Traffic α) (c : Call α) : Bool := tr.tokens.isCancelled c.token

/-! ## Entering -/

/-- Asks for tokens, and sleeps if they should come in time. -/
def awaitTokens (tr : Traffic α) (id : Nat) (c : Call α) (l : RateLimiter Float) (n : UInt32)
    (inner : List Stage) : Traffic α :=
  let (l, started) := l.beginWait n tr.now
  let tr := tr.setLimiter l
  match started with
  | .granted => tr.become id c (.entering inner)
  | .refused => tr.refuse id c .rateLimited
  | .pending delay =>
    (tr.note (.tokensAwaited n delay)).sleep id c (.awaitingTokens n (tr.dueIn delay) inner)

/-- Passes the rate limiter, which waits for a token if it is configured to. -/
def passLimiter (tr : Traffic α) (id : Nat) (c : Call α) (l : RateLimiter Float)
    (inner : List Stage) : Traffic α :=
  if l.config.wait then tr.awaitTokens id c l 1 inner
  else
    let (l, granted) := l.allow 1 tr.now
    let tr := tr.setLimiter l
    if granted then tr.become id c (.entering inner)
    else (tr.note .rateExceeded).refuse id c .rateLimited

/-- Turns a call away for lack of a slot. -/
def refuseSlot (tr : Traffic α) (id : Nat) (c : Call α) (b : Bulkhead Nat) : Traffic α :=
  ((tr.setBulkhead b.reject).note (.slotRefused b.capacity)).refuse id c .bulkheadFull

/-- Lets a call in that holds a slot. -/
def occupySlot (tr : Traffic α) (id : Nat) (c : Call α) (b : Bulkhead Nat) (inner : List Stage) :
    Traffic α :=
  (tr.setBulkhead b).become id { c with frames := .slot :: c.frames } (.entering inner)

/-- Passes the bulkhead, or queues for a slot. -/
def passBulkhead (tr : Traffic α) (id : Nat) (c : Call α) (b : Bulkhead Nat) (inner : List Stage) :
    Traffic α :=
  match b.tryEnter with
  | some b => tr.occupySlot id c b inner
  | none =>
    if b.config.maxWait.isZero then tr.refuseSlot id c b
    else
      let tr := tr.note (.slotAwaited b.config.maxWait)
      if tr.givenUp c then tr.refuse id c .cancelled
      else
        (tr.setBulkhead (b.enqueue id)).sleep id c
          (.awaitingSlot (tr.dueIn b.config.maxWait) inner)

/-- Asks the circuit breaker for admission. If the hook panics, the call leaves
without the permit it would have had. -/
def passBreaker (tr : Traffic α) (id : Nat) (c : Call α) (b : CircuitBreaker)
    (inner : List Stage) : Traffic α :=
  let (b, change, permit) := b.request tr.now
  -- A probe has its place already, but no permit yet that would hand it back.
  match tr.changeBreaker (some id) b change with
  | (tr, some message) => tr.become id c (.leaving (.panic message))
  | (tr, none) =>
    match permit with
    | some p => tr.become id { c with frames := .permit p :: c.frames } (.entering inner)
    | none => (tr.note (.circuitRejected tr.attached.breakerName)).refuse id c .circuitOpen

/-- Starts the first attempt, if any is allowed. -/
def passRetry (tr : Traffic α) (id : Nat) (c : Call α) (config : Retry.Config Float)
    (inner : List Stage) : Traffic α :=
  if config.maxAttempts = 0 then tr.refuse id c .attemptsExceeded
  else tr.become id { c with frames := .attempt 1 inner :: c.frames } (.entering inner)

/-- Invokes the operation as a task of its own and waits for it until the
deadline. Its token hangs from the caller's and is held by the race and by the
operation. -/
def startRace (tr : Traffic α) (id : Nat) (c : Call α) (script : List (Operation α))
    (timeout : Duration) : Traffic α :=
  let number := c.invocations + 1
  -- Two holders: the race, and the operation for as long as it runs.
  let (tokens, deadline) := tr.tokens.child c.token 2
  let tr := { tr with tokens := tokens }.record id (.invoked number (tokens.isCancelled deadline))
  let run := tr.runs.length
  let started : Run α := ⟨id, number, deadline, Operation.ofScript script number, .fresh, 0⟩
  let tr := { tr with runs := tr.runs ++ [started] }
  (tr.wake (.run run)).sleep id { c with invocations := number }
    (.racing run deadline (tr.dueIn timeout))

/-- Does the work inside all layers. -/
def work (tr : Traffic α) (id : Nat) (c : Call α) : Traffic α :=
  match c.work with
  | .nothing => tr.become id c (.leaving (.value none))
  | .hold _ => (tr.record id .acquired).sleep id c .holding
  | .operation script =>
    let number := c.invocations + 1
    let op := Operation.ofScript script number
    (tr.record id (.invoked number (tr.givenUp c))).sleep id { c with invocations := number }
      (.operating number op (op.due tr.clock))

/-- Enters a layer; one that is absent is passed. -/
def passLayer (tr : Traffic α) (id : Nat) (c : Call α) (inner : List Stage) : Layer → Traffic α
  | .rateLimiter =>
    match tr.layers.rateLimiter with
    | some l => tr.passLimiter id c l inner
    | none => tr.become id c (.entering inner)
  | .bulkhead =>
    match tr.layers.bulkhead with
    | some b => tr.passBulkhead id c b inner
    | none => tr.become id c (.entering inner)
  | .circuitBreaker =>
    match tr.layers.circuitBreaker with
    | some b => tr.passBreaker id c b inner
    | none => tr.become id c (.entering inner)
  | .retry =>
    match tr.layers.retry with
    | some config => tr.passRetry id c config inner
    | none => tr.become id c (.entering inner)
  | .timeout =>
    match tr.layers.timeout, c.work with
    | some timeout, .operation script => tr.startRace id c script timeout
    | _, _ => tr.become id c (.entering inner)

/-- Enters the next stage. -/
def enterNext (tr : Traffic α) (id : Nat) (c : Call α) : List Stage → Traffic α
  | [] => tr.work id c
  | .layer l :: inner => tr.passLayer id c inner l
  | .tokens n :: inner =>
    match tr.layers.rateLimiter with
    | some l => tr.awaitTokens id c l n inner
    | none => tr.become id c (.entering inner)

/-! ## Leaving -/

/-- Gives a slot back; the call that it is handed to is woken. -/
def releaseSlot (tr : Traffic α) : Traffic α :=
  match tr.layers.bulkhead with
  | none => tr
  | some b =>
    let (b, next) := b.release
    (tr.setBulkhead b).wakeCall next

/-- Hands a permit back without a result. -/
def abandonPermit (tr : Traffic α) (p : Permit) : Traffic α :=
  match tr.layers.circuitBreaker with
  | none => tr
  | some b => tr.setBreaker (b.abandon p)

/-- Tells the circuit breaker how a call ended. A hook that panics replaces the
outcome. -/
def settlePermit (tr : Traffic α) (id : Nat) (c : Call α) (p : Permit) (failed : Bool)
    (outcome : Outcome α) : Traffic α :=
  match tr.layers.circuitBreaker with
  | none => tr.become id c (.leaving outcome)
  | some b =>
    let (b, change) := b.settle p failed tr.now
    match tr.changeBreaker (some id) b change with
    | (tr, some message) => tr.become id c (.leaving (.panic message))
    | (tr, none) => tr.become id c (.leaving outcome)

/-- Leaves the circuit breaker. An error is judged by the predicate; a panic is no
result. -/
def leaveBreaker (tr : Traffic α) (id : Nat) (c : Call α) (p : Permit) : Outcome α → Traffic α
  | .panic message => (tr.abandonPermit p).become id c (.leaving (.panic message))
  | .value v => tr.settlePermit id c p false (.value v)
  | .error e =>
    match tr.attached.failureIf with
    | none => tr.settlePermit id c p true (.error e)
    | some judge =>
      match judge e.failure with
      | .error message => (tr.abandonPermit p).become id c (.leaving (.panic message))
      | .ok verdict =>
        (tr.record id (.judgedFailure e.message verdict)).settlePermit id c p verdict (.error e)

/-- Sleeps before the next attempt. The hook is told first, and may panic. The
call is still inside the attempt that failed; `outside` is what it is inside
otherwise. -/
def pause (tr : Traffic α) (id : Nat) (c : Call α) (outside : List Frame)
    (config : Retry.Config Float) (number : Nat) (e : CallError) : Traffic α :=
  let delay := config.delay number (tr.attached.draw tr.drawn)
  let tr := { tr with drawn := tr.drawn + 1 }
  let (tr, panicked) :=
    match tr.attached.onRetry with
    | none => (tr, none)
    | some hook => (tr.record id (.retrying number delay e.message), hook.panics number)
  match panicked with
  | some message => tr.become id { c with frames := outside } (.leaving (.panic message))
  | none =>
    (tr.note (.attemptRepeated number config.maxAttempts.toNat delay e.message)).sleep id c
      (.pausing (tr.dueIn delay))

/-- Leaves an attempt that failed: for another one if the error is worth it and an
attempt is left, and with the error otherwise. -/
def leaveFailedAttempt (tr : Traffic α) (id : Nat) (c : Call α) (outside : List Frame)
    (number : Nat) (e : CallError) : Traffic α :=
  match tr.layers.retry with
  | none => tr.become id { c with frames := outside } (.leaving (.error e))
  | some config =>
    let judged : Except String (Traffic α × Bool) :=
      match tr.attached.retryIf with
      | none => .ok (tr, true)
      | some judge =>
        (judge e.failure).map fun verdict =>
          (tr.record id (.judgedRetry e.message verdict), verdict)
    match judged with
    | .error message => tr.become id { c with frames := outside } (.leaving (.panic message))
    | .ok (tr, worthIt) =>
      -- The error is judged first, so the predicate sees the last one too.
      if worthIt && config.mayFollow number then tr.pause id c outside config number e
      else tr.become id { c with frames := outside } (.leaving (.error e))

/-- Leaves the innermost protection, or ends the call. -/
def leaveNext (tr : Traffic α) (id : Nat) (c : Call α) (outcome : Outcome α) : Traffic α :=
  match c.frames with
  | [] => (tr.record id (.done outcome)).become id c .ended
  | .slot :: outside =>
    tr.releaseSlot.become id { c with frames := outside } (.leaving outcome)
  | .permit p :: outside => tr.leaveBreaker id { c with frames := outside } p outcome
  | .attempt number _ :: outside =>
    match outcome with
    | .error e => tr.leaveFailedAttempt id c outside number e
    | o => tr.become id { c with frames := outside } (.leaving o)

/-! ## Sleeping -/

/-- Looks whether the tokens are there. -/
def resumeTokens (tr : Traffic α) (id : Nat) (c : Call α) (n : UInt32) (due : Nat)
    (inner : List Stage) : Option (Traffic α) :=
  if tr.givenUp c then some (tr.refuse id c .cancelled)
  else if tr.clock < due then none
  else
    match tr.layers.rateLimiter with
    | none => some (tr.become id c (.entering inner))
    | some l =>
      let (l, granted) := l.allow n tr.now
      let tr := tr.setLimiter l
      some (if granted then tr.become id c (.entering inner)
        else (tr.note (.tokensMissed n)).refuse id c .rateLimited)

/-- Takes a call out of the queue of the bulkhead. -/
def leaveQueue (tr : Traffic α) (id : Nat) : Traffic α :=
  match tr.layers.bulkhead with
  | none => tr
  | some b =>
    let (b, next) := b.leave id
    (tr.setBulkhead b).wakeCall next

/-- Looks whether a slot was handed over. -/
def resumeSlot (tr : Traffic α) (id : Nat) (c : Call α) (due : Nat) (inner : List Stage) :
    Option (Traffic α) :=
  if tr.givenUp c then some ((tr.leaveQueue id).refuse id c .cancelled)
  else
    match tr.layers.bulkhead with
    | none => some (tr.become id c (.entering inner))
    | some b =>
      match b.resume id with
      -- A slot that was handed over counts even if the time is up.
      | some b => some (tr.occupySlot id c b inner)
      | none =>
        if tr.clock < due then none
        else some (tr.refuseSlot id c (b.leave id).1)

/-- Looks whether the pause is over. -/
def resumePause (tr : Traffic α) (id : Nat) (c : Call α) (due : Nat) : Option (Traffic α) :=
  match c.frames with
  | .attempt number inner :: outside =>
    if tr.givenUp c then some (tr.refuse id { c with frames := outside } .cancelled)
    else if tr.clock < due then none
    else
      some (tr.become id { c with frames := .attempt (number + 1) inner :: outside }
        (.entering inner))
  | _ => some (tr.refuse id c .cancelled)

/-- Looks whether the operation has ended. -/
def resumeOperation (tr : Traffic α) (id : Nat) (c : Call α) (number : Nat) (op : Operation α)
    (due : Option Nat) : Option (Traffic α) :=
  (op.poll (tr.givenUp c) due tr.clock).map fun (outcome, ending) =>
    (tr.recordRun id number ending).become id c (.leaving outcome)

/-- Ends a race: the token of the run is cancelled. -/
def endRace (tr : Traffic α) (deadline : TokenId) : Traffic α :=
  (tr.cancelToken deadline).dropToken deadline

/-- What a run ended in, if it has ended. -/
def runOutcome (tr : Traffic α) (run : Nat) : Option (Outcome α) :=
  match tr.runs[run]? with
  | some ⟨_, _, _, _, .finished outcome, _⟩ => some outcome
  | _ => none

/-- Looks whether the race is over. -/
def resumeRace (tr : Traffic α) (id : Nat) (c : Call α) (run : Nat) (deadline : TokenId)
    (due : Nat) : Option (Traffic α) :=
  if tr.givenUp c then some ((tr.endRace deadline).refuse id c .cancelled)
  else
    match tr.runOutcome run with
    -- A run that has ended counts even if the time is up.
    | some outcome => some ((tr.endRace deadline).become id c (.leaving outcome))
    | none =>
      if tr.clock < due then none
      else
        let tr := tr.note (.deadlineElapsed (tr.layers.timeout.getD .zero))
        some ((tr.endRace deadline).refuse id c .timedOut)

/-- Looks whether the call was told to let go. -/
def resumeHold (tr : Traffic α) (id : Nat) (c : Call α) : Option (Traffic α) :=
  match c.work with
  | .hold true => some (tr.become id c (.leaving (.value none)))
  | _ => none

/-! ## Steps -/

/-- One step of a call, unless it has ended or sleeps on. -/
def step (tr : Traffic α) (id : Nat) : Option (Traffic α) := do
  let c ← tr.calls[id]?
  match c.activity with
  | .entering stages => some (tr.enterNext id c stages)
  | .leaving outcome => some (tr.leaveNext id c outcome)
  | .awaitingTokens n due inner => tr.resumeTokens id c n due inner
  | .awaitingSlot due inner => tr.resumeSlot id c due inner
  | .pausing due => tr.resumePause id c due
  | .operating number op due => tr.resumeOperation id c number op due
  | .racing run deadline due => tr.resumeRace id c run deadline due
  | .holding => tr.resumeHold id c
  | .ended => none

/-- Gives back what an abandoned call was doing. -/
def abandonActivity (tr : Traffic α) (id : Nat) : Activity α → Traffic α
  | .awaitingSlot .. => tr.leaveQueue id
  | .operating number _ _ => tr.recordRun id number .dropped
  | .racing _ deadline _ => tr.endRace deadline
  | _ => tr

/-- Gives back what an abandoned call is inside. -/
def abandonFrame (tr : Traffic α) : Frame → Traffic α
  | .slot => tr.releaseSlot
  | .permit p => tr.abandonPermit p
  | .attempt .. => tr

/-- Drops a call, from the innermost layer outwards. -/
def abandon (tr : Traffic α) (id : Nat) : Traffic α :=
  match tr.calls[id]? with
  | none => tr
  | some c =>
    (c.frames.foldl abandonFrame (tr.abandonActivity id c.activity)).setCall id
      { c with frames := [], activity := .ended }

end Safeguard.Traffic
