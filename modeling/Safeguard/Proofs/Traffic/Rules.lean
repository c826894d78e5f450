import Safeguard.Proofs.Cancellation
import Safeguard.Proofs.RateLimiter.Operations
import Safeguard.Proofs.Traffic.Announcing

/-!
# The rules that steps of calls follow

A step of a call changes the call, and at most one of the rate limiter, the bulkhead and the
circuit breaker. This file lists what a step can do, as rules for the component it asks, and
proves once that every step follows one of them. What steps preserve is proved by cases on
the rules, and nothing else opens a step.

## Main definitions

* `Stage.owner`, `Activity.ahead`: what a call has yet to pass.
* `LimiterRule`, `BulkheadRule`, `BreakerRule`, `InnerRule`: what a step does with one
  component, or without any.
* `Rule`, `Traffic.Stepped`: what a step does with the layers, the runs and the call.

## Main results

* `Traffic.exists_stepped`: every step follows a rule.
-/

namespace Safeguard

open CircuitBreaker (Permit Watched)
open Resilience (Layers)

variable {α : Type}

/-- The layer that a call asks at a stage. -/
def Stage.owner : Stage → Layer
  | .layer l => l
  | .tokens _ => .rateLimiter

/-- The tokens that a call asks for at a stage of the rate limiter. -/
def Stage.demand : Stage → UInt32
  | .layer _ => 1
  | .tokens n => n

/-- The stages that a call has yet to pass. It may wait at the first of them. -/
def Activity.ahead : Activity α → List Stage
  | .entering stages => stages
  | .awaitingTokens n _ inner => .tokens n :: inner
  | .awaitingSlot _ inner => .layer .bulkhead :: inner
  | _ => []

/-- Whether an outcome is a failure to the circuit breaker; none if it is no result, because
something panicked. -/
def Attachments.verdict (a : Attachments) : Outcome α → Option Bool
  | .value _ => some false
  | .panic _ => .none
  | .error e =>
    match a.failureIf with
    | .none => some true
    | some judge => (judge e.failure).toOption

/-! ## The rules -/

section Rules

variable (tr : Traffic α) (id : Nat) (c : Call α)

/-- What a step does with the rate limiter. -/
inductive LimiterRule (l : RateLimiter Float) : RateLimiter Float → Call α → Prop where
  /-- The tokens are there, at once or after a wait. -/
  | granted {st : Stage} {inner : List Stage} {l' : RateLimiter Float}
      (ahead : c.activity.ahead = st :: inner) (owner : st.owner = .rateLimiter)
      (allow : l.allow st.demand tr.now = (l', true)) :
      LimiterRule l l' { c with activity := .entering inner }
  /-- They are not, and the call does not wait, or has waited. -/
  | refused {st : Stage} {inner : List Stage} {l' : RateLimiter Float}
      (ahead : c.activity.ahead = st :: inner) (owner : st.owner = .rateLimiter)
      (allow : l.allow st.demand tr.now = (l', false)) :
      LimiterRule l l' { c with activity := .leaving (.error (.layer .rateLimited)) }
  /-- The bucket can never hold so many. -/
  | impossible {st : Stage} {inner : List Stage} (entering : c.activity = .entering (st :: inner))
      (owner : st.owner = .rateLimiter) (burst : l.config.burst < st.demand) :
      LimiterRule l (l.record false)
        { c with activity := .leaving (.error (.layer .rateLimited)) }
  /-- The call waits for them. -/
  | pending {st : Stage} {inner : List Stage} (entering : c.activity = .entering (st :: inner))
      (owner : st.owner = .rateLimiter) (due since : Nat) :
      LimiterRule l (l.refill tr.now)
        { c with activity := .awaitingTokens st.demand due inner, since := since }

/-- What a step does with the bulkhead. -/
inductive BulkheadRule (b : Bulkhead Nat) : Bulkhead Nat → Call α → Prop where
  /-- A slot is free. -/
  | entered {st : Stage} {inner : List Stage} {b' : Bulkhead Nat}
      (entering : c.activity = .entering (st :: inner)) (owner : st.owner = .bulkhead)
      (enter : b.tryEnter = some b') :
      BulkheadRule b b' { c with frames := .slot :: c.frames, activity := .entering inner }
  /-- None is free, and the call does not wait. -/
  | full {st : Stage} {inner : List Stage} (entering : c.activity = .entering (st :: inner))
      (owner : st.owner = .bulkhead) (enter : b.tryEnter = none)
      (hurry : b.config.maxWait.isZero = true) :
      BulkheadRule b b.reject { c with activity := .leaving (.error (.layer .bulkheadFull)) }
  /-- None is free, and the caller gave up before the call could wait. -/
  | shunned {st : Stage} {inner : List Stage} (entering : c.activity = .entering (st :: inner))
      (owner : st.owner = .bulkhead) (enter : b.tryEnter = none)
      (gaveUp : tr.givenUp c = true) :
      BulkheadRule b b { c with activity := .leaving (.error (.layer .cancelled)) }
  /-- None is free, and the call waits. -/
  | queued {st : Stage} {inner : List Stage} (entering : c.activity = .entering (st :: inner))
      (owner : st.owner = .bulkhead) (enter : b.tryEnter = none) (due since : Nat) :
      BulkheadRule b (b.enqueue id)
        { c with activity := .awaitingSlot due inner, since := since }
  /-- A slot was handed to the call that waits. -/
  | resumed {due : Nat} {inner : List Stage} {b' : Bulkhead Nat}
      (waiting : c.activity = .awaitingSlot due inner) (resume : b.resume id = some b') :
      BulkheadRule b b' { c with frames := .slot :: c.frames, activity := .entering inner }
  /-- The wait was too long. -/
  | expired {due : Nat} {inner : List Stage} (waiting : c.activity = .awaitingSlot due inner)
      (resume : b.resume id = none) :
      BulkheadRule b (b.leave id).1.reject
        { c with activity := .leaving (.error (.layer .bulkheadFull)) }
  /-- The caller gave up during the wait. -/
  | quit {due : Nat} {inner : List Stage} (waiting : c.activity = .awaitingSlot due inner)
      (gaveUp : tr.givenUp c = true) :
      BulkheadRule b (b.leave id).1
        { c with activity := .leaving (.error (.layer .cancelled)) }
  /-- The call gives its slot back. -/
  | released {outcome : Outcome α} {outside : List Frame}
      (leaving : c.activity = .leaving outcome) (frames : c.frames = .slot :: outside) :
      BulkheadRule b b.release.1 { c with frames := outside, activity := .leaving outcome }

/-- What a step does with the circuit breaker. The hook may look at the breaker once more. -/
inductive BreakerRule (b : CircuitBreaker) : CircuitBreaker → Call α → Prop where
  /-- The call is admitted. -/
  | admitted {st : Stage} {inner : List Stage} {b' : CircuitBreaker} {p : Permit}
      (entering : c.activity = .entering (st :: inner)) (owner : st.owner = .circuitBreaker)
      (request : (b.request tr.now).2.2 = some p)
      (watched : Watched tr.now (b.request tr.now).1 b') :
      BreakerRule b b' { c with frames := .permit p :: c.frames, activity := .entering inner }
  /-- The call is rejected. -/
  | rejected {st : Stage} {inner : List Stage} {b' : CircuitBreaker}
      (entering : c.activity = .entering (st :: inner)) (owner : st.owner = .circuitBreaker)
      (request : (b.request tr.now).2.2 = none) (watched : Watched tr.now (b.request tr.now).1 b') :
      BreakerRule b b' { c with activity := .leaving (.error (.layer .circuitOpen)) }
  /-- The hook that is told of the change panics before the call gets its answer. -/
  | spoiled {st : Stage} {inner : List Stage} {b' : CircuitBreaker} {message : String}
      (entering : c.activity = .entering (st :: inner)) (owner : st.owner = .circuitBreaker)
      (hook : ¬ tr.attached.HookReturns) (watched : Watched tr.now (b.request tr.now).1 b') :
      BreakerRule b b' { c with activity := .leaving (.panic message) }
  /-- The call ends with a result. If the hook panics, that replaces the outcome. -/
  | settled {outcome outcome' : Outcome α} {p : Permit} {outside : List Frame} {failed : Bool}
      {b' : CircuitBreaker} (leaving : c.activity = .leaving outcome)
      (frames : c.frames = .permit p :: outside)
      (verdict : tr.attached.verdict outcome = some failed)
      (watched : Watched tr.now (b.settle p failed tr.now).1 b')
      (outcome_eq : outcome' = outcome ∨ ∃ message, outcome' = .panic message) :
      BreakerRule b b' { c with frames := outside, activity := .leaving outcome' }
  /-- The call ends without a result. -/
  | spent {outcome : Outcome α} {p : Permit} {outside : List Frame} {message : String}
      (leaving : c.activity = .leaving outcome) (frames : c.frames = .permit p :: outside)
      (verdict : tr.attached.verdict outcome = none) :
      BreakerRule b (b.abandon p)
        { c with frames := outside, activity := .leaving (.panic message) }

/-- What a step does without any of the three components; a race starts a run. -/
inductive InnerRule : List (Run α) → Call α → Prop where
  /-- The layer is absent, or does nothing for such a call. -/
  | skipped {st : Stage} {inner : List Stage} (ahead : c.activity.ahead = st :: inner)
      (idle : tr.layers.has st.owner = false ∨
        st.owner = .timeout ∧ ∀ script, c.work ≠ .operation script) :
      InnerRule tr.runs { c with activity := .entering inner }
  /-- The caller gave up during a wait, and no queue has to be left. -/
  | quit {st : Stage} {inner : List Stage} (ahead : c.activity.ahead = st :: inner)
      (waiting : ∀ stages, c.activity ≠ .entering stages)
      (absent : st.owner = .bulkhead → tr.layers.bulkhead = none)
      (gaveUp : tr.givenUp c = true) :
      InnerRule tr.runs { c with activity := .leaving (.error (.layer .cancelled)) }
  /-- No attempt is allowed. -/
  | exhausted {inner : List Stage} {config : Retry.Config Float}
      (entering : c.activity = .entering (.layer .retry :: inner))
      (retry : tr.layers.retry = some config) (none : config.maxAttempts = 0) :
      InnerRule tr.runs { c with activity := .leaving (.error (.layer .attemptsExceeded)) }
  /-- The first attempt starts. -/
  | attempted {inner : List Stage} {config : Retry.Config Float}
      (entering : c.activity = .entering (.layer .retry :: inner))
      (retry : tr.layers.retry = some config) (some : config.maxAttempts ≠ 0) :
      InnerRule tr.runs
        { c with frames := .attempt 1 inner :: c.frames, activity := .entering inner }
  /-- The operation is invoked under a deadline, as a task of its own with a new token. -/
  | raced {inner : List Stage} {timeout : Duration} {script : List (Operation α)}
      (entering : c.activity = .entering (.layer .timeout :: inner))
      (limit : tr.layers.timeout = some timeout) (work : c.work = .operation script)
      (since : Nat) :
      InnerRule
        (tr.runs ++ [⟨id, c.invocations + 1, tr.tokens.tokens.length,
          Operation.ofScript script (c.invocations + 1), .fresh, 0⟩])
        { c with invocations := c.invocations + 1,
                 activity := .racing tr.runs.length tr.tokens.tokens.length (tr.dueIn timeout),
                 since := since }
  /-- The operation is invoked. -/
  | invoked {script : List (Operation α)} (entering : c.activity = .entering [])
      (work : c.work = .operation script) (due : Option Nat) (since : Nat) :
      InnerRule tr.runs
        { c with invocations := c.invocations + 1,
                 activity := .operating (c.invocations + 1)
                   (Operation.ofScript script (c.invocations + 1)) due,
                 since := since }
  /-- The call holds what it acquired. -/
  | held {released : Bool} (entering : c.activity = .entering [])
      (work : c.work = .hold released) (since : Nat) :
      InnerRule tr.runs { c with activity := .holding, since := since }
  /-- Nothing is to be done inside. -/
  | idle (entering : c.activity = .entering []) (work : c.work = .nothing) :
      InnerRule tr.runs { c with activity := .leaving (.value none) }
  /-- The operation has ended. -/
  | operated {number : Nat} {op : Operation α} {due : Option Nat} {outcome : Outcome α}
      {ending : RunEnd} (operating : c.activity = .operating number op due)
      (poll : op.poll (tr.givenUp c) due tr.clock = some (outcome, ending)) :
      InnerRule tr.runs { c with activity := .leaving outcome }
  /-- The run has ended. -/
  | won {run deadline due : Nat} {outcome : Outcome α}
      (racing : c.activity = .racing run deadline due) (going : tr.givenUp c = false)
      (ended : tr.runOutcome run = some outcome) :
      InnerRule tr.runs { c with activity := .leaving outcome }
  /-- The deadline has come. -/
  | late {run deadline due : Nat} (racing : c.activity = .racing run deadline due)
      (going : tr.givenUp c = false) (running : tr.runOutcome run = none)
      (elapsed : due ≤ tr.clock) :
      InnerRule tr.runs { c with activity := .leaving (.error (.layer .timedOut)) }
  /-- The caller gave up during the race. -/
  | forfeited {run deadline due : Nat} (racing : c.activity = .racing run deadline due)
      (gaveUp : tr.givenUp c = true) :
      InnerRule tr.runs { c with activity := .leaving (.error (.layer .cancelled)) }
  /-- The call was told to let go. -/
  | letGo (holding : c.activity = .holding) (work : c.work = .hold true) :
      InnerRule tr.runs { c with activity := .leaving (.value none) }
  /-- An attempt is over, and so are all. A predicate or a hook that panics replaces the
  outcome. -/
  | attemptLeft {number : Nat} {inner : List Stage} {outcome outcome' : Outcome α}
      {outside : List Frame} (leaving : c.activity = .leaving outcome)
      (frames : c.frames = .attempt number inner :: outside)
      (outcome_eq : outcome' = outcome ∨ ∃ message, outcome' = .panic message) :
      InnerRule tr.runs { c with frames := outside, activity := .leaving outcome' }
  /-- An attempt failed, and another one is to follow. -/
  | paused {number : Nat} {inner : List Stage} {e : CallError} {outside : List Frame}
      {config : Retry.Config Float} (leaving : c.activity = .leaving (.error e))
      (frames : c.frames = .attempt number inner :: outside)
      (retry : tr.layers.retry = some config) (follow : config.mayFollow number = true)
      (due since : Nat) :
      InnerRule tr.runs { c with activity := .pausing due, since := since }
  /-- The next attempt starts. -/
  | repeated {due number : Nat} {inner : List Stage} {outside : List Frame}
      (pausing : c.activity = .pausing due) (frames : c.frames = .attempt number inner :: outside)
      (going : tr.givenUp c = false) (elapsed : due ≤ tr.clock) :
      InnerRule tr.runs
        { c with frames := .attempt (number + 1) inner :: outside, activity := .entering inner }
  /-- The caller gave up between two attempts. -/
  | interrupted {due number : Nat} {inner : List Stage} {outside : List Frame}
      (pausing : c.activity = .pausing due) (frames : c.frames = .attempt number inner :: outside)
      (gaveUp : tr.givenUp c = true) :
      InnerRule tr.runs
        { c with frames := outside, activity := .leaving (.error (.layer .cancelled)) }
  /-- A pause outside any attempt; no call gets there. -/
  | astray {due : Nat} (pausing : c.activity = .pausing due)
      (frames : ∀ number inner outside, c.frames ≠ .attempt number inner :: outside) :
      InnerRule tr.runs { c with activity := .leaving (.error (.layer .cancelled)) }
  /-- What the call is inside is absent; no call gets there. -/
  | unowned {outcome outcome' : Outcome α} {frame : Frame} {outside : List Frame}
      (leaving : c.activity = .leaving outcome) (frames : c.frames = frame :: outside)
      (absent : frame = .slot ∧ tr.layers.bulkhead = none ∨
        (∃ p, frame = .permit p) ∧ tr.layers.circuitBreaker = none)
      (outcome_eq : outcome' = outcome ∨ ∃ message, outcome' = .panic message) :
      InnerRule tr.runs { c with frames := outside, activity := .leaving outcome' }
  /-- The call returns, or panics. -/
  | done {outcome : Outcome α} (leaving : c.activity = .leaving outcome) (frames : c.frames = []) :
      InnerRule tr.runs { c with activity := .ended }

/-- What a step does with the layers, the runs and the call. -/
inductive Rule : Layers → List (Run α) → Call α → Prop where
  | limiter {l l' : RateLimiter Float} {c' : Call α} (present : tr.layers.rateLimiter = some l)
      (rule : LimiterRule tr c l l' c') :
      Rule { tr.layers with rateLimiter := some l' } tr.runs c'
  | bulkhead {b b' : Bulkhead Nat} {c' : Call α} (present : tr.layers.bulkhead = some b)
      (rule : BulkheadRule tr id c b b' c') :
      Rule { tr.layers with bulkhead := some b' } tr.runs c'
  | breaker {b b' : CircuitBreaker} {c' : Call α} (present : tr.layers.circuitBreaker = some b)
      (rule : BreakerRule tr c b b' c') :
      Rule { tr.layers with circuitBreaker := some b' } tr.runs c'
  | inner {runs : List (Run α)} {c' : Call α} (rule : InnerRule tr id c runs c') :
      Rule tr.layers runs c'

end Rules

/-- A step asks the rate limiter at a stage of its own. -/
theorem LimiterRule.exists_ahead {tr : Traffic α} {c c' : Call α} {l l' : RateLimiter Float}
    (h : LimiterRule tr c l l' c') :
    ∃ st inner, c.activity.ahead = st :: inner ∧ st.owner = .rateLimiter := by
  cases h with
  | granted ahead owner => exact ⟨_, _, ahead, owner⟩
  | refused ahead owner => exact ⟨_, _, ahead, owner⟩
  | impossible entering owner => exact ⟨_, _, by rw [entering]; rfl, owner⟩
  | pending entering owner => exact ⟨_, _, by rw [entering]; rfl, owner⟩

/-- A step asks the bulkhead at a stage of its own, or to give a slot back. -/
theorem BulkheadRule.exists_ahead_or {tr : Traffic α} {id : Nat} {c c' : Call α}
    {b b' : Bulkhead Nat} (h : BulkheadRule tr id c b b' c') :
    (∃ st inner, c.activity.ahead = st :: inner ∧ st.owner = .bulkhead) ∨
      ∃ outcome outside, c.activity = .leaving outcome ∧ c.frames = .slot :: outside := by
  cases h with
  | entered entering owner => exact .inl ⟨_, _, by rw [entering]; rfl, owner⟩
  | full entering owner => exact .inl ⟨_, _, by rw [entering]; rfl, owner⟩
  | shunned entering owner => exact .inl ⟨_, _, by rw [entering]; rfl, owner⟩
  | queued entering owner => exact .inl ⟨_, _, by rw [entering]; rfl, owner⟩
  | resumed waiting => exact .inl ⟨_, _, by rw [waiting]; rfl, rfl⟩
  | expired waiting => exact .inl ⟨_, _, by rw [waiting]; rfl, rfl⟩
  | quit waiting => exact .inl ⟨_, _, by rw [waiting]; rfl, rfl⟩
  | released leaving frames => exact .inr ⟨_, _, leaving, frames⟩

/-- A step asks the circuit breaker at a stage of its own, or to give a permit back. -/
theorem BreakerRule.exists_ahead_or {tr : Traffic α} {c c' : Call α} {b b' : CircuitBreaker}
    (h : BreakerRule tr c b b' c') :
    (∃ st inner, c.activity.ahead = st :: inner ∧ st.owner = .circuitBreaker) ∨
      ∃ outcome p outside, c.activity = .leaving outcome ∧ c.frames = .permit p :: outside := by
  cases h with
  | admitted entering owner => exact .inl ⟨_, _, by rw [entering]; rfl, owner⟩
  | rejected entering owner => exact .inl ⟨_, _, by rw [entering]; rfl, owner⟩
  | spoiled entering owner => exact .inl ⟨_, _, by rw [entering]; rfl, owner⟩
  | settled leaving frames => exact .inr ⟨_, _, _, leaving, frames⟩
  | spent leaving frames => exact .inr ⟨_, _, _, leaving, frames⟩

/-- A call ends outside all layers. -/
theorem Rule.frames_of_ended {tr : Traffic α} {id : Nat} {c c' : Call α} {layers : Layers}
    {runs : List (Run α)} (h : Rule tr id c layers runs c') (hended : c'.activity = .ended) :
    c'.frames = [] := by
  cases h with
  | limiter _ rule => cases rule <;> cases hended
  | bulkhead _ rule => cases rule <;> cases hended
  | breaker _ rule => cases rule <;> cases hended
  | inner rule =>
    cases rule with
    | done _ frames => exact frames
    | _ => cases hended

namespace Traffic

/-- What a step of a call does: it changes that call only, by a rule, and the clock and the
attachments stay as they are. -/
structure Stepped (tr : Traffic α) (id : Nat) (c : Call α) (tr' : Traffic α) (c' : Call α) :
    Prop where
  calls : tr'.calls = tr.calls.set id c'
  rule : Rule tr id c tr'.layers tr'.runs c'
  clock : tr'.clock = tr.clock
  attached : tr'.attached = tr.attached
  tokens : tr.tokens.Grows tr'.tokens

variable {tr tr' : Traffic α} {id : Nat} {c : Call α}

theorem Stepped.call {c' : Call α} (h : Stepped tr id c tr' c') (hc : tr.calls[id]? = some c) :
    tr'.calls[id]? = some c' := by
  rw [h.calls, List.getElem?_set_self (List.getElem?_eq_some_iff.mp hc).1]

/-! ## Waking -/

theorem exists_wake (tr : Traffic α) (t : Task) :
    ∃ ready, tr.wake t = { tr with ready := ready } := by
  unfold wake
  split
  · exact ⟨tr.ready, rfl⟩
  · exact ⟨_, rfl⟩

theorem exists_wakeCall (tr : Traffic α) (next : Option Nat) :
    ∃ ready, tr.wakeCall next = { tr with ready := ready } := by
  cases next with
  | none => exact ⟨tr.ready, rfl⟩
  | some id => exact tr.exists_wake (.call id)

theorem exists_foldl {β : Type} {f : Traffic α → β → Traffic α}
    (hf : ∀ tr x, ∃ ready, f tr x = { tr with ready := ready }) (xs : List β) (tr : Traffic α) :
    ∃ ready, xs.foldl f tr = { tr with ready := ready } := by
  induction xs generalizing tr with
  | nil => exact ⟨tr.ready, rfl⟩
  | cons x xs ih =>
    obtain ⟨ready, hx⟩ := hf tr x
    obtain ⟨ready', hxs⟩ := ih (f tr x)
    refine ⟨ready', ?_⟩
    rw [List.foldl_cons, hxs, hx]

/-- Cancelling a token changes tokens and wakes tasks. -/
theorem exists_cancelToken (tr : Traffic α) (token : TokenId) :
    ∃ ready, tr.cancelToken token =
      { tr with tokens := (tr.tokens.cancel token).1, ready := ready } := by
  have hwatchers : ∀ (tr : Traffic α) token, ∃ ready,
      tr.wakeWatchers token = { tr with ready := ready } :=
    fun tr token => exists_foldl exists_wake _ tr
  exact exists_foldl hwatchers (tr.tokens.cancel token).2
    { tr with tokens := (tr.tokens.cancel token).1 }

/-- The end of a race retires the token of the run, and wakes tasks. -/
theorem exists_endRace (tr : Traffic α) (deadline : TokenId) :
    ∃ ready, tr.endRace deadline =
      { tr with tokens := tr.tokens.retire deadline, ready := ready } := by
  obtain ⟨ready, h⟩ := tr.exists_cancelToken deadline
  refine ⟨ready, ?_⟩
  rw [endRace, h]
  rfl

/-- The start of a race makes a token for the run, and wakes the run. -/
theorem exists_startRace (tr : Traffic α) (id : Nat) (c : Call α) (script : List (Operation α))
    (timeout : Duration) :
    ∃ ready, tr.startRace id c script timeout =
      { tr.record id (.invoked (c.invocations + 1) (tr.givenUp c)) with
        tokens := (tr.tokens.child c.token 2).1
        calls := tr.calls.set id { c with
          invocations := c.invocations + 1
          activity := .racing tr.runs.length tr.tokens.tokens.length (tr.dueIn timeout)
          since := tr.stamps }
        runs := tr.runs ++ [⟨id, c.invocations + 1, tr.tokens.tokens.length,
          Operation.ofScript script (c.invocations + 1), .fresh, 0⟩]
        ready := ready
        stamps := tr.stamps + 1 } := by
  have hdeadline := tr.tokens.child_snd c.token 2
  have hflag := tr.tokens.isCancelled_child c.token 2
  simp only [startRace]
  generalize tr.tokens.child c.token 2 = made at hdeadline hflag ⊢
  obtain ⟨tokens, deadline⟩ := made
  obtain rfl : deadline = tr.tokens.tokens.length := hdeadline
  rw [hflag]
  obtain ⟨ready, hready⟩ := exists_wake
    { ({ tr with tokens := tokens }.record id (.invoked (c.invocations + 1) (tr.givenUp c))) with
      runs := tr.runs ++ [⟨id, c.invocations + 1, tr.tokens.tokens.length,
        Operation.ofScript script (c.invocations + 1), .fresh, 0⟩] }
    (.run tr.runs.length)
  exact ⟨ready, congrArg (·.sleep id { c with invocations := c.invocations + 1 }
    (.racing tr.runs.length tr.tokens.tokens.length (tr.dueIn timeout))) hready⟩

theorem exists_releaseSlot {b : Bulkhead Nat} (h : tr.layers.bulkhead = some b) :
    ∃ ready, tr.releaseSlot = { tr.setBulkhead b.release.1 with ready := ready } := by
  obtain ⟨ready, hready⟩ := (tr.setBulkhead b.release.1).exists_wakeCall b.release.2
  refine ⟨ready, ?_⟩
  rw [← hready, releaseSlot, h]

theorem exists_leaveQueue {b : Bulkhead Nat} (h : tr.layers.bulkhead = some b) (id : Nat) :
    ∃ ready, tr.leaveQueue id = { tr.setBulkhead (b.leave id).1 with ready := ready } := by
  obtain ⟨ready, hready⟩ := (tr.setBulkhead (b.leave id).1).exists_wakeCall (b.leave id).2
  refine ⟨ready, ?_⟩
  rw [← hready, leaveQueue, h]

/-! ## Entering -/

/-- A call that passes a stage without asking anything. -/
theorem stepped_skip {st : Stage} {inner : List Stage} (hc : c.activity.ahead = st :: inner)
    (h : tr.layers.has st.owner = false ∨
      st.owner = .timeout ∧ ∀ script, c.work ≠ .operation script) :
    Stepped tr id c (tr.become id c (.entering inner)) { c with activity := .entering inner } :=
  ⟨rfl, .inner (.skipped hc h), rfl, rfl, .refl _⟩

theorem stepped_awaitTokens {l : RateLimiter Float} (hl : tr.layers.rateLimiter = some l)
    {st : Stage} {inner : List Stage} (hc : c.activity = .entering (st :: inner))
    (hst : st.owner = .rateLimiter) :
    ∃ c', Stepped tr id c (tr.awaitTokens id c l st.demand inner) c' := by
  unfold awaitTokens
  obtain ⟨hburst, h⟩ | ⟨l', hallow, h⟩ | ⟨delay, h⟩ := l.beginWait_cases st.demand tr.now
  · rw [h]
    exact ⟨_, rfl, .limiter hl (.impossible hc hst hburst), rfl, rfl, .refl _⟩
  · rw [h]
    have hahead : c.activity.ahead = st :: inner := by rw [hc]; rfl
    exact ⟨_, rfl, .limiter hl (.granted hahead hst hallow), rfl, rfl, .refl _⟩
  · rw [h]
    exact ⟨_, rfl, .limiter hl (.pending hc hst _ _), rfl, rfl, .refl _⟩

theorem stepped_passLimiter {l : RateLimiter Float} (hl : tr.layers.rateLimiter = some l)
    {inner : List Stage} (hc : c.activity = .entering (.layer .rateLimiter :: inner)) :
    ∃ c', Stepped tr id c (tr.passLimiter id c l inner) c' := by
  unfold passLimiter
  split
  · exact stepped_awaitTokens hl hc rfl
  · have hahead : c.activity.ahead = .layer .rateLimiter :: inner := by rw [hc]; rfl
    dsimp only
    split
    · rename_i hgranted
      exact ⟨_, rfl, .limiter hl (.granted hahead rfl (Prod.ext rfl hgranted)), rfl, rfl, .refl _⟩
    · rename_i hrefused
      have hallow := Bool.eq_false_iff.mpr hrefused
      exact ⟨_, rfl, .limiter hl (.refused hahead rfl (Prod.ext rfl hallow)), rfl, rfl, .refl _⟩

theorem stepped_passBulkhead {b : Bulkhead Nat} (hb : tr.layers.bulkhead = some b)
    {inner : List Stage} (hc : c.activity = .entering (.layer .bulkhead :: inner)) :
    ∃ c', Stepped tr id c (tr.passBulkhead id c b inner) c' := by
  unfold passBulkhead
  split
  · rename_i b' henter
    exact ⟨_, rfl, .bulkhead hb (.entered hc rfl henter), rfl, rfl, .refl _⟩
  · rename_i henter
    split
    · rename_i hurry
      exact ⟨_, rfl, .bulkhead hb (.full hc rfl henter hurry), rfl, rfl, .refl _⟩
    · dsimp only
      split
      · rename_i hgaveUp
        have hrule : Rule tr id c { tr.layers with bulkhead := some b } tr.runs _ :=
          .bulkhead hb (.shunned hc rfl henter hgaveUp)
        rw [← hb] at hrule
        exact ⟨_, rfl, hrule, rfl, rfl, .refl _⟩
      · exact ⟨_, rfl, .bulkhead hb (.queued hc rfl henter _ _), rfl, rfl, .refl _⟩

theorem stepped_passBreaker {b : CircuitBreaker} (hb : tr.layers.circuitBreaker = some b)
    {inner : List Stage} (hc : c.activity = .entering (.layer .circuitBreaker :: inner)) :
    ∃ c', Stepped tr id c (tr.passBreaker id c b inner) c' := by
  obtain ⟨b', trace, hwatched, heq⟩ :=
    tr.exists_changeBreaker (some id) (b.request tr.now).1 (b.request tr.now).2.1
  have hreturns := fun h => tr.changeBreaker_returns h (some id) (b.request tr.now).1
    (b.request tr.now).2.1
  simp only [passBreaker]
  generalize tr.changeBreaker (some id) (b.request tr.now).1 (b.request tr.now).2.1 = told
    at heq hreturns
  obtain ⟨tr₁, panicked⟩ := told
  obtain rfl : tr₁ = _ := heq
  cases panicked with
  | some message =>
    have hhook : ¬ tr.attached.HookReturns := fun h => nomatch hreturns h
    exact ⟨_, rfl, .breaker hb (.spoiled hc rfl hhook hwatched), rfl, rfl, .refl _⟩
  | none =>
    dsimp only
    cases hpermit : (b.request tr.now).2.2 with
    | some p => exact ⟨_, rfl, .breaker hb (.admitted hc rfl hpermit hwatched), rfl, rfl, .refl _⟩
    | none => exact ⟨_, rfl, .breaker hb (.rejected hc rfl hpermit hwatched), rfl, rfl, .refl _⟩

theorem stepped_passRetry {config : Retry.Config Float} (h : tr.layers.retry = some config)
    {inner : List Stage} (hc : c.activity = .entering (.layer .retry :: inner)) :
    ∃ c', Stepped tr id c (tr.passRetry id c config inner) c' := by
  unfold passRetry
  split
  · rename_i hnone
    exact ⟨_, rfl, .inner (.exhausted hc h hnone), rfl, rfl, .refl _⟩
  · rename_i hsome
    exact ⟨_, rfl, .inner (.attempted hc h hsome), rfl, rfl, .refl _⟩

theorem stepped_startRace {timeout : Duration} (h : tr.layers.timeout = some timeout)
    {script : List (Operation α)} (hwork : c.work = .operation script) {inner : List Stage}
    (hc : c.activity = .entering (.layer .timeout :: inner)) :
    ∃ c', Stepped tr id c (tr.startRace id c script timeout) c' := by
  obtain ⟨ready, hstart⟩ := tr.exists_startRace id c script timeout
  rw [hstart]
  exact ⟨_, rfl, .inner (.raced hc h hwork _), rfl, rfl, tr.tokens.grows_child c.token 2⟩

theorem stepped_work (hc : c.activity = .entering []) :
    ∃ c', Stepped tr id c (tr.work id c) c' := by
  unfold work
  split
  · rename_i hwork
    exact ⟨_, rfl, .inner (.idle hc hwork), rfl, rfl, .refl _⟩
  · rename_i hwork
    exact ⟨_, rfl, .inner (.held hc hwork _), rfl, rfl, .refl _⟩
  · rename_i hwork
    exact ⟨_, rfl, .inner (.invoked hc hwork _ _), rfl, rfl, .refl _⟩

theorem stepped_passLayer {l : Layer} {inner : List Stage}
    (hc : c.activity = .entering (.layer l :: inner)) :
    ∃ c', Stepped tr id c (tr.passLayer id c inner l) c' := by
  have hahead : c.activity.ahead = .layer l :: inner := by rw [hc]; rfl
  have hskip : tr.layers.has l = false →
      ∃ c', Stepped tr id c (tr.become id c (.entering inner)) c' :=
    fun h => ⟨_, stepped_skip hahead (.inl h)⟩
  cases l with
  | rateLimiter =>
    simp only [passLayer]
    split
    · rename_i hl
      exact stepped_passLimiter hl hc
    · rename_i hnone
      exact hskip (by simp [Layers.has, hnone])
  | bulkhead =>
    simp only [passLayer]
    split
    · rename_i hb
      exact stepped_passBulkhead hb hc
    · rename_i hnone
      exact hskip (by simp [Layers.has, hnone])
  | circuitBreaker =>
    simp only [passLayer]
    split
    · rename_i hb
      exact stepped_passBreaker hb hc
    · rename_i hnone
      exact hskip (by simp [Layers.has, hnone])
  | retry =>
    simp only [passLayer]
    split
    · rename_i hconfig
      exact stepped_passRetry hconfig hc
    · rename_i hnone
      exact hskip (by simp [Layers.has, hnone])
  | timeout =>
    simp only [passLayer]
    split
    · rename_i timeout script htimeout hwork
      exact stepped_startRace htimeout hwork hc
    · rename_i hneither
      refine ⟨_, stepped_skip hahead ?_⟩
      cases htimeout : tr.layers.timeout with
      | none => exact .inl (by simp [Layers.has, Stage.owner, htimeout])
      | some timeout => exact .inr ⟨rfl, fun script hwork => hneither timeout script htimeout hwork⟩

theorem stepped_enterNext {stages : List Stage} (hc : c.activity = .entering stages) :
    ∃ c', Stepped tr id c (tr.enterNext id c stages) c' := by
  unfold enterNext
  split
  · exact stepped_work hc
  · exact stepped_passLayer hc
  · split
    · rename_i hl
      exact stepped_awaitTokens hl hc rfl
    · rename_i n inner _ hnone
      have hahead : c.activity.ahead = .tokens n :: inner := by rw [hc]; rfl
      exact ⟨_, stepped_skip hahead (.inl (by simp [Layers.has, Stage.owner, hnone]))⟩

/-! ## Leaving -/

theorem stepped_settlePermit {outcome : Outcome α} {p : Permit} {outside : List Frame}
    {failed : Bool} (hc : c.activity = .leaving outcome) (hf : c.frames = .permit p :: outside)
    (hverdict : tr.attached.verdict outcome = some failed) (trace : Trace α) :
    ∃ c', Stepped tr id c ({ tr with trace := trace }.settlePermit id
      { c with frames := outside } p failed outcome) c' := by
  unfold settlePermit
  split
  · rename_i hnone
    exact ⟨_, rfl, .inner (.unowned hc hf (.inr ⟨⟨p, rfl⟩, hnone⟩) (.inl rfl)), rfl, rfl, .refl _⟩
  · rename_i b hb
    obtain ⟨b', trace', hwatched, heq⟩ := exists_changeBreaker { tr with trace := trace } (some id)
      (b.settle p failed tr.now).1 (b.settle p failed tr.now).2
    dsimp only [now] at heq ⊢
    generalize changeBreaker _ (some id) _ _ = told at heq ⊢
    obtain ⟨tr₁, panicked⟩ := told
    obtain rfl : tr₁ = _ := heq
    cases panicked with
    | some message =>
      exact ⟨_, rfl, .breaker hb (.settled hc hf hverdict hwatched (.inr ⟨message, rfl⟩)), rfl, rfl,
        .refl _⟩
    | none =>
      exact ⟨_, rfl, .breaker hb (.settled hc hf hverdict hwatched (.inl rfl)), rfl, rfl, .refl _⟩

theorem stepped_abandonPermit {outcome : Outcome α} {p : Permit} {outside : List Frame}
    (hc : c.activity = .leaving outcome) (hf : c.frames = .permit p :: outside)
    (hverdict : tr.attached.verdict outcome = none) (message : String) :
    ∃ c', Stepped tr id c ((tr.abandonPermit p).become id { c with frames := outside }
      (.leaving (.panic message))) c' := by
  unfold abandonPermit
  split
  · rename_i hnone
    exact ⟨_, rfl, .inner (.unowned hc hf (.inr ⟨⟨p, rfl⟩, hnone⟩) (.inr ⟨message, rfl⟩)), rfl, rfl,
      .refl _⟩
  · rename_i b hb
    exact ⟨_, rfl, .breaker hb (.spent hc hf hverdict), rfl, rfl, .refl _⟩

theorem stepped_leaveBreaker {outcome : Outcome α} {p : Permit} {outside : List Frame}
    (hc : c.activity = .leaving outcome) (hf : c.frames = .permit p :: outside) :
    ∃ c', Stepped tr id c (tr.leaveBreaker id { c with frames := outside } p outcome) c' := by
  cases outcome with
  | panic message => exact stepped_abandonPermit hc hf rfl message
  | value v => exact stepped_settlePermit hc hf rfl tr.trace
  | error e =>
    unfold leaveBreaker
    dsimp only
    split
    · rename_i hnone
      exact stepped_settlePermit hc hf (by simp only [Attachments.verdict, hnone]) tr.trace
    · rename_i judge hjudge
      split
      · rename_i message hpanic
        exact stepped_abandonPermit hc hf
          (by simp only [Attachments.verdict, hjudge, hpanic, Except.toOption]) message
      · rename_i verdict hverdict
        exact stepped_settlePermit hc hf
          (by simp only [Attachments.verdict, hjudge, hverdict, Except.toOption]) _

/-- A call that leaves its last attempt. -/
theorem stepped_leaveAttempt {outcome outcome' : Outcome α} {number : Nat} {inner : List Stage}
    {outside : List Frame} (hc : c.activity = .leaving outcome)
    (hf : c.frames = .attempt number inner :: outside)
    (h : outcome' = outcome ∨ ∃ message, outcome' = .panic message) (trace : Trace α) :
    ∃ c', Stepped tr id c
      ({ tr with trace := trace }.become id { c with frames := outside } (.leaving outcome')) c' :=
  ⟨_, rfl, .inner (.attemptLeft hc hf h), rfl, rfl, .refl _⟩

theorem stepped_pause {e : CallError} {number : Nat} {inner : List Stage} {outside : List Frame}
    {config : Retry.Config Float} (hc : c.activity = .leaving (.error e))
    (hf : c.frames = .attempt number inner :: outside) (hconfig : tr.layers.retry = some config)
    (hfollow : config.mayFollow number = true) (trace : Trace α) :
    ∃ c', Stepped tr id c
      ({ tr with trace := trace }.pause id c outside config number e) c' := by
  unfold pause
  dsimp only
  cases tr.attached.onRetry with
  | none => exact ⟨_, rfl, .inner (.paused hc hf hconfig hfollow _ _), rfl, rfl, .refl _⟩
  | some hook =>
    dsimp only
    split
    · rename_i message _
      exact ⟨_, rfl, .inner (.attemptLeft hc hf (.inr ⟨message, rfl⟩)), rfl, rfl, .refl _⟩
    · exact ⟨_, rfl, .inner (.paused hc hf hconfig hfollow _ _), rfl, rfl, .refl _⟩

theorem stepped_leaveFailedAttempt {e : CallError} {number : Nat} {inner : List Stage}
    {outside : List Frame} (hc : c.activity = .leaving (.error e))
    (hf : c.frames = .attempt number inner :: outside) :
    ∃ c', Stepped tr id c (tr.leaveFailedAttempt id c outside number e) c' := by
  unfold leaveFailedAttempt
  split
  · exact stepped_leaveAttempt hc hf (.inl rfl) tr.trace
  · rename_i config hconfig
    have hgo : ∀ trace (worthIt : Bool), ∃ c', Stepped tr id c
        (if worthIt && config.mayFollow number then
          { tr with trace := trace }.pause id c outside config number e
        else { tr with trace := trace }.become id { c with frames := outside }
          (.leaving (.error e))) c' := by
      intro trace worthIt
      split
      · rename_i hfollow
        exact stepped_pause hc hf hconfig (Bool.and_eq_true_iff.mp hfollow).2 trace
      · exact stepped_leaveAttempt hc hf (.inl rfl) trace
    cases tr.attached.retryIf with
    | none => exact hgo tr.trace true
    | some judge =>
      dsimp only
      cases judge e.failure with
      | error message => exact stepped_leaveAttempt hc hf (.inr ⟨message, rfl⟩) tr.trace
      | ok verdict => exact hgo _ verdict

theorem stepped_leaveNext {outcome : Outcome α} (hc : c.activity = .leaving outcome) :
    ∃ c', Stepped tr id c (tr.leaveNext id c outcome) c' := by
  unfold leaveNext
  split
  · rename_i hf
    exact ⟨_, rfl, .inner (.done hc hf), rfl, rfl, .refl _⟩
  · rename_i outside hf
    cases hb : tr.layers.bulkhead with
    | none =>
      have hnothing : tr.releaseSlot = tr := by simp only [releaseSlot, hb]
      rw [hnothing]
      exact ⟨_, rfl, .inner (.unowned hc hf (.inl ⟨rfl, hb⟩) (.inl rfl)), rfl, rfl, .refl _⟩
    | some b =>
      obtain ⟨ready, hrelease⟩ := exists_releaseSlot hb
      rw [hrelease]
      exact ⟨_, rfl, .bulkhead hb (.released hc hf), rfl, rfl, .refl _⟩
  · rename_i hf
    exact stepped_leaveBreaker hc hf
  · rename_i number inner outside hf
    split
    · exact stepped_leaveFailedAttempt hc hf
    · exact stepped_leaveAttempt hc hf (.inl rfl) tr.trace

/-! ## Sleeping -/

theorem stepped_resumeTokens {n : UInt32} {due : Nat} {inner : List Stage}
    (hc : c.activity = .awaitingTokens n due inner)
    (h : tr.resumeTokens id c n due inner = some tr') : ∃ c', Stepped tr id c tr' c' := by
  have hahead : c.activity.ahead = .tokens n :: inner := by rw [hc]; rfl
  unfold resumeTokens at h
  split at h
  · rename_i hgaveUp
    obtain rfl := Option.some.inj h
    exact ⟨_, rfl, .inner (.quit hahead (by rw [hc]; exact nofun) nofun hgaveUp), rfl, rfl, .refl _⟩
  · split at h
    · cases h
    · split at h
      · rename_i hnone
        obtain rfl := Option.some.inj h
        exact ⟨_, stepped_skip hahead (.inl (by simp [Layers.has, Stage.owner, hnone]))⟩
      · rename_i l hl
        obtain rfl := Option.some.inj h
        split
        · rename_i hgranted
          exact ⟨_, rfl, .limiter hl (.granted hahead rfl (Prod.ext rfl hgranted)), rfl, rfl,
            .refl _⟩
        · rename_i hrefused
          have hallow := Bool.eq_false_iff.mpr hrefused
          exact ⟨_, rfl, .limiter hl (.refused hahead rfl (Prod.ext rfl hallow)), rfl, rfl, .refl _⟩

theorem stepped_resumeSlot {due : Nat} {inner : List Stage}
    (hc : c.activity = .awaitingSlot due inner)
    (h : tr.resumeSlot id c due inner = some tr') : ∃ c', Stepped tr id c tr' c' := by
  have hahead : c.activity.ahead = .layer .bulkhead :: inner := by rw [hc]; rfl
  unfold resumeSlot at h
  cases hb : tr.layers.bulkhead with
  | none =>
    simp only [hb, leaveQueue] at h
    split at h
    · rename_i hgaveUp
      obtain rfl := Option.some.inj h
      have hwaiting : ∀ stages, c.activity ≠ .entering stages := by rw [hc]; exact nofun
      exact ⟨_, rfl, .inner (.quit hahead hwaiting (fun _ => hb) hgaveUp), rfl, rfl, .refl _⟩
    · obtain rfl := Option.some.inj h
      exact ⟨_, stepped_skip hahead (.inl (by simp [Layers.has, Stage.owner, hb]))⟩
  | some b =>
    simp only [hb] at h
    split at h
    · rename_i hgaveUp
      obtain rfl := Option.some.inj h
      obtain ⟨ready, hleave⟩ := exists_leaveQueue hb id
      rw [hleave]
      exact ⟨_, rfl, .bulkhead hb (.quit hc hgaveUp), rfl, rfl, .refl _⟩
    · split at h
      · rename_i hresume
        obtain rfl := Option.some.inj h
        exact ⟨_, rfl, .bulkhead hb (.resumed hc hresume), rfl, rfl, .refl _⟩
      · rename_i hresume
        split at h
        · cases h
        · obtain rfl := Option.some.inj h
          exact ⟨_, rfl, .bulkhead hb (.expired hc hresume), rfl, rfl, .refl _⟩

theorem stepped_resumePause {due : Nat} (hc : c.activity = .pausing due)
    (h : tr.resumePause id c due = some tr') : ∃ c', Stepped tr id c tr' c' := by
  unfold resumePause at h
  split at h
  · rename_i hf
    split at h
    · rename_i hgaveUp
      obtain rfl := Option.some.inj h
      exact ⟨_, rfl, .inner (.interrupted hc hf hgaveUp), rfl, rfl, .refl _⟩
    · rename_i hgoing
      split at h
      · cases h
      · rename_i hdue
        obtain rfl := Option.some.inj h
        exact ⟨_, rfl, .inner (.repeated hc hf (Bool.eq_false_iff.mpr hgoing)
          (Nat.le_of_not_lt hdue)), rfl, rfl, .refl _⟩
  · rename_i hf
    obtain rfl := Option.some.inj h
    exact ⟨_, rfl, .inner (.astray hc hf), rfl, rfl, .refl _⟩

theorem stepped_resumeOperation {number : Nat} {op : Operation α} {due : Option Nat}
    (hc : c.activity = .operating number op due)
    (h : tr.resumeOperation id c number op due = some tr') : ∃ c', Stepped tr id c tr' c' := by
  obtain ⟨⟨outcome, ending⟩, hpoll, rfl⟩ := Option.map_eq_some_iff.mp h
  exact ⟨_, rfl, .inner (.operated hc hpoll), rfl, rfl, .refl _⟩

theorem stepped_resumeRace {run : Nat} {deadline : TokenId} {due : Nat}
    (hc : c.activity = .racing run deadline due)
    (h : tr.resumeRace id c run deadline due = some tr') : ∃ c', Stepped tr id c tr' c' := by
  unfold resumeRace at h
  have hgrows := tr.tokens.grows_retire deadline
  obtain ⟨ready, hend⟩ := tr.exists_endRace deadline
  split at h
  · rename_i hgaveUp
    obtain rfl := Option.some.inj h
    rw [hend]
    exact ⟨_, rfl, .inner (.forfeited hc hgaveUp), rfl, rfl, hgrows⟩
  · rename_i hgoing
    have hgoing := Bool.eq_false_iff.mpr hgoing
    split at h
    · rename_i hended
      obtain rfl := Option.some.inj h
      rw [hend]
      exact ⟨_, rfl, .inner (.won hc hgoing hended), rfl, rfl, hgrows⟩
    · rename_i hrunning
      split at h
      · cases h
      · rename_i hdue
        obtain rfl := Option.some.inj h
        obtain ⟨ready, hend⟩ := exists_endRace
          (tr.note (.deadlineElapsed (tr.layers.timeout.getD .zero))) deadline
        rw [hend]
        exact ⟨_, rfl, .inner (.late hc hgoing hrunning (Nat.le_of_not_lt hdue)), rfl, rfl, hgrows⟩

theorem stepped_resumeHold (hc : c.activity = .holding) (h : tr.resumeHold id c = some tr') :
    ∃ c', Stepped tr id c tr' c' := by
  unfold resumeHold at h
  split at h
  · rename_i hwork
    obtain rfl := Option.some.inj h
    exact ⟨_, rfl, .inner (.letGo hc hwork), rfl, rfl, .refl _⟩
  · cases h

/-! ## Steps -/

/-- Every step of a call follows a rule. -/
theorem exists_stepped (h : tr.step id = some tr') :
    ∃ c c', tr.calls[id]? = some c ∧ Stepped tr id c tr' c' := by
  obtain ⟨c, hc, h⟩ := Option.bind_eq_some_iff.mp h
  refine ⟨c, ?_⟩
  suffices hstepped : ∃ c', Stepped tr id c tr' c' from
    hstepped.imp fun _ hstepped => ⟨hc, hstepped⟩
  split at h
  · rename_i hentering
    obtain rfl := Option.some.inj h
    exact stepped_enterNext hentering
  · rename_i hleaving
    obtain rfl := Option.some.inj h
    exact stepped_leaveNext hleaving
  · rename_i hwaiting
    exact stepped_resumeTokens hwaiting h
  · rename_i hwaiting
    exact stepped_resumeSlot hwaiting h
  · rename_i hpausing
    exact stepped_resumePause hpausing h
  · rename_i hoperating
    exact stepped_resumeOperation hoperating h
  · rename_i hracing
    exact stepped_resumeRace hracing h
  · rename_i hholding
    exact stepped_resumeHold hholding h
  · cases h

end Traffic

end Safeguard
