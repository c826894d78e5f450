import Safeguard.Proofs.Executor.Stations
import Safeguard.Proofs.Traffic.Moves

/-!
# Turns are polls

A call behind a single layer takes its turn in steps: it enters the layer, does its work and leaves
the layer again, and nothing in a step knows what the next one is. The execution of the component
alone is written in one piece. Here is, for one component after the other, that a turn of the
former comes to the same as a poll of the latter, whatever the state of the component: the same
traffic, with the same records, from the first poll to the last. An execution that is dropped gives
back the same, too.

The proof follows the executions. What waits is shown before what starts waiting, what follows the
operation before what invokes it, and the attempts that are left by induction on their number.

## Main results

* `Alone.plays_takeToken`, `Alone.plays_takeSlot`, `Alone.plays_requestPermit`,
  `Alone.plays_attempt`, `Alone.plays_startRace`: the first poll of each component.
* `Alone.plays_poll`: a turn is a poll.
* `Alone.abort_eq_drop`: a call that is dropped is an execution that is dropped.
-/

namespace Safeguard.Alone

open CircuitBreaker (Permit Transition)

variable {α : Type} {tr tr' : Traffic α} {id : Nat} {c : Call α} {l : Option Layer}
  {attempts n : Nat} {script : List (Operation α)} {policy : Option (Retry.Config Float)}
  {frames : List Frame} {sequel : Sequel α}

/-! ## The rate limiter -/

section RateLimiter

variable {lim : RateLimiter Float}

theorem Underway.setLimiter (h : Underway script policy frames id tr c) (lim : RateLimiter Float) :
    Underway script policy frames id (tr.setLimiter lim) c :=
  ⟨h.lt, h.work, h.frames, h.policy⟩

theorem plays_awaitToken (h : Underway script policy [] id tr c)
    (hl : tr.layers.rateLimiter = some lim) (due : Nat) :
    Plays (some .rateLimiter) attempts id 4 (tr.become id c (.awaitingTokens 1 due []))
      (awaitToken tr id c lim script due) := by
  have hc := Traffic.call_become h.lt c (.awaitingTokens 1 due [])
  have hstep := (Traffic.step_eq hc).trans (Traffic.resumeTokens_become ..)
  simp only [Traffic.resumeTokens, hl] at hstep
  unfold awaitToken
  by_cases hgivenUp : tr.givenUp c = true
  · rw [if_pos hgivenUp] at hstep ⊢
    exact ((plays_fail h _).step hstep).mono (by decide)
  rw [if_neg hgivenUp] at hstep ⊢
  by_cases hdue : tr.clock < due
  · rw [if_pos hdue] at hstep ⊢
    exact plays_become h (.awaitingToken due) hstep _
  rw [if_neg hdue] at hstep ⊢
  -- The time is up, and the limiter is asked once more; another call may have been faster.
  generalize lim.allow 1 tr.now = asked at hstep ⊢
  obtain ⟨lim', granted⟩ := asked
  cases granted with
  | true => exact (plays_invoke (h.setLimiter lim') .token leaves_finish).step hstep
  | false => exact ((plays_fail ((h.setLimiter lim').note _) _).step hstep).mono (by decide)

theorem plays_takeToken (hc : tr.calls[id]? = some c) (h : Underway script policy [] id tr c)
    (hl : tr.layers.rateLimiter = some lim)
    (hentering : c.activity = .entering [.layer .rateLimiter]) :
    Plays (some .rateLimiter) attempts id 5 tr (takeToken tr id c lim script) := by
  have hstep := Traffic.step_eq hc
  rw [hentering] at hstep
  simp only [Traffic.enterNext, Traffic.passLayer, hl, Traffic.passLimiter, Traffic.awaitTokens]
    at hstep
  have hinvoke (lim' : RateLimiter Float) : Plays (some .rateLimiter) attempts id 3 _ _ :=
    plays_invoke (h.setLimiter lim') .token leaves_finish
  unfold takeToken
  by_cases hwait : lim.config.wait = true
  · rw [if_pos hwait] at hstep ⊢
    generalize lim.beginWait 1 tr.now = begun at hstep ⊢
    obtain ⟨lim', started⟩ := begun
    cases started with
    | granted => exact ((hinvoke lim').step hstep).mono (by decide)
    | refused => exact ((plays_fail (h.setLimiter lim') _).step hstep).mono (by decide)
    | pending delay =>
      have hasleep := ((h.setLimiter lim').note (.tokensAwaited 1 delay)).asleep
      exact (plays_awaitToken hasleep rfl _).step hstep
  · rw [if_neg hwait] at hstep ⊢
    generalize lim.allow 1 tr.now = asked at hstep ⊢
    obtain ⟨lim', granted⟩ := asked
    cases granted with
    | true => exact ((hinvoke lim').step hstep).mono (by decide)
    | false => exact ((plays_fail ((h.setLimiter lim').note _) _).step hstep).mono (by decide)

end RateLimiter

/-! ## The bulkhead -/

section Bulkhead

variable {b : Bulkhead Nat}

theorem Underway.setBulkhead (h : Underway script policy frames id tr c) (b : Bulkhead Nat) :
    Underway script policy frames id (tr.setBulkhead b) c :=
  ⟨h.lt, h.work, h.frames, h.policy⟩

theorem Underway.releaseSlot (h : Underway script policy frames id tr c) :
    Underway script policy frames id tr.releaseSlot c where
  lt := by rw [(Traffic.giving_releaseSlot tr).calls]; exact h.lt
  work := h.work
  frames := h.frames
  policy := by rw [Traffic.layers_releaseSlot]; exact h.policy

theorem Underway.leaveQueue (h : Underway script policy frames id tr c) :
    Underway script policy frames id (tr.leaveQueue id) c where
  lt := by rw [(Traffic.giving_leaveQueue tr id).calls]; exact h.lt
  work := h.work
  frames := h.frames
  policy := by rw [Traffic.layers_leaveQueue]; exact h.policy

theorem leaves_giveBack :
    Leaves (some .bulkhead) attempts id 2 script policy [.slot] (giveBack id) := by
  intro tr c outcome h
  have hstep := Traffic.step_eq (Traffic.call_become h.lt c (.leaving outcome))
  have hrelease : (tr.become id c (.leaving outcome)).releaseSlot =
      tr.releaseSlot.become id c (.leaving outcome) := Traffic.releaseSlot_setCall ..
  simp only [Traffic.leaveNext, h.frames, hrelease] at hstep
  exact (leaves_finish tr.releaseSlot { c with frames := [] } outcome
    (h.releaseSlot.inside [])).step (hstep.trans (congrArg some (Traffic.become_become ..)))

theorem plays_occupy (h : Underway script policy [] id tr c) (b : Bulkhead Nat) :
    Plays (some .bulkhead) attempts id 4 (tr.occupySlot id c b []) (occupy tr id c b script) := by
  rw [Traffic.occupySlot, h.frames]
  exact plays_invoke ((h.setBulkhead b).inside [.slot]) .slot leaves_giveBack

theorem plays_turnAway (h : Underway script policy [] id tr c) (b : Bulkhead Nat) :
    Plays (some .bulkhead) attempts id 1 (tr.refuseSlot id c b) (turnAway tr id c b) :=
  plays_fail ((h.setBulkhead b.reject).note (.slotRefused b.capacity)) .bulkheadFull

theorem plays_awaitSlot (h : Underway script policy [] id tr c)
    (hb : tr.layers.bulkhead = some b) (due : Nat) :
    Plays (some .bulkhead) attempts id 5 (tr.become id c (.awaitingSlot due []))
      (awaitSlot tr id c b script due) := by
  have hc := Traffic.call_become h.lt c (.awaitingSlot due [])
  have hstep := (Traffic.step_eq hc).trans (Traffic.resumeSlot_become ..)
  simp only [Traffic.resumeSlot, hb] at hstep
  unfold awaitSlot
  by_cases hgivenUp : tr.givenUp c = true
  · rw [if_pos hgivenUp] at hstep ⊢
    exact ((plays_fail h.leaveQueue _).step hstep).mono (by decide)
  rw [if_neg hgivenUp] at hstep ⊢
  -- A slot that was handed over is taken even when the time is up.
  cases hresume : b.resume id with
  | some b' =>
    rw [hresume] at hstep
    exact (plays_occupy h b').step hstep
  | none =>
    rw [hresume] at hstep
    dsimp only at hstep ⊢
    by_cases hdue : tr.clock < due
    · rw [if_pos hdue] at hstep ⊢
      exact plays_become h (.awaitingSlot due) hstep _
    · rw [if_neg hdue] at hstep ⊢
      exact ((plays_turnAway h _).step hstep).mono (by decide)

theorem plays_takeSlot (hc : tr.calls[id]? = some c) (h : Underway script policy [] id tr c)
    (hb : tr.layers.bulkhead = some b) (hentering : c.activity = .entering [.layer .bulkhead]) :
    Plays (some .bulkhead) attempts id 6 tr (takeSlot tr id c b script) := by
  have hstep := Traffic.step_eq hc
  rw [hentering] at hstep
  simp only [Traffic.enterNext, Traffic.passLayer, hb, Traffic.passBulkhead] at hstep
  unfold takeSlot
  cases henter : b.tryEnter with
  | some b' =>
    rw [henter] at hstep
    exact ((plays_occupy h b').step hstep).mono (by decide)
  | none =>
    rw [henter] at hstep
    dsimp only at hstep ⊢
    by_cases hhurry : b.config.maxWait.isZero = true
    · rw [if_pos hhurry] at hstep ⊢
      exact ((plays_turnAway h b).step hstep).mono (by decide)
    rw [if_neg hhurry] at hstep ⊢
    have hnoted := h.note (.slotAwaited b.config.maxWait)
    have hgiven : (tr.note (.slotAwaited b.config.maxWait)).givenUp c = tr.givenUp c := rfl
    by_cases hgivenUp : tr.givenUp c = true
    · rw [hgiven, if_pos hgivenUp] at hstep ⊢
      exact ((plays_fail hnoted _).step hstep).mono (by decide)
    · rw [hgiven, if_neg hgivenUp] at hstep ⊢
      exact (plays_awaitSlot (hnoted.setBulkhead (b.enqueue id)).asleep rfl _).step hstep

end Bulkhead

/-! ## The circuit breaker -/

section CircuitBreaker

variable {b : CircuitBreaker}

theorem Underway.changeBreaker (h : Underway script policy frames id tr c) (call : Option Nat)
    (b : CircuitBreaker) (change : Option Transition) :
    Underway script policy frames id (tr.changeBreaker call b change).1 c := by
  obtain ⟨b', trace, -, heq⟩ := Traffic.exists_changeBreaker tr call b change
  rw [heq]
  exact ⟨h.lt, h.work, h.frames, h.policy⟩

theorem Underway.abandonPermit (h : Underway script policy frames id tr c) (p : Permit) :
    Underway script policy frames id (tr.abandonPermit p) c := by
  unfold Traffic.abandonPermit
  split
  · exact h
  · exact ⟨h.lt, h.work, h.frames, h.policy⟩

theorem plays_settleAs (h : Underway script policy [] id tr c) (p : Permit) (failed : Bool)
    (outcome : Outcome α) :
    Plays l attempts id 1 (tr.settlePermit id c p failed outcome)
      (settleAs id p failed tr c outcome) := by
  unfold Traffic.settlePermit settleAs
  cases tr.layers.circuitBreaker with
  | none => exact leaves_finish tr c outcome h
  | some b =>
    have hchanged := h.changeBreaker (some id) (b.settle p failed tr.now).1
      (b.settle p failed tr.now).2
    dsimp only
    generalize tr.changeBreaker (some id) (b.settle p failed tr.now).1
      (b.settle p failed tr.now).2 = changed at hchanged ⊢
    obtain ⟨tr₁, panicked⟩ := changed
    cases panicked with
    | none => exact leaves_finish tr₁ c outcome hchanged
    | some message => exact leaves_finish tr₁ c (.panic message) hchanged

theorem plays_settle (h : Underway script policy [] id tr c) (p : Permit) (outcome : Outcome α) :
    Plays l attempts id 1 (tr.leaveBreaker id c p outcome) (settle id p tr c outcome) := by
  have habandoned (message : String) : Plays l attempts id 1
      ((tr.abandonPermit p).become id c (.leaving (.panic message)))
      (finish id (tr.abandonPermit p) c (.panic message)) :=
    leaves_finish _ _ _ (h.abandonPermit p)
  cases outcome with
  | panic message => exact habandoned message
  | value v => exact plays_settleAs h p false (.value v)
  | error e =>
    simp only [Traffic.leaveBreaker, settle, judge, consult]
    cases tr.attached.failureIf with
    | none => exact plays_settleAs h p true (.error e)
    | some predicate =>
      dsimp only
      cases predicate e.failure with
      | error message => exact habandoned message
      | ok verdict => exact plays_settleAs (h.record _) p verdict (.error e)

theorem leaves_settle (p : Permit) :
    Leaves (some .circuitBreaker) attempts id 2 script policy [.permit p] (settle id p) := by
  intro tr c outcome h
  have hstep := Traffic.step_eq (Traffic.call_become h.lt c (.leaving outcome))
  simp only [Traffic.leaveNext, h.frames, Traffic.leaveBreaker_become] at hstep
  have houtside : Underway script policy [] id tr
      { c with frames := [], activity := .leaving outcome } := ⟨h.lt, h.work, rfl, h.policy⟩
  exact (plays_settle houtside p outcome).step hstep

theorem plays_requestPermit (hc : tr.calls[id]? = some c) (h : Underway script policy [] id tr c)
    (hb : tr.layers.circuitBreaker = some b)
    (hentering : c.activity = .entering [.layer .circuitBreaker]) :
    Plays (some .circuitBreaker) attempts id 5 tr (requestPermit tr id c b script) := by
  have hstep := Traffic.step_eq hc
  rw [hentering] at hstep
  simp only [Traffic.enterNext, Traffic.passLayer, hb, Traffic.passBreaker] at hstep
  unfold requestPermit
  generalize b.request tr.now = asked at hstep ⊢
  obtain ⟨b', change, permit⟩ := asked
  dsimp only at hstep ⊢
  have hchanged := h.changeBreaker (some id) b' change
  generalize tr.changeBreaker (some id) b' change = changed at hchanged hstep ⊢
  obtain ⟨tr₁, panicked⟩ := changed
  cases panicked with
  | some message =>
    exact ((leaves_finish tr₁ c (.panic message) hchanged).step hstep).mono (by decide)
  | none =>
    cases permit with
    | some p =>
      rw [h.frames] at hstep
      exact (plays_invoke (hchanged.inside [.permit p]) (.permit p) (leaves_settle p)).step hstep
    | none => exact ((plays_fail (hchanged.note _) _).step hstep).mono (by decide)

end CircuitBreaker

/-! ## The retry policy -/

section Retry

variable {config : Retry.Config Float} {number : Nat} {again : Traffic α → Call α → Traffic α}

/-- What follows an attempt is what a call does that starts the next one, if one is left. -/
def Repeats (id n : Nat) (script : List (Operation α)) (config : Retry.Config Float) (number : Nat)
    (again : Traffic α → Call α → Traffic α) : Prop :=
  number < config.maxAttempts.toNat →
    ∀ tr c frames, Underway script (some config) frames id tr c →
      Plays (some .retry) config.maxAttempts.toNat id n
        (tr.become id { c with frames := [.attempt (number + 1) []] } (.entering [])) (again tr c)

theorem plays_awaitAttempt (h : Underway script (some config) [.attempt number []] id tr c)
    (hnumber : number < config.maxAttempts.toNat) (hagain : Repeats id n script config number again)
    (due : Nat) :
    Plays (some .retry) config.maxAttempts.toNat id (n + 2) (tr.become id c (.pausing due))
      (awaitAttempt tr id c due again) := by
  have hc := Traffic.call_become h.lt c (.pausing due)
  have hstep := (Traffic.step_eq hc).trans (Traffic.resumePause_become ..)
  simp only [Traffic.resumePause, h.frames] at hstep
  unfold awaitAttempt
  by_cases hgivenUp : tr.givenUp c = true
  · rw [if_pos hgivenUp] at hstep ⊢
    exact ((plays_fail (h.inside []) _).step hstep).mono (Nat.le_add_left ..)
  rw [if_neg hgivenUp] at hstep ⊢
  by_cases hdue : tr.clock < due
  · rw [if_pos hdue] at hstep ⊢
    exact plays_become h (.pausing due hnumber) hstep _
  · rw [if_neg hdue] at hstep ⊢
    exact ((hagain hnumber tr c _ h).step hstep).mono (Nat.le_succ _)

theorem plays_backOff (h : Underway script (some config) [.attempt number []] id tr c)
    (hnumber : number < config.maxAttempts.toNat) (hagain : Repeats id n script config number again)
    (e : CallError) :
    Plays (some .retry) config.maxAttempts.toNat id (n + 2) (tr.pause id c [] config number e)
      (backOff tr id c config number e again) := by
  have hdrawn : Underway script (some config) [.attempt number []] id
      { tr with drawn := tr.drawn + 1 } c := ⟨h.lt, h.work, h.frames, h.policy⟩
  simp only [Traffic.pause, backOff]
  generalize config.delay number (tr.attached.draw tr.drawn) = delay
  cases tr.attached.onRetry with
  | none => exact plays_awaitAttempt (hdrawn.note _).asleep hnumber hagain _
  | some hook =>
    have htold := hdrawn.record (.retrying number delay e.message)
    dsimp only
    cases hook.panics number with
    | none => exact plays_awaitAttempt (htold.note _).asleep hnumber hagain _
    | some message =>
      exact (leaves_finish _ _ (.panic message) (htold.inside [])).mono (Nat.le_add_left ..)

/-- Once the error has been judged, the call goes on to the next attempt or returns it. -/
theorem plays_judged (h : Underway script (some config) [.attempt number []] id tr c)
    (hagain : Repeats id n script config number again) (e : CallError) (worthIt : Bool) :
    Plays (some .retry) config.maxAttempts.toNat id (n + 2)
      (if worthIt && config.mayFollow number then tr.pause id c [] config number e
        else tr.become id { c with frames := [] } (.leaving (.error e)))
      (if worthIt && config.mayFollow number then backOff tr id c config number e again
        else finish id tr c (.error e)) := by
  split
  · rename_i hfollows
    have hnumber : config.mayFollow number = true := (Bool.and_eq_true_iff.mp hfollows).2
    exact plays_backOff h (of_decide_eq_true hnumber) hagain e
  · exact (leaves_finish _ _ (.error e) (h.inside [])).mono (Nat.le_add_left ..)

theorem plays_tryAgain (h : Underway script (some config) [.attempt number []] id tr c)
    (hagain : Repeats id n script config number again) (e : CallError) :
    Plays (some .retry) config.maxAttempts.toNat id (n + 2)
      (tr.leaveFailedAttempt id c [] number e)
      (tryAgain id config number again tr c (.error e)) := by
  simp only [Traffic.leaveFailedAttempt, h.policy, tryAgain, consult]
  cases tr.attached.retryIf with
  | none => exact plays_judged h hagain e true
  | some predicate =>
    dsimp only
    cases predicate e.failure with
    | error message =>
      exact (leaves_finish _ _ (.panic message) (h.inside [])).mono (Nat.le_add_left ..)
    | ok verdict => exact plays_judged (h.record _) hagain e verdict

theorem leaveNext_attempt {inner : List Stage} {outside : List Frame}
    (h : c.frames = .attempt number inner :: outside) (outcome : Outcome α) :
    tr.leaveNext id c outcome =
      match outcome with
      | .error e => tr.leaveFailedAttempt id c outside number e
      | o => tr.become id { c with frames := outside } (.leaving o) := by
  cases outcome <;> simp only [Traffic.leaveNext, h]

theorem leaves_tryAgain (hagain : Repeats id n script config number again) :
    Leaves (some .retry) config.maxAttempts.toNat id (n + 3) script (some config)
      [.attempt number []] (tryAgain id config number again) := by
  intro tr c outcome h
  have hc := Traffic.call_become h.lt c (.leaving outcome)
  have hstep := (Traffic.step_eq hc).trans (congrArg some (leaveNext_attempt h.frames outcome))
  cases outcome with
  | value v =>
    exact ((leaves_finish _ _ (.value v) (h.inside [])).step
      (hstep.trans (congrArg some (Traffic.become_become ..)))).mono (Nat.le_add_left ..)
  | panic message =>
    exact ((leaves_finish _ _ (.panic message) (h.inside [])).step
      (hstep.trans (congrArg some (Traffic.become_become ..)))).mono (Nat.le_add_left ..)
  | error e =>
    exact (plays_tryAgain h hagain e).step
      (hstep.trans (congrArg some (Traffic.leaveFailedAttempt_become ..)))

/-- By induction on the attempts that are left: each goes on to those that are left after it. -/
theorem repeats_attempt (id : Nat) (script : List (Operation α)) (left : Nat) {number : Nat}
    (hleft : left + number = config.maxAttempts.toNat) :
    Repeats id (5 * left) script config number (attempt id script config left (number + 1)) := by
  induction left generalizing number with
  | zero => exact fun hlt => absurd hlt (by omega)
  | succ left ih =>
    intro _ tr c frames h
    exact plays_invoke (h.inside [.attempt (number + 1) []]) (.attempt (number + 1))
      (leaves_tryAgain (ih (by omega)))

theorem repeats_attemptAfter (id : Nat) (script : List (Operation α)) (number : Nat) :
    Repeats id (5 * config.maxAttempts.toNat) script config number
      (attemptAfter id script config number) := by
  intro hlt tr c frames h
  have hattempt := repeats_attempt id script (config.maxAttempts.toNat - number)
    (Nat.sub_add_cancel (Nat.le_of_lt hlt))
  exact (hattempt hlt tr c frames h).mono (Nat.mul_le_mul_left 5 (Nat.sub_le ..))

theorem plays_attempt (hc : tr.calls[id]? = some c) (h : Underway script (some config) [] id tr c)
    (hentering : c.activity = .entering [.layer .retry]) :
    Plays (some .retry) config.maxAttempts.toNat id (5 * config.maxAttempts.toNat + 2) tr
      (attemptAfter id script config 0 tr c) := by
  have hstep := Traffic.step_eq hc
  rw [hentering] at hstep
  simp only [Traffic.enterNext, Traffic.passLayer, h.policy, Traffic.passRetry] at hstep
  -- A policy without attempts fails at once, where those that are left have run out.
  by_cases hnone : config.maxAttempts = 0
  · rw [if_pos hnone] at hstep
    rw [attemptAfter, hnone]
    exact ((plays_fail h .attemptsExceeded).step hstep).mono (Nat.le_add_left ..)
  · rw [if_neg hnone, h.frames] at hstep
    have hsome : 0 < config.maxAttempts.toNat :=
      Nat.pos_of_ne_zero fun hzero => hnone (UInt32.toNat_inj.mp hzero)
    exact ((repeats_attemptAfter id script 0 hsome tr c [] h).step hstep).mono (Nat.le_succ _)

end Retry

/-! ## The timeout -/

section Timeout

variable {limit : Duration} {run due : Nat} {deadline : TokenId}

theorem Underway.endRace (h : Underway script policy frames id tr c) (deadline : TokenId) :
    Underway script policy frames id (tr.endRace deadline) c := by
  obtain ⟨ready, hend⟩ := tr.exists_endRace deadline
  rw [hend]
  exact ⟨h.lt, h.work, h.frames, h.policy⟩

theorem plays_race (hc : tr.calls[id]? = some c) (h : Underway script policy [] id tr c)
    (hlimit : tr.layers.timeout = some limit) (hracing : c.activity = .racing run deadline due) :
    Plays (some .timeout) attempts id 2 tr (race tr id c run deadline due limit) := by
  have hstep := Traffic.step_eq hc
  rw [hracing] at hstep
  simp only [Traffic.resumeRace, hlimit, Option.getD_some] at hstep
  unfold race
  by_cases hgivenUp : tr.givenUp c = true
  · rw [if_pos hgivenUp] at hstep ⊢
    exact (plays_fail (h.endRace deadline) _).step hstep
  rw [if_neg hgivenUp] at hstep ⊢
  cases houtcome : tr.runOutcome run with
  | some outcome =>
    rw [houtcome] at hstep
    exact (leaves_finish _ _ outcome (h.endRace deadline)).step hstep
  | none =>
    rw [houtcome] at hstep
    dsimp only at hstep ⊢
    by_cases hdue : tr.clock < due
    · rw [if_pos hdue] at hstep ⊢
      have hexecutes : Executes (some .timeout) attempts c :=
        ⟨⟨script, h.work⟩, by rw [hracing, h.frames]; exact .racing run deadline due⟩
      exact (plays_rest hstep hc hexecutes).mono (Nat.zero_le _)
    · rw [if_neg hdue] at hstep ⊢
      exact (plays_fail ((h.note _).endRace deadline) _).step hstep

/-- A task that starts changes neither calls nor layers. -/
theorem spawn_spec (tr : Traffic α) (id : Nat) (c : Call α) (script : List (Operation α)) :
    (spawn tr id c script).1.calls = tr.calls ∧ (spawn tr id c script).1.layers = tr.layers := by
  unfold spawn
  obtain ⟨tokens, deadline⟩ := tr.tokens.child c.token 2
  dsimp only
  obtain ⟨ready, hwake⟩ := Traffic.exists_wake
    { { tr with tokens := tokens }.record id
        (.invoked (c.invocations + 1) (tokens.isCancelled deadline)) with
      runs := tr.runs ++ [⟨id, c.invocations + 1, deadline,
        Operation.ofScript script (c.invocations + 1), .fresh, 0⟩] } (.run tr.runs.length)
  exact hwake ▸ ⟨rfl, rfl⟩

theorem plays_startRace (hc : tr.calls[id]? = some c) (h : Underway script policy [] id tr c)
    (hlimit : tr.layers.timeout = some limit)
    (hentering : c.activity = .entering [.layer .timeout]) :
    Plays (some .timeout) attempts id 3 tr (startRace tr id c script limit) := by
  have hstep := Traffic.step_eq hc
  rw [hentering] at hstep
  simp only [Traffic.enterNext, Traffic.passLayer, hlimit, h.work] at hstep
  obtain ⟨hcalls, hlayers⟩ := spawn_spec tr id c script
  unfold startRace
  generalize hspawn : spawn tr id c script = spawned at hcalls hlayers ⊢
  obtain ⟨tr₁, deadline⟩ := spawned
  have hstart : tr.startRace id c script limit = { tr₁ with stamps := tr₁.stamps + 1 }.setCall id
      { c with invocations := c.invocations + 1, since := tr₁.stamps,
               activity := .racing tr.runs.length deadline (tr.dueIn limit) } := by
    obtain ⟨rfl, rfl⟩ := Prod.mk.inj hspawn
    rfl
  rw [hstart] at hstep
  have hspawned : Underway script policy [] id { tr₁ with stamps := tr₁.stamps + 1 }
      { c with invocations := c.invocations + 1, since := tr₁.stamps,
               activity := .racing tr.runs.length deadline (tr.dueIn limit) } :=
    ⟨hcalls ▸ h.lt, h.work, h.frames, hlayers ▸ h.policy⟩
  -- The first poll starts the race and watches it at once.
  have htimeout : tr₁.layers.timeout = some limit := hlayers ▸ hlimit
  exact (plays_race (Traffic.call_setCall _ _ _ hspawned.lt) hspawned.setCall htimeout rfl).step
    hstep

end Timeout

/-! ## Polls -/

section Polls

variable (hc : tr.calls[id]? = some c) (hwork : c.work = .operation script)

include hc hwork

theorem underway_of_call (hframes : c.frames = frames) :
    Underway script tr.layers.retry frames id tr c :=
  ⟨(List.getElem?_eq_some_iff.mp hc).1, hwork, hframes, rfl⟩

theorem plays_pollOperation (h : Station attempts none c.activity c.frames) :
    Plays none attempts id 3 tr (pollOperation tr id c script) := by
  unfold pollOperation
  generalize hactivity : c.activity = activity at h ⊢
  generalize hframes : c.frames = frames at h
  have hunderway := underway_of_call hc hwork hframes
  cases h with
  | fresh =>
    exact .of_become hc hactivity (plays_invoke hunderway .nothing leaves_finish)
  | operating hheld =>
    cases hheld
    exact (plays_operating hc hactivity hunderway .nothing leaves_finish).mono (by decide)
  | ended => exact (plays_ended hc hactivity hunderway).mono (by decide)

theorem plays_pollLimiter {lim : RateLimiter Float} (hl : tr.layers.rateLimiter = some lim)
    (h : Station attempts (some .rateLimiter) c.activity c.frames) :
    Plays (some .rateLimiter) attempts id 5 tr (pollLimiter tr id c script lim) := by
  unfold pollLimiter
  generalize hactivity : c.activity = activity at h ⊢
  generalize hframes : c.frames = frames at h
  have hunderway := underway_of_call hc hwork hframes
  cases h with
  | fresh => exact plays_takeToken hc hunderway hl hactivity
  | awaitingToken due =>
    exact (Plays.of_become hc hactivity (plays_awaitToken hunderway hl due)).mono (by decide)
  | operating hheld =>
    cases hheld
    exact (plays_operating hc hactivity hunderway .token leaves_finish).mono (by decide)
  | ended => exact (plays_ended hc hactivity hunderway).mono (by decide)

theorem plays_pollBulkhead {b : Bulkhead Nat} (hb : tr.layers.bulkhead = some b)
    (h : Station attempts (some .bulkhead) c.activity c.frames) :
    Plays (some .bulkhead) attempts id 6 tr (pollBulkhead tr id c script b) := by
  unfold pollBulkhead
  generalize hactivity : c.activity = activity at h ⊢
  generalize hframes : c.frames = frames at h
  have hunderway := underway_of_call hc hwork hframes
  cases h with
  | fresh => exact plays_takeSlot hc hunderway hb hactivity
  | awaitingSlot due =>
    exact (Plays.of_become hc hactivity (plays_awaitSlot hunderway hb due)).mono (by decide)
  | operating hheld =>
    cases hheld
    exact (plays_operating hc hactivity hunderway .slot leaves_giveBack).mono (by decide)
  | ended => exact (plays_ended hc hactivity hunderway).mono (by decide)

theorem plays_pollBreaker {b : CircuitBreaker} (hb : tr.layers.circuitBreaker = some b)
    (h : Station attempts (some .circuitBreaker) c.activity c.frames) :
    Plays (some .circuitBreaker) attempts id 5 tr (pollBreaker tr id c script b) := by
  unfold pollBreaker
  generalize hactivity : c.activity = activity at h ⊢
  generalize hframes : c.frames = frames at h ⊢
  have hunderway := underway_of_call hc hwork hframes
  cases h with
  | fresh => exact plays_requestPermit hc hunderway hb hactivity
  | operating hheld =>
    cases hheld with
    | permit p =>
      exact (plays_operating hc hactivity hunderway (.permit p) (leaves_settle p)).mono (by decide)
  | ended => exact (plays_ended hc hactivity hunderway).mono (by decide)

theorem plays_pollRetry {config : Retry.Config Float} (hretry : tr.layers.retry = some config)
    (h : Station config.maxAttempts.toNat (some .retry) c.activity c.frames) :
    Plays (some .retry) config.maxAttempts.toNat id (5 * config.maxAttempts.toNat + 4) tr
      (pollRetry tr id c script config) := by
  unfold pollRetry
  generalize hactivity : c.activity = activity at h ⊢
  generalize hframes : c.frames = frames at h ⊢
  have hunderway := underway_of_call hc hwork hframes
  rw [hretry] at hunderway
  cases h with
  | fresh => exact (plays_attempt hc hunderway hactivity).mono (Nat.le_add_right _ 2)
  | pausing due hnumber =>
    have hwait := plays_awaitAttempt hunderway hnumber (repeats_attemptAfter id script _) due
    exact (Plays.of_become hc hactivity hwait).mono (Nat.le_add_right _ 2)
  | operating hheld =>
    cases hheld with
    | attempt number =>
      exact plays_operating hc hactivity hunderway (.attempt number)
        (leaves_tryAgain (repeats_attemptAfter id script number))
  | ended => exact (plays_ended hc hactivity hunderway).mono (Nat.zero_le _)

theorem plays_pollTimeout {limit : Duration} (hlimit : tr.layers.timeout = some limit)
    (h : Station attempts (some .timeout) c.activity c.frames) :
    Plays (some .timeout) attempts id 3 tr (pollTimeout tr id c script limit) := by
  unfold pollTimeout
  generalize hactivity : c.activity = activity at h ⊢
  generalize hframes : c.frames = frames at h
  have hunderway := underway_of_call hc hwork hframes
  cases h with
  | fresh => exact plays_startRace hc hunderway hlimit hactivity
  | racing run deadline due => exact (plays_race hc hunderway hlimit hactivity).mono (by decide)
  | operating hheld => cases hheld
  | ended => exact (plays_ended hc hactivity hunderway).mono (by decide)

end Polls

/-- **A turn is a poll.** When a call that executes an operation behind a single layer, or behind
none, gets its turn, it does what the execution of the component does when it is polled. -/
theorem plays_poll (hc : tr.calls[id]? = some c) (h : Executes l tr.attempts c)
    (hpresent : ∀ k ∈ l, tr.layers.has k = true) :
    Plays l tr.attempts id tr.turnBound tr (poll l tr id) := by
  obtain ⟨⟨script, hwork⟩, hstation⟩ := h
  have hbound {n : Nat} (hn : n ≤ 5 * tr.attempts + 6) {tr' : Traffic α}
      (h : Plays l tr.attempts id n tr tr') : Plays l tr.attempts id tr.turnBound tr tr' :=
    h.mono (Nat.le_trans hn (by unfold Traffic.turnBound; omega))
  simp only [poll, hc, hwork]
  cases l with
  | none => exact hbound (by omega) (plays_pollOperation hc hwork hstation)
  | some k =>
    have hhas := hpresent k rfl
    cases k with
    | rateLimiter =>
      obtain ⟨lim, hl⟩ := Option.isSome_iff_exists.mp hhas
      rw [hl]
      exact hbound (by omega) (plays_pollLimiter hc hwork hl hstation)
    | bulkhead =>
      obtain ⟨b, hb⟩ := Option.isSome_iff_exists.mp hhas
      rw [hb]
      exact hbound (by omega) (plays_pollBulkhead hc hwork hb hstation)
    | circuitBreaker =>
      obtain ⟨b, hb⟩ := Option.isSome_iff_exists.mp hhas
      rw [hb]
      exact hbound (by omega) (plays_pollBreaker hc hwork hb hstation)
    | retry =>
      obtain ⟨config, hretry⟩ := Option.isSome_iff_exists.mp hhas
      have hattempts : tr.attempts = config.maxAttempts.toNat := by
        rw [Traffic.attempts, hretry]
        rfl
      rw [hretry]
      rw [hattempts] at hstation hbound ⊢
      exact hbound (by omega) (plays_pollRetry hc hwork hretry hstation)
    | timeout =>
      obtain ⟨limit, hlimit⟩ := Option.isSome_iff_exists.mp hhas
      rw [hlimit]
      exact hbound (by omega) (plays_pollTimeout hc hwork hlimit hstation)

/-! ## Dropping -/

/-- An execution gives back what a call gives back from the innermost layer outwards. -/
theorem cleanUp_eq (tr : Traffic α) (id : Nat) (h : Station attempts l c.activity c.frames) :
    cleanUp l tr id c = c.frames.foldl Traffic.abandonFrame (tr.abandonActivity id c.activity) := by
  unfold cleanUp
  generalize c.activity = activity at h ⊢
  generalize c.frames = frames at h ⊢
  cases h with
  | fresh l => rcases l with _ | l <;> [rfl; cases l <;> rfl]
  | operating hheld => cases hheld <;> rfl
  | ended l => rcases l with _ | l <;> [rfl; cases l <;> rfl]
  | _ => rfl

/-- A call that is dropped leaves what an execution that is dropped leaves. -/
theorem abort_eq_drop (hc : tr.calls[id]? = some c) (h : Executes l attempts c) :
    tr.abort id = drop l tr id := by
  simp only [Traffic.abort, Traffic.isPending, Traffic.abandon, drop, hc,
    cleanUp_eq tr id h.station]
  cases c.activity <;> rfl

end Safeguard.Alone
