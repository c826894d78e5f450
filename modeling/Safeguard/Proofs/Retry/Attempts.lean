import Safeguard.Proofs.Traffic.Invocations
import Safeguard.Proofs.Traffic.Replacing
import Safeguard.Proofs.Traffic.Untouched

/-!
# What can be seen of a retry loop

A call that comes to the retry layer invokes what is inside once for each attempt, asks the
predicate about an attempt that failed, tells the hook, sleeps, and finds its token cancelled or
not. This file takes all of that down, step by step, for a call among any others, and says what
each step of a call in the loop comes to. What the steps make of each other is said afterwards,
without opening a step again.

## Main definitions

* `Retry.Act`: what can be seen.
* `Retry.acts`: what is seen of a call in a course.
* `Attachments.accepts`: whether an error is worth another attempt.
* `Traffic.Advances`: a step, by the call that it leads to and the events that it records.

## Main results

* `Retry.acts_snoc`: what is seen of a step.
* `Traffic.advances_failed`, `Traffic.advances_pausing`, `Traffic.advances_outside` and others: the
  steps of a call in the loop, and after it.
-/

namespace Safeguard

open CircuitBreaker (Permit Transition)

variable {α : Type}

namespace Retry

/-- What can be seen of a retry loop. -/
inductive Act (α : Type) where
  /-- The operation is invoked, as often as the number says by now. -/
  | invokes (number : Nat)
  /-- The attempt of the number ends. -/
  | gets (number : Nat) (outcome : Outcome α)
  /-- The predicate judges an error. -/
  | judges (error : String) (verdict : Bool)
  /-- The hook is told of the attempt of the number, its error, and the delay after it. -/
  | tells (number : Nat) (delay : Duration) (error : String)
  /-- The loop falls asleep at a reading of the clock, until another one. -/
  | sleeps (clock due : Nat)
  /-- It wakes, and finds its token cancelled or not. -/
  | wakes (clock : Nat) (cancelled : Bool)
  /-- It returns. -/
  | returns (outcome : Outcome α)

end Retry

open Retry (Act)

/-- What an event says of a retry loop, if anything. -/
def Event.act? : Event α → Option (Act α)
  | .invoked number _ => some (.invokes number)
  | .judgedRetry error verdict => some (.judges error verdict)
  | .retrying attempt delay error => some (.tells attempt delay error)
  | _ => none

namespace Call

/-- Whether a call is in the loop: it is inside an attempt, or about to start the first one. -/
def inLoop (c : Call α) : Bool :=
  match c.frames, c.activity with
  | .attempt .. :: _, _ => true
  | _, .entering (.layer .retry :: _) => true
  | _, _ => false

/-- The end of the attempt that a call is about to leave. -/
def gets (c : Call α) : List (Act α) :=
  match c.frames, c.activity with
  | .attempt number _ :: _, .leaving outcome => [.gets number outcome]
  | _, _ => []

/-- A call that slept between two attempts wakes. -/
def wakes (c : Call α) (clock : Nat) (cancelled : Bool) : List (Act α) :=
  match c.activity with
  | .pausing _ => [.wakes clock cancelled]
  | _ => []

/-- A call falls asleep between two attempts. -/
def sleeps (c : Call α) (clock : Nat) : List (Act α) :=
  match c.activity with
  | .pausing due => [.sleeps clock due]
  | _ => []

/-- A call that was in the loop is not any more. -/
def returns (c c' : Call α) : List (Act α) :=
  match c.inLoop, c'.inLoop, c'.activity with
  | true, false, .leaving outcome => [.returns outcome]
  | _, _, _ => []

end Call

/-- The events that are recorded in a change. -/
def Change.recorded (ch : Change α) : List (Event α) :=
  (ch.after.trace.events.drop ch.before.trace.events.length).map EventRecord.event

namespace Retry

/-- What is seen of a step that makes the one of a call of the other. -/
def seen (tr : Traffic α) (c : Call α) (events : List (Event α)) (c' : Call α) : List (Act α) :=
  c.gets ++ c.wakes tr.clock (tr.givenUp c) ++ events.filterMap Event.act? ++ c'.sleeps tr.clock ++
    c.returns c'

/-- What is seen of a call in a change. -/
def actsIn (id : Nat) (ch : Change α) : List (Act α) :=
  match ch.move, ch.before.calls[id]?, ch.after.calls[id]? with
  | .step i, some c, some c' => if i = id then seen ch.before c ch.recorded c' else []
  | _, _, _ => []

/-- What is seen of a call in a course. -/
def acts (id : Nat) (log : List (Change α)) : List (Act α) := log.flatMap (actsIn id)

/-- Whether a change is a step of a call. -/
def isStepOf (id : Nat) (ch : Change α) : Bool :=
  match ch.move with
  | .step i => i = id
  | _ => false

/-- How many steps a call took in a course. -/
def steps (id : Nat) (log : List (Change α)) : Nat := log.countP (isStepOf id)

end Retry

/-! ## Predicates and hooks -/

namespace Attachments

/-- Whether an error is worth another attempt. -/
def accepts (a : Attachments) (e : CallError) : Bool :=
  match a.retryIf with
  | .none => true
  | some judge => (judge e.failure).toOption.getD false

/-- The predicate and the hook of the retry layer never panic. -/
structure RetryReturns (a : Attachments) : Prop where
  judges : ∀ judge, a.retryIf = some judge → ∀ f, ∃ verdict, judge f = .ok verdict
  listens : ∀ hook, a.onRetry = some hook → ∀ number, hook.panics number = .none

/-- The predicate, if there is one, judges an error. -/
def judged (a : Attachments) (e : CallError) : List (Act α) :=
  a.retryIf.toList.map fun _ => .judges e.message (a.accepts e)

/-- The hook, if there is one, is told of a failed attempt and the delay after it. -/
def notified (a : Attachments) (number : Nat) (delay : Duration) (e : CallError) : List (Act α) :=
  a.onRetry.toList.map fun _ => .tells number delay e.message

/-- The record of a judgement. -/
def judgement (a : Attachments) (e : CallError) : List (Event α) :=
  a.retryIf.toList.map fun _ => .judgedRetry e.message (a.accepts e)

/-- The record of what the hook is told. -/
def notice (a : Attachments) (number : Nat) (delay : Duration) (e : CallError) : List (Event α) :=
  a.onRetry.toList.map fun _ => .retrying number delay e.message

theorem act?_judgement (a : Attachments) (e : CallError) :
    (a.judgement e : List (Event α)).filterMap Event.act? = a.judged e := by
  unfold judgement judged
  cases a.retryIf <;> rfl

theorem act?_notice (a : Attachments) (number : Nat) (delay : Duration) (e : CallError) :
    (a.notice number delay e : List (Event α)).filterMap Event.act? =
      a.notified number delay e := by
  unfold notice notified
  cases a.onRetry <;> rfl

end Attachments

/-! ## Steps -/

namespace Traffic

variable {tr tr' : Traffic α} {id : Nat} {c c' : Call α} {events : List (Event α)}

/-- One traffic comes from another by a change of one call and records of events. -/
structure Advances (tr tr' : Traffic α) (id : Nat) (c' : Call α) (events : List (Event α)) :
    Prop where
  call : tr'.calls[id]? = some c'
  recorded : (⟨tr, .step id, tr'⟩ : Change α).recorded = events

theorem advances_of_eq (hlt : id < tr.calls.length) (hcalls : tr'.calls = tr.calls.set id c')
    (hevents : tr'.trace.events = tr.trace.events ++ events.map (⟨tr.clock, id, ·⟩)) :
    Advances tr tr' id c' events := by
  refine ⟨by rw [hcalls, List.getElem?_set_self hlt], ?_⟩
  rw [Change.recorded, hevents, List.drop_left, List.map_map]
  exact List.map_id _

/-- A step that records nothing. -/
theorem advances_quietly (hlt : id < tr.calls.length) (hcalls : tr'.calls = tr.calls.set id c')
    (hevents : tr'.trace.events = tr.trace.events) : Advances tr tr' id c' [] :=
  advances_of_eq hlt hcalls (hevents.trans (List.append_nil _).symm)

/-- What is seen of a step, after a course. -/
theorem acts_snoc {log : List (Change α)} (hc : tr.calls[id]? = some c)
    (h : Advances tr tr' id c' events) :
    Retry.acts id (log ++ [⟨tr, .step id, tr'⟩]) =
      Retry.acts id log ++ Retry.seen tr c events c' := by
  rw [Retry.acts, List.flatMap_append, List.flatMap_singleton]
  simp only [Retry.actsIn, hc, h.call, if_true, h.recorded, Retry.acts]

theorem steps_snoc (log : List (Change α)) :
    Retry.steps id (log ++ [⟨tr, .step id, tr'⟩]) = Retry.steps id log + 1 := by
  rw [Retry.steps, List.countP_append, List.countP_singleton]
  simp [Retry.isStepOf, Retry.steps]

/-- Nothing is seen of a call in other changes, and it takes no step in them. -/
theorem acts_other {ch : Change α} (hother : ch.move ≠ .step id) (log : List (Change α)) :
    Retry.acts id (log ++ [ch]) = Retry.acts id log ∧
      Retry.steps id (log ++ [ch]) = Retry.steps id log := by
  obtain ⟨before, m, after⟩ := ch
  have hne {i : Nat} (hm : m = .step i) : i ≠ id := fun h => hother (hm.trans (congrArg _ h))
  have hnothing : Retry.actsIn id (⟨before, m, after⟩ : Change α) = [] := by
    unfold Retry.actsIn
    split
    · rename_i hm _ _
      exact if_neg (hne hm)
    · rfl
  have hstep : Retry.isStepOf id (⟨before, m, after⟩ : Change α) = false := by
    unfold Retry.isStepOf
    split
    · rename_i hm
      exact decide_eq_false (hne hm)
    · rfl
  constructor
  · rw [Retry.acts, List.flatMap_append, List.flatMap_singleton, hnothing, List.append_nil]
    rfl
  · rw [Retry.steps, List.countP_append, List.countP_singleton, hstep]
    rfl

section Inside

variable {script : List (Operation α)} {config : Retry.Config Float} {inner : List Stage}
  {number : Nat} {outside : List Frame}

/-- A call at the retry layer starts its first attempt, if any is allowed. -/
theorem advances_coming (hc : tr.calls[id]? = some c)
    (hcoming : c.activity = .entering (.layer .retry :: inner))
    (hretry : tr.layers.retry = some config) (hstep : tr.step id = some tr') :
    (config.maxAttempts = 0 ∧ Advances tr tr' id
        { c with activity := .leaving (.error (.layer .attemptsExceeded)) } []) ∨
      config.maxAttempts ≠ 0 ∧ Advances tr tr' id
        { c with frames := .attempt 1 inner :: c.frames, activity := .entering inner } [] := by
  have hlt := (List.getElem?_eq_some_iff.mp hc).1
  rw [step_eq hc, hcoming] at hstep
  obtain rfl := Option.some.inj hstep
  simp only [enterNext, passLayer, hretry, passRetry]
  split
  · rename_i hnone
    exact .inl ⟨hnone, advances_quietly hlt rfl rfl⟩
  · rename_i hsome
    exact .inr ⟨hsome, advances_quietly hlt rfl rfl⟩

/-- A call inside all its layers invokes its operation. -/
theorem advances_invoking (hc : tr.calls[id]? = some c) (hentering : c.activity = .entering [])
    (hwork : c.work = .operation script) (hstep : tr.step id = some tr') :
    ∃ since, Advances tr tr' id
      { c with
        invocations := c.invocations + 1
        activity := .operating (c.invocations + 1) (.ofScript script (c.invocations + 1))
          ((Operation.ofScript script (c.invocations + 1)).due tr.clock)
        since := since }
      [.invoked (c.invocations + 1) (tr.givenUp c)] := by
  have hlt := (List.getElem?_eq_some_iff.mp hc).1
  rw [step_eq hc, hentering] at hstep
  obtain rfl := Option.some.inj hstep
  simp only [enterNext, work, hwork]
  exact ⟨_, advances_of_eq hlt rfl rfl⟩

/-- A call at a deadline passes it if it is absent, and starts a race otherwise. -/
theorem advances_racing (hc : tr.calls[id]? = some c)
    (hentering : c.activity = .entering [.layer .timeout]) (hwork : c.work = .operation script)
    (hstep : tr.step id = some tr') :
    Advances tr tr' id { c with activity := .entering [] } [] ∨
      tr.layers.timeout.isSome = true ∧ ∃ run deadline due since, Advances tr tr' id
        { c with
          invocations := c.invocations + 1
          activity := .racing run deadline due
          since := since }
        [.invoked (c.invocations + 1) (tr.givenUp c)] := by
  have hlt := (List.getElem?_eq_some_iff.mp hc).1
  rw [step_eq hc, hentering] at hstep
  obtain rfl := Option.some.inj hstep
  cases htimeout : tr.layers.timeout with
  | none =>
    simp only [enterNext, passLayer, htimeout]
    exact .inl (advances_quietly hlt rfl rfl)
  | some timeout =>
    obtain ⟨ready, hrace⟩ := tr.exists_startRace id c script timeout
    simp only [enterNext, passLayer, htimeout, hwork, hrace]
    exact .inr ⟨rfl, _, _, _, _, advances_of_eq hlt rfl rfl⟩

/-- The operation of a call ends. -/
theorem advances_operating (hc : tr.calls[id]? = some c) {op : Operation α} {due : Option Nat}
    (hoperating : c.activity = .operating number op due) (hstep : tr.step id = some tr') :
    ∃ outcome, op.Yields outcome ∧
      Advances tr tr' id { c with activity := .leaving outcome } [] := by
  have hlt := (List.getElem?_eq_some_iff.mp hc).1
  rw [step_eq hc, hoperating] at hstep
  obtain ⟨⟨outcome, ending⟩, hpoll, rfl⟩ := Option.map_eq_some_iff.mp hstep
  exact ⟨outcome, Operation.yields_of_poll hpoll, advances_quietly hlt rfl rfl⟩

/-- The run that a call waits for ends, or is waited for no longer. -/
theorem advances_raced (hc : tr.calls[id]? = some c) {run due : Nat} {deadline : TokenId}
    (hracing : c.activity = .racing run deadline due) (hstep : tr.step id = some tr') :
    ∃ outcome, (tr.runOutcome run = some outcome ∨ outcome = .error (.layer .timedOut) ∨
        outcome = .error (.layer .cancelled)) ∧
      Advances tr tr' id { c with activity := .leaving outcome } [] := by
  have hlt := (List.getElem?_eq_some_iff.mp hc).1
  -- Leaving the race retires its token, which touches no call and records nothing.
  obtain ⟨ready, hend⟩ := tr.exists_endRace deadline
  obtain ⟨ready', hlate⟩ :=
    (tr.note (.deadlineElapsed (tr.layers.timeout.getD .zero))).exists_endRace deadline
  rw [step_eq hc, hracing] at hstep
  simp only [resumeRace, hend, hlate] at hstep
  split at hstep
  · obtain rfl := Option.some.inj hstep
    exact ⟨_, .inr (.inr rfl), advances_quietly hlt rfl rfl⟩
  · split at hstep
    · rename_i outcome hended
      obtain rfl := Option.some.inj hstep
      exact ⟨outcome, .inl hended, advances_quietly hlt rfl rfl⟩
    · split at hstep
      · cases hstep
      · obtain rfl := Option.some.inj hstep
        exact ⟨_, .inr (.inl rfl), advances_quietly hlt rfl rfl⟩

/-- An attempt that did not fail is the last one. -/
theorem advances_unfailing {outcome : Outcome α} (hc : tr.calls[id]? = some c)
    (hleaving : c.activity = .leaving outcome)
    (hframes : c.frames = .attempt number inner :: outside) (hfine : ∀ e, outcome ≠ .error e)
    (hstep : tr.step id = some tr') :
    Advances tr tr' id { c with frames := outside, activity := .leaving outcome } [] := by
  have hlt := (List.getElem?_eq_some_iff.mp hc).1
  rw [step_eq hc, hleaving] at hstep
  obtain rfl := Option.some.inj hstep
  simp only [leaveNext, hframes]
  exact advances_quietly hlt rfl rfl

/-! ### Attempts that fail -/

/-- Records several events of a call. -/
def recordAll (tr : Traffic α) (id : Nat) (events : List (Event α)) : Traffic α :=
  { tr with trace :=
    { tr.trace with events := tr.trace.events ++ events.map (⟨tr.clock, id, ·⟩) } }

/-- An error is judged first; then the call pauses, or leaves with the error. -/
theorem leaveFailedAttempt_eq (hretry : tr.layers.retry = some config)
    (hreturns : tr.attached.RetryReturns) (id : Nat) (c : Call α) (e : CallError) :
    tr.leaveFailedAttempt id c outside number e =
      if tr.attached.accepts e && config.mayFollow number then
        (tr.recordAll id (tr.attached.judgement e)).pause id c outside config number e
      else (tr.recordAll id (tr.attached.judgement e)).become id { c with frames := outside }
        (.leaving (.error e)) := by
  cases hjudge : tr.attached.retryIf with
  | none =>
    have haccepts : tr.attached.accepts e = true := by simp only [Attachments.accepts, hjudge]
    have hnothing : tr.recordAll id (tr.attached.judgement e) = tr := by
      simp [recordAll, Attachments.judgement, hjudge]
    simp only [leaveFailedAttempt, hretry, hjudge, haccepts, hnothing]
  | some judge =>
    obtain ⟨verdict, hverdict⟩ := hreturns.judges judge hjudge e.failure
    have haccepts : tr.attached.accepts e = verdict := by
      simp only [Attachments.accepts, hjudge, hverdict]
      rfl
    have hrecorded : tr.recordAll id (tr.attached.judgement e) =
        tr.record id (.judgedRetry e.message verdict) := by
      simp only [recordAll, Attachments.judgement, hjudge, haccepts]
      rfl
    simp only [leaveFailedAttempt, hretry, hjudge, hverdict, haccepts, hrecorded]
    rfl

/-- A call that pauses tells the hook and falls asleep for the delay. -/
theorem exists_pause (hreturns : tr.attached.RetryReturns) (id : Nat) (c : Call α)
    (outside : List Frame) (config : Retry.Config Float) (number : Nat) (e : CallError) :
    ∃ delay since, delay = config.delay number (tr.attached.draw tr.drawn) ∧
      (tr.pause id c outside config number e).calls =
        tr.calls.set id { c with activity := .pausing (tr.dueIn delay), since := since } ∧
      (tr.pause id c outside config number e).trace.events = tr.trace.events ++
        (tr.attached.notice number delay e).map (⟨tr.clock, id, ·⟩) := by
  refine ⟨_, tr.stamps, rfl, ?_⟩
  simp only [pause, Attachments.notice]
  cases hhook : tr.attached.onRetry with
  | none => exact ⟨rfl, (List.append_nil _).symm⟩
  | some hook =>
    simp only [hreturns.listens hook hhook number]
    exact ⟨rfl, rfl⟩

/-- What becomes of an attempt that failed. -/
theorem advances_failed (hc : tr.calls[id]? = some c) {e : CallError}
    (hleaving : c.activity = .leaving (.error e))
    (hframes : c.frames = .attempt number inner :: outside)
    (hretry : tr.layers.retry = some config) (hreturns : tr.attached.RetryReturns)
    (hstep : tr.step id = some tr') :
    ((tr.attached.accepts e && config.mayFollow number) = false ∧ Advances tr tr' id
        { c with frames := outside, activity := .leaving (.error e) }
        (tr.attached.judgement e)) ∨
      (tr.attached.accepts e && config.mayFollow number) = true ∧ ∃ delay since,
        delay = config.delay number (tr.attached.draw tr.drawn) ∧ Advances tr tr' id
          { c with activity := .pausing (tr.dueIn delay), since := since }
          (tr.attached.judgement e ++ tr.attached.notice number delay e) := by
  have hlt := (List.getElem?_eq_some_iff.mp hc).1
  rw [step_eq hc, hleaving] at hstep
  obtain rfl := Option.some.inj hstep
  have hnext : tr.leaveNext id c (.error e) = tr.leaveFailedAttempt id c outside number e := by
    simp only [leaveNext, hframes]
  rw [hnext, leaveFailedAttempt_eq hretry hreturns]
  cases tr.attached.accepts e && config.mayFollow number with
  | false => exact .inl ⟨rfl, advances_of_eq hlt rfl rfl⟩
  | true =>
    -- The judgement is on record before the pause begins.
    have hjudged : (tr.recordAll id (tr.attached.judgement e)).attached.RetryReturns := hreturns
    obtain ⟨delay, since, hdelay, hcalls, hevents⟩ :=
      exists_pause hjudged id c outside config number e
    rw [if_pos rfl]
    refine .inr ⟨rfl, delay, since, hdelay, advances_of_eq hlt hcalls ?_⟩
    rw [hevents, List.map_append, ← List.append_assoc]
    rfl

/-- A call whose pause ends has been given up, or goes on when the time has come. -/
theorem advances_pausing (hc : tr.calls[id]? = some c) {due : Nat}
    (hpausing : c.activity = .pausing due) (hframes : c.frames = .attempt number inner :: outside)
    (hstep : tr.step id = some tr') :
    (tr.givenUp c = true ∧ Advances tr tr' id
        { c with frames := outside, activity := .leaving (.error (.layer .cancelled)) } []) ∨
      tr.givenUp c = false ∧ due ≤ tr.clock ∧ Advances tr tr' id
        { c with frames := .attempt (number + 1) inner :: outside, activity := .entering inner }
        [] := by
  have hlt := (List.getElem?_eq_some_iff.mp hc).1
  rw [step_eq hc, hpausing] at hstep
  simp only [resumePause, hframes] at hstep
  split at hstep
  · rename_i hgaveUp
    obtain rfl := Option.some.inj hstep
    exact .inl ⟨hgaveUp, advances_quietly hlt rfl rfl⟩
  · rename_i hgoing
    split at hstep
    · cases hstep
    · rename_i hdue
      obtain rfl := Option.some.inj hstep
      exact .inr ⟨Bool.eq_false_iff.mpr hgoing, Nat.le_of_not_lt hdue,
        advances_quietly hlt rfl rfl⟩

end Inside

/-! ### After the loop -/

/-- Telling of a transition records no events of calls. -/
theorem events_announce (levels : Nat) (tr : Traffic α) (call : Option Nat) (t : Transition) :
    (announce levels tr call t).1.trace.events = tr.trace.events := by
  induction levels generalizing tr t with
  | zero => rfl
  | succ levels ih =>
    simp only [announce]
    split
    · rfl
    · split
      · rename_i b _ _
        -- The hook looks at the breaker first, and what that changes is told in turn.
        cases (b.observe (tr.note (.circuitChanged tr.attached.breakerName t)).now).2 with
        | none => rfl
        | some next =>
          dsimp only
          split
          · exact ih _ next
          · exact ih _ next
      · rfl

theorem events_changeBreaker (tr : Traffic α) (call : Option Nat) (b : CircuitBreaker)
    (change : Option Transition) :
    (tr.changeBreaker call b change).1.trace.events = tr.trace.events := by
  cases change with
  | none => rfl
  | some t => exact events_announce 2 (tr.setBreaker b) call t

theorem events_releaseSlot (tr : Traffic α) : tr.releaseSlot.trace.events = tr.trace.events := by
  cases hb : tr.layers.bulkhead with
  | none => simp only [releaseSlot, hb]
  | some b =>
    obtain ⟨ready, h⟩ := exists_releaseSlot hb
    rw [h]
    rfl

theorem events_abandonPermit (tr : Traffic α) (p : Permit) :
    (tr.abandonPermit p).trace.events = tr.trace.events := by
  unfold abandonPermit
  split <;> rfl

/-- The circuit breaker is told how the call ended, which leaves its outcome or a panic. -/
theorem exists_settlePermit (tr : Traffic α) (id : Nat) (c : Call α) (p : Permit) (failed : Bool)
    (outcome : Outcome α) :
    ∃ outcome', (tr.settlePermit id c p failed outcome).calls =
        tr.calls.set id { c with activity := .leaving outcome' } ∧
      (tr.settlePermit id c p failed outcome).trace.events = tr.trace.events := by
  unfold settlePermit
  split
  · exact ⟨outcome, rfl, rfl⟩
  · rename_i b _
    obtain ⟨b', trace, -, hchanged⟩ :=
      exists_changeBreaker tr (some id) (b.settle p failed tr.now).1 (b.settle p failed tr.now).2
    have hcalls : (tr.changeBreaker (some id) (b.settle p failed tr.now).1
        (b.settle p failed tr.now).2).1.calls = tr.calls := by rw [hchanged]; rfl
    have hevents := events_changeBreaker tr (some id) (b.settle p failed tr.now).1
      (b.settle p failed tr.now).2
    clear hchanged
    dsimp only
    generalize tr.changeBreaker (some id) (b.settle p failed tr.now).1
      (b.settle p failed tr.now).2 = changed at hcalls hevents ⊢
    obtain ⟨tr₁, panicked⟩ := changed
    cases panicked with
    | none => exact ⟨outcome, congrArg (List.set · id _) hcalls, hevents⟩
    | some message => exact ⟨.panic message, congrArg (List.set · id _) hcalls, hevents⟩

theorem advances_leaveBreaker (hlt : id < tr.calls.length) (c : Call α) (p : Permit)
    (outcome : Outcome α) :
    ∃ outcome' events, Advances tr (tr.leaveBreaker id c p outcome) id
        { c with activity := .leaving outcome' } events ∧ events.filterMap Event.act? = [] := by
  have habandoned (message : String) : Advances tr
      ((tr.abandonPermit p).become id c (.leaving (.panic message))) id
      { c with activity := .leaving (.panic message) } [] :=
    advances_quietly hlt (congrArg (List.set · id _) (abandonPermit_spec tr p).1.calls)
      (events_abandonPermit tr p)
  have hsettled (failed : Bool) (outcome : Outcome α) : ∃ outcome' events,
      Advances tr (tr.settlePermit id c p failed outcome) id
        { c with activity := .leaving outcome' } events ∧ events.filterMap Event.act? = [] := by
    obtain ⟨outcome', hcalls, hevents⟩ := exists_settlePermit tr id c p failed outcome
    exact ⟨outcome', [], advances_quietly hlt hcalls hevents, rfl⟩
  cases outcome with
  | panic message => exact ⟨_, _, habandoned message, rfl⟩
  | value v => exact hsettled false (.value v)
  | error e =>
    simp only [leaveBreaker]
    cases tr.attached.failureIf with
    | none => exact hsettled true (.error e)
    | some judge =>
      dsimp only
      cases judge e.failure with
      | error message => exact ⟨_, _, habandoned message, rfl⟩
      | ok verdict =>
        -- The judgement is recorded, but it is none of the retry layer.
        obtain ⟨outcome', hcalls, hevents⟩ :=
          exists_settlePermit (tr.record id (.judgedFailure e.message verdict)) id c p verdict
            (.error e)
        exact ⟨outcome', [.judgedFailure e.message verdict], advances_of_eq hlt hcalls hevents, rfl⟩

/-- A call that has left the loop leaves what is outside of it, and ends. Nothing is seen of the
loop any more. -/
theorem advances_outside (hc : tr.calls[id]? = some c) {outcome : Outcome α}
    (hleaving : c.activity = .leaving outcome)
    (hframes : ∀ frame ∈ c.frames, frame.owner ≠ .retry) (hstep : tr.step id = some tr') :
    ∃ c' events, Advances tr tr' id c' events ∧ events.filterMap Event.act? = [] ∧
      (c'.activity = .ended ∨ ∃ outcome', c'.activity = .leaving outcome') ∧
      ∀ frame ∈ c'.frames, frame.owner ≠ .retry := by
  have hlt := (List.getElem?_eq_some_iff.mp hc).1
  rw [step_eq hc, hleaving] at hstep
  obtain rfl := Option.some.inj hstep
  unfold leaveNext
  split
  · exact ⟨_, [.done outcome], advances_of_eq hlt rfl rfl, rfl, .inl rfl, hframes⟩
  · rename_i outside hslot
    rw [hslot] at hframes
    exact ⟨_, [], advances_quietly hlt
      (congrArg (List.set · id _) (giving_releaseSlot tr).calls) (events_releaseSlot tr), rfl,
      .inr ⟨outcome, rfl⟩, fun frame hmem => hframes frame (.tail _ hmem)⟩
  · rename_i p outside hpermit
    rw [hpermit] at hframes
    obtain ⟨outcome', events, hadvances, hnone⟩ :=
      advances_leaveBreaker hlt { c with frames := outside } p outcome
    exact ⟨_, events, hadvances, hnone, .inr ⟨outcome', rfl⟩,
      fun frame hmem => hframes frame (.tail _ hmem)⟩
  · rename_i number inner outside hattempt
    rw [hattempt] at hframes
    exact absurd rfl (hframes _ (.head _))

/-! ### Waiting -/

/-- A call that sleeps takes a step when the time has come. -/
theorem exists_step_of_due (hc : tr.calls[id]? = some c) {due : Nat}
    (hdue : c.activity.due? = some due) (hle : due ≤ tr.clock) :
    ∃ tr', tr.step id = some tr' := by
  have hover : ¬ tr.clock < due := Nat.not_lt.mpr hle
  rw [← Option.isSome_iff_exists, step_eq hc]
  cases hactivity : c.activity with
  | awaitingTokens n due' inner =>
    obtain rfl : due' = due := by simpa [Activity.due?, hactivity] using hdue
    simp only [resumeTokens, if_neg hover]
    split
    · rfl
    · split <;> rfl
  | awaitingSlot due' inner =>
    obtain rfl : due' = due := by simpa [Activity.due?, hactivity] using hdue
    simp only [resumeSlot, if_neg hover]
    split
    · rfl
    · split
      · rfl
      · split <;> rfl
  | pausing due' =>
    obtain rfl : due' = due := by simpa [Activity.due?, hactivity] using hdue
    simp only [resumePause, if_neg hover]
    split
    · split <;> rfl
    · rfl
  | operating number op due' =>
    obtain rfl : due' = some due := by simpa [Activity.due?, hactivity] using hdue
    simp only [resumeOperation, Operation.poll, if_pos hle]
    split <;> rfl
  | racing run deadline due' =>
    obtain rfl : due' = due := by simpa [Activity.due?, hactivity] using hdue
    simp only [resumeRace, if_neg hover]
    split
    · rfl
    · split <;> rfl
  | _ => simp [Activity.due?, hactivity] at hdue

end Traffic

end Safeguard
