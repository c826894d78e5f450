import Safeguard.Traffic.Schedule

/-!
# Calls that are replaced

A step of a call ends by replacing the record of the call. What the record said before about what
the call was doing plays no part in what a step makes of everything else: it could have been
replaced already. So the steps that a call takes one after the other in a turn can be told as one,
in which the record is replaced only once.

## Main results

* `Traffic.step_eq`: a step, by what the call is doing.
* `Traffic.changeBreaker_setCall`: telling of a transition has nothing to do with the calls.
* `Traffic.resumeTokens_become`, `Traffic.resumeSlot_become`, `Traffic.resumePause_become`,
  `Traffic.resumeOperation_become`, `Traffic.leaveBreaker_become`,
  `Traffic.leaveFailedAttempt_become`: steps of a call whose record was replaced.
-/

namespace Safeguard.Traffic

open CircuitBreaker (State Transition Permit)

variable {α : Type} {tr : Traffic α} {id : Nat} {c : Call α}

/-- A step, by what the call is doing. -/
theorem step_eq (hc : tr.calls[id]? = some c) :
    tr.step id =
      match c.activity with
      | .entering stages => some (tr.enterNext id c stages)
      | .leaving outcome => some (tr.leaveNext id c outcome)
      | .awaitingTokens n due inner => tr.resumeTokens id c n due inner
      | .awaitingSlot due inner => tr.resumeSlot id c due inner
      | .pausing due => tr.resumePause id c due
      | .operating number op due => tr.resumeOperation id c number op due
      | .racing run deadline due => tr.resumeRace id c run deadline due
      | .holding => tr.resumeHold id c
      | .ended => none := by
  cases hactivity : c.activity <;>
    simp only [step, hc, hactivity, Option.bind_eq_bind, Option.bind_some]

/-! ## Replacing a call -/

section SetCall

variable (tr : Traffic α) (id : Nat) (c d : Call α)

theorem setCall_setCall : (tr.setCall id c).setCall id d = tr.setCall id d := by
  simp only [setCall, List.set_set]

theorem setCall_self (h : tr.calls[id]? = some c) : tr.setCall id c = tr := by
  obtain ⟨hlt, rfl⟩ := List.getElem?_eq_some_iff.mp h
  rw [setCall, List.set_getElem_self]

theorem call_setCall (h : id < tr.calls.length) : (tr.setCall id c).calls[id]? = some c :=
  List.getElem?_set_self h

theorem layers_setCall : (tr.setCall id c).layers = tr.layers := rfl

theorem attached_setCall : (tr.setCall id c).attached = tr.attached := rfl

theorem now_setCall : (tr.setCall id c).now = tr.now := rfl

theorem note_setCall (n : Notice) : (tr.setCall id c).note n = (tr.note n).setCall id c := rfl

theorem setBreaker_setCall (b : CircuitBreaker) :
    (tr.setCall id c).setBreaker b = (tr.setBreaker b).setCall id c := rfl

theorem wakeCall_setCall (next : Option Nat) :
    (tr.setCall id c).wakeCall next = (tr.wakeCall next).setCall id c := by
  cases next with
  | none => rfl
  | some next =>
    have hready : (tr.setCall id c).ready = tr.ready := rfl
    simp only [wakeCall, wake, hready]
    split <;> rfl

theorem releaseSlot_setCall : (tr.setCall id c).releaseSlot = tr.releaseSlot.setCall id c := by
  simp only [releaseSlot, layers_setCall]
  split
  · rfl
  · rename_i b _
    exact wakeCall_setCall (tr.setBulkhead b.release.1) id c b.release.2

theorem leaveQueue_setCall (key : Nat) :
    (tr.setCall id c).leaveQueue key = (tr.leaveQueue key).setCall id c := by
  simp only [leaveQueue, layers_setCall]
  split
  · rfl
  · rename_i b _
    exact wakeCall_setCall (tr.setBulkhead (b.leave key).1) id c (b.leave key).2

theorem abandonPermit_setCall (p : Permit) :
    (tr.setCall id c).abandonPermit p = (tr.abandonPermit p).setCall id c := by
  simp only [abandonPermit, layers_setCall]
  split <;> rfl

theorem announce_setCall (levels : Nat) (call : Option Nat) (t : Transition) :
    announce levels (tr.setCall id c) call t =
      ((announce levels tr call t).1.setCall id c, (announce levels tr call t).2) := by
  induction levels generalizing tr t with
  | zero => rfl
  | succ levels ih =>
    simp only [announce, attached_setCall, note_setCall, layers_setCall, now_setCall]
    split
    · rfl
    · split
      · rename_i b _ _
        simp only [setBreaker_setCall, ih]
        -- The hook has looked; what that changed was told first.
        cases (b.observe (tr.note (.circuitChanged tr.attached.breakerName t)).now).2 with
        | none => rfl
        | some next =>
          dsimp only
          split <;> rfl
      · rfl

theorem changeBreaker_setCall (call : Option Nat) (b : CircuitBreaker)
    (change : Option Transition) :
    (tr.setCall id c).changeBreaker call b change =
      ((tr.changeBreaker call b change).1.setCall id c, (tr.changeBreaker call b change).2) := by
  cases change with
  | none => rfl
  | some t => exact announce_setCall (tr.setBreaker b) id c 2 call t

end SetCall

/-! ## Going on with another activity -/

section Become

theorem call_become (h : id < tr.calls.length) (c : Call α) (a : Activity α) :
    (tr.become id c a).calls[id]? = some { c with activity := a } :=
  call_setCall tr id _ h

theorem become_self (hc : tr.calls[id]? = some c) : tr.become id c c.activity = tr :=
  setCall_self tr id c hc

variable (tr : Traffic α) (id : Nat) (c d : Call α) (a : Activity α)

theorem become_become (b : Activity α) : (tr.become id c a).become id d b = tr.become id d b :=
  setCall_setCall tr id _ _

theorem givenUp_become : (tr.become id c a).givenUp { c with activity := a } = tr.givenUp c := by
  rfl

theorem clock_become : (tr.become id c a).clock = tr.clock := by rfl

theorem now_become : (tr.become id c a).now = tr.now := by rfl

theorem layers_become : (tr.become id c a).layers = tr.layers := by rfl

theorem attached_become : (tr.become id c a).attached = tr.attached := by rfl

theorem resumeTokens_become (n : UInt32) (due : Nat) (inner : List Stage) :
    (tr.become id c a).resumeTokens id { c with activity := a } n due inner =
      tr.resumeTokens id c n due inner := by
  simp only [resumeTokens, givenUp_become, clock_become, layers_become, now_become]
  split
  · exact congrArg some (become_become ..)
  · split
    · rfl
    · split
      · exact congrArg some (become_become ..)
      · split
        · exact congrArg some (become_become (tr.setLimiter _) ..)
        · exact congrArg some (become_become ((tr.setLimiter _).note _) ..)

theorem resumeSlot_become (due : Nat) (inner : List Stage) :
    (tr.become id c a).resumeSlot id { c with activity := a } due inner =
      tr.resumeSlot id c due inner := by
  have hleave : (tr.become id c a).leaveQueue id = (tr.leaveQueue id).become id c a :=
    leaveQueue_setCall ..
  simp only [resumeSlot, givenUp_become, clock_become, layers_become, hleave]
  split
  · exact congrArg some (become_become ..)
  · split
    · exact congrArg some (become_become ..)
    · split
      · exact congrArg some (become_become (tr.setBulkhead _) ..)
      · split
        · rfl
        · exact congrArg some (become_become ((tr.setBulkhead _).note _) ..)

theorem resumePause_become (due : Nat) :
    (tr.become id c a).resumePause id { c with activity := a } due = tr.resumePause id c due := by
  simp only [resumePause, givenUp_become, clock_become]
  split
  · split
    · exact congrArg some (become_become ..)
    · split
      · rfl
      · exact congrArg some (become_become ..)
  · exact congrArg some (become_become ..)

theorem resumeOperation_become (number : Nat) (op : Operation α) (due : Option Nat) :
    (tr.become id c a).resumeOperation id { c with activity := a } number op due =
      tr.resumeOperation id c number op due := by
  simp only [resumeOperation, givenUp_become, clock_become]
  congr 1
  funext (outcome, ending)
  exact become_become (tr.recordRun id number ending) ..

theorem settlePermit_become (p : Permit) (failed : Bool) (outcome : Outcome α) :
    (tr.become id c a).settlePermit id d p failed outcome =
      tr.settlePermit id d p failed outcome := by
  have hchange (b : CircuitBreaker) (change : Option Transition) :
      (tr.become id c a).changeBreaker (some id) b change =
        ((tr.changeBreaker (some id) b change).1.become id c a,
          (tr.changeBreaker (some id) b change).2) :=
    changeBreaker_setCall ..
  simp only [settlePermit, layers_become, now_become, hchange]
  cases tr.layers.circuitBreaker with
  | none => exact become_become ..
  | some b =>
    dsimp only
    generalize tr.changeBreaker (some id) (b.settle p failed tr.now).1
      (b.settle p failed tr.now).2 = changed
    obtain ⟨tr₁, panicked⟩ := changed
    cases panicked with
    | none => exact become_become ..
    | some message => exact become_become ..

theorem leaveBreaker_become (p : Permit) (outcome : Outcome α) :
    (tr.become id c a).leaveBreaker id d p outcome = tr.leaveBreaker id d p outcome := by
  have habandon (o : Outcome α) : ((tr.become id c a).abandonPermit p).become id d (.leaving o) =
      (tr.abandonPermit p).become id d (.leaving o) := by
    rw [show (tr.become id c a).abandonPermit p = (tr.abandonPermit p).become id c a from
      abandonPermit_setCall ..]
    exact become_become ..
  have hrecord (event : Event α) : (tr.become id c a).record id event =
      (tr.record id event).become id c a := rfl
  cases outcome with
  | panic message => exact habandon (.panic message)
  | value v => exact settlePermit_become tr id c d a p false (.value v)
  | error e =>
    simp only [leaveBreaker, attached_become, hrecord, settlePermit_become, habandon]

/-- The traffic in which a call falls asleep between two attempts. -/
def asleep (config : Retry.Config Float) (number : Nat) (delay : Duration) (e : CallError) :
    Traffic α :=
  { tr.note (.attemptRepeated number config.maxAttempts.toNat delay e.message) with
    stamps := tr.stamps + 1 }

theorem pause_become (outside : List Frame) (config : Retry.Config Float) (number : Nat)
    (e : CallError) :
    (tr.become id c a).pause id d outside config number e =
      tr.pause id d outside config number e := by
  have hdrawn : (tr.become id c a).drawn = tr.drawn := rfl
  simp only [pause, attached_become, hdrawn]
  generalize config.delay number (tr.attached.draw tr.drawn) = delay
  cases tr.attached.onRetry with
  | none =>
    exact setCall_setCall (asleep { tr with drawn := tr.drawn + 1 } config number delay e) id _ _
  | some hook =>
    dsimp only
    cases hook.panics number with
    | none =>
      exact setCall_setCall (asleep ({ tr with drawn := tr.drawn + 1 }.record id
        (.retrying number delay e.message)) config number delay e) id _ _
    | some message =>
      exact setCall_setCall ({ tr with drawn := tr.drawn + 1 }.record id
        (.retrying number delay e.message)) id _ _

/-- What becomes of a call whose error has been judged. -/
theorem judged_become (outside : List Frame) (config : Retry.Config Float) (number : Nat)
    (e : CallError) (more : Bool) :
    (if more then (tr.become id c a).pause id d outside config number e
      else (tr.become id c a).become id { d with frames := outside } (.leaving (.error e))) =
    if more then tr.pause id d outside config number e
      else tr.become id { d with frames := outside } (.leaving (.error e)) := by
  rw [pause_become, become_become]

theorem leaveFailedAttempt_become (outside : List Frame) (number : Nat) (e : CallError) :
    (tr.become id c a).leaveFailedAttempt id { c with activity := a } outside number e =
      tr.leaveFailedAttempt id c outside number e := by
  simp only [leaveFailedAttempt, layers_become, attached_become]
  cases tr.layers.retry with
  | none => exact become_become ..
  | some config =>
    cases tr.attached.retryIf with
    | none => exact judged_become ..
    | some predicate =>
      dsimp only
      cases predicate e.failure with
      | error message => exact become_become ..
      | ok verdict => exact judged_become (tr.record id (.judgedRetry e.message verdict)) ..

end Become

end Safeguard.Traffic
