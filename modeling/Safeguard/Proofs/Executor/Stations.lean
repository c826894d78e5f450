import Safeguard.Proofs.Executor.Components
import Safeguard.Proofs.Traffic.Replacing

/-!
# Where executions rest

A call behind a single layer, or behind none, can rest at a few places only: before its first
turn, where its layer makes it wait, while its operation runs, between two attempts, and at its
end. In a turn it goes from one of these places to another. This file says what it is for steps
and a poll to come to the same, and shows it for the operation, which every component invokes.

## Main definitions

* `Alone.Station`: the places where a call rests.
* `Alone.Plays`: the steps of a turn lead to a given state, in which the call rests.
* `Alone.Leaves`: what follows the operation in an execution is what a call does on its way out.

## Main results

* `Alone.leaves_finish`: the end of a call.
* `Alone.plays_await`, `Alone.plays_invoke`: the operation.
-/

namespace Safeguard

open CircuitBreaker (Permit)
open Traffic (proceed)

variable {α : Type} {tr tr' tr₁ : Traffic α} {id : Nat} {c : Call α} {l : Option Layer}
  {attempts n : Nat} {script : List (Operation α)}

/-- An operation is polled as it is, and its error is wrapped. -/
theorem Operation.poll_eq (op : Operation α) (cancelled : Bool) (due : Option Nat) (clock : Nat) :
    op.poll cancelled due clock =
      (op.ending? cancelled due clock).map fun (ending, how) => (ending.wrapped, how) := by
  unfold poll ending?
  split
  · rfl
  · cases due with
    | none => rfl
    | some tick =>
      simp only [Option.any_some, decide_eq_true_eq]
      split
      · simp only [result, Option.map_some]
        cases op.ending <;> rfl
      · rfl

namespace Alone

/-! ## Places -/

/-- What a call holds while its operation runs. -/
inductive Held : Option Layer → List Frame → Prop where
  | nothing : Held none []
  | token : Held (some .rateLimiter) []
  | slot : Held (some .bulkhead) [.slot]
  | permit (p : Permit) : Held (some .circuitBreaker) [.permit p]
  | attempt (number : Nat) : Held (some .retry) [.attempt number []]

/-- Where a call can rest. It pauses only if another attempt is left. -/
inductive Station (attempts : Nat) : Option Layer → Activity α → List Frame → Prop where
  | fresh (l : Option Layer) : Station attempts l (.entering (l.toList.map .layer)) []
  | awaitingToken (due : Nat) : Station attempts (some .rateLimiter) (.awaitingTokens 1 due []) []
  | awaitingSlot (due : Nat) : Station attempts (some .bulkhead) (.awaitingSlot due []) []
  | pausing (due : Nat) {number : Nat} (h : number < attempts) :
      Station attempts (some .retry) (.pausing due) [.attempt number []]
  | operating {l : Option Layer} {frames : List Frame} (h : Held l frames) (number : Nat)
      (op : Operation α) (due : Option Nat) : Station attempts l (.operating number op due) frames
  | racing (run : Nat) (deadline : TokenId) (due : Nat) :
      Station attempts (some .timeout) (.racing run deadline due) []
  | ended (l : Option Layer) : Station attempts l .ended []

/-- A call that executes an operation behind a single layer, or behind none. -/
structure Executes (l : Option Layer) (attempts : Nat) (c : Call α) : Prop where
  work : ∃ script, c.work = .operation script
  station : Station attempts l c.activity c.frames

/-! ## Turns -/

/-- The steps of a call lead to a state in which it rests; so many of them are enough. -/
structure Plays (l : Option Layer) (attempts id n : Nat) (tr tr' : Traffic α) : Prop where
  proceeds : ∀ k, n ≤ k → proceed k tr id = tr'
  rests : ∃ c, tr'.calls[id]? = some c ∧ Executes l attempts c

theorem Plays.mono {m : Nat} (h : Plays l attempts id n tr tr') (hle : n ≤ m) :
    Plays l attempts id m tr tr' :=
  ⟨fun k hk => h.proceeds k (Nat.le_trans hle hk), h.rests⟩

theorem Plays.step (h : tr.step id = some tr₁) (h' : Plays l attempts id n tr₁ tr') :
    Plays l attempts id (n + 1) tr tr' where
  proceeds k hk := by
    obtain ⟨k, rfl⟩ := Nat.exists_eq_add_of_lt hk
    rw [proceed, h]
    exact h'.proceeds (n + k) (Nat.le_add_right n k)
  rests := h'.rests

theorem plays_rest (h : tr.step id = none) (hc : tr.calls[id]? = some c)
    (hexecutes : Executes l attempts c) : Plays l attempts id 0 tr tr where
  proceeds k _ := by
    cases k with
    | zero => rfl
    | succ k => rw [proceed, h]
  rests := ⟨c, hc, hexecutes⟩

/-- A call that executes a script inside the given frames, and the retry policy that there is. -/
structure Underway (script : List (Operation α)) (policy : Option (Retry.Config Float))
    (frames : List Frame) (id : Nat) (tr : Traffic α) (c : Call α) : Prop where
  lt : id < tr.calls.length
  work : c.work = .operation script
  frames : c.frames = frames
  policy : tr.layers.retry = policy

/-- A call that has got into the given activity is one that goes on with it. -/
theorem Plays.of_become {activity : Activity α} (hc : tr.calls[id]? = some c)
    (hactivity : c.activity = activity) (h : Plays l attempts id n (tr.become id c activity) tr') :
    Plays l attempts id n tr tr' := by
  rwa [← hactivity, Traffic.become_self hc] at h

/-- A call rests where it has nothing to do. -/
theorem plays_become {policy : Option (Retry.Config Float)} {frames : List Frame}
    {activity : Activity α} (h : Underway script policy frames id tr c)
    (hstation : Station attempts l activity frames)
    (hstep : (tr.become id c activity).step id = none) (n : Nat) :
    Plays l attempts id n (tr.become id c activity) (tr.become id c activity) := by
  have hexecutes : Executes l attempts { c with activity := activity } :=
    ⟨⟨script, h.work⟩, by rw [h.frames]; exact hstation⟩
  exact (plays_rest hstep (Traffic.call_become h.lt c activity) hexecutes).mono (Nat.zero_le n)

/-- What follows the operation is what a call does on its way out of the given frames. -/
def Leaves (l : Option Layer) (attempts id n : Nat) (script : List (Operation α))
    (policy : Option (Retry.Config Float)) (frames : List Frame) (sequel : Sequel α) : Prop :=
  ∀ tr c outcome, Underway script policy frames id tr c →
    Plays l attempts id n (tr.become id c (.leaving outcome)) (sequel tr c outcome)

variable {policy : Option (Retry.Config Float)} {frames : List Frame} {sequel : Sequel α}

section Underway

variable (h : Underway script policy frames id tr c)

include h

theorem Underway.inside (frames' : List Frame) :
    Underway script policy frames' id tr { c with frames := frames' } :=
  ⟨h.lt, h.work, rfl, h.policy⟩

theorem Underway.asleep :
    Underway script policy frames id { tr with stamps := tr.stamps + 1 }
      { c with since := tr.stamps } :=
  ⟨h.lt, h.work, h.frames, h.policy⟩

theorem Underway.record (event : Event α) :
    Underway script policy frames id (tr.record id event) c :=
  ⟨h.lt, h.work, h.frames, h.policy⟩

theorem Underway.recordRun (number : Nat) (how : RunEnd) :
    Underway script policy frames id (tr.recordRun id number how) c :=
  ⟨h.lt, h.work, h.frames, h.policy⟩

theorem Underway.note (n : Notice) : Underway script policy frames id (tr.note n) c :=
  ⟨h.lt, h.work, h.frames, h.policy⟩

theorem Underway.setCall : Underway script policy frames id (tr.setCall id c) c :=
  ⟨(List.getElem?_eq_some_iff.mp (tr.call_setCall id c h.lt)).1, h.work, h.frames, h.policy⟩

end Underway

/-! ## The operation -/

theorem leaves_finish : Leaves l attempts id 1 script policy [] (finish id) := by
  intro tr c outcome h
  have hstep : (tr.become id c (.leaving outcome)).step id = some (finish id tr c outcome) := by
    rw [Traffic.step_eq (Traffic.call_become h.lt c _)]
    simp only [Traffic.leaveNext, h.frames]
    -- What `finish` leaves is without frames, and so is the call by now.
    obtain ⟨token, work, invocations, _, activity, since⟩ := c
    obtain rfl := h.frames
    exact congrArg some (Traffic.setCall_setCall (tr.record id (.done outcome)) id _ _)
  have hended := (tr.record id (.done outcome)).call_setCall id
    { c with frames := [], activity := .ended } h.lt
  exact (plays_rest (Traffic.step_eq hended) hended ⟨⟨script, h.work⟩, .ended l⟩).step hstep

theorem plays_fail (h : Underway script policy [] id tr c) (e : LayerError) :
    Plays l attempts id 1 (tr.refuse id c e) (fail tr id c e) :=
  leaves_finish tr c (.error (.layer e)) h

theorem plays_await (h : Underway script policy frames id tr c) (hheld : Held l frames)
    (hsequel : Leaves l attempts id n script policy frames sequel) (number : Nat)
    (op : Operation α) (due : Option Nat) :
    Plays l attempts id (n + 1) (tr.become id c (.operating number op due))
      (await tr id c number op due sequel) := by
  have hc := Traffic.call_become h.lt c (.operating number op due)
  have hstep := (Traffic.step_eq hc).trans (Traffic.resumeOperation_become ..)
  rw [Traffic.resumeOperation, Operation.poll_eq] at hstep
  unfold await
  cases hop : op.ending? (tr.givenUp c) due tr.clock with
  | some ended =>
    obtain ⟨ending, how⟩ := ended
    rw [hop] at hstep
    exact (hsequel _ c ending.wrapped (h.recordRun number how)).step hstep
  | none =>
    rw [hop] at hstep
    exact plays_become h (.operating hheld number op due) hstep _

/-- The traffic and the call right after an invocation. -/
def invoked (tr : Traffic α) (id : Nat) (c : Call α) : Traffic α × Call α :=
  ({ tr.record id (.invoked (c.invocations + 1) (tr.givenUp c)) with stamps := tr.stamps + 1 },
    { c with invocations := c.invocations + 1, since := tr.stamps })

theorem work_of_operation (h : c.work = .operation script) :
    tr.work id c = (invoked tr id c).1.become id (invoked tr id c).2
      (.operating (c.invocations + 1) (Operation.ofScript script (c.invocations + 1))
        ((Operation.ofScript script (c.invocations + 1)).due tr.clock)) := by
  unfold Traffic.work
  -- A call that has nothing to do, or only holds on, executes no script.
  split
  · rename_i hnothing
    cases hnothing.symm.trans h
  · rename_i hhold
    cases hhold.symm.trans h
  · rename_i hscript
    obtain rfl := Work.operation.inj (hscript.symm.trans h)
    rfl

theorem plays_invoke (h : Underway script policy frames id tr c) (hheld : Held l frames)
    (hsequel : Leaves l attempts id n script policy frames sequel) :
    Plays l attempts id (n + 2) (tr.become id c (.entering [])) (invoke tr id c script sequel) := by
  have hinvoked : Underway script policy frames id (invoked tr id c).1 (invoked tr id c).2 :=
    ⟨h.lt, h.work, h.frames, h.policy⟩
  refine (plays_await hinvoked hheld hsequel _ _ _).step ?_
  exact (Traffic.step_eq (Traffic.call_become h.lt c _)).trans (congrArg some
    ((work_of_operation h.work).trans (Traffic.setCall_setCall (invoked tr id c).1 id _ _)))

/-- An operation that runs is awaited further. -/
theorem plays_operating {number : Nat} {op : Operation α} {due : Option Nat}
    (hc : tr.calls[id]? = some c) (hactivity : c.activity = .operating number op due)
    (h : Underway script policy frames id tr c) (hheld : Held l frames)
    (hsequel : Leaves l attempts id n script policy frames sequel) :
    Plays l attempts id (n + 1) tr (await tr id c number op due sequel) :=
  .of_become hc hactivity (plays_await h hheld hsequel number op due)

theorem plays_ended (hc : tr.calls[id]? = some c) (hactivity : c.activity = .ended)
    (h : Underway script policy [] id tr c) : Plays l attempts id 0 tr tr := by
  have hrests := Traffic.step_eq hc
  rw [hactivity] at hrests
  exact plays_rest hrests hc
    ⟨⟨script, h.work⟩, by rw [hactivity, h.frames]; exact .ended l⟩

end Alone

end Safeguard
