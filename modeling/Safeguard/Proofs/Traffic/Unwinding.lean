import Safeguard.Proofs.Traffic.Turns

/-!
# Giving back what a call is inside

A call that its caller drops, or in which something panicked, has no result. It gives back what
it is inside from the innermost layer outwards, and nothing else comes of it: the breaker gets
its permits back and the bulkhead its slots, and neither the hook nor the log is told anything.
This file says so of single changes, and then of all that happens until the call has ended,
whatever other calls do in the meantime.

## Main definitions

* `Change.Unwinds`: in a change, a call gives some frames back.
* `Traffic.BreaksOff`: how a call ends without a result.
* `Call.Broken`: a call is on its way out with a panic, or has ended.
* `Unwinding`: a call gives its frames back in the changes of a log.
* `Once`: one change of a log is of one kind, and the others are of another.

## Main results

* `Traffic.exists_unwinds_of_breaksOff`, `Traffic.exists_unwinds_of_broken`: the changes of a
  call that breaks off.
* `Traffic.Course.unwinding`: what it does from there on.
* `Unwinding.once`: a frame is given back once.
-/

namespace Safeguard

open CircuitBreaker (Permit)
open Resilience (Layers)

variable {α : Type} {tr tr' tr₁ : Traffic α} {id : Nat} {c c' : Call α} {m : Move α}
  {lost : List Frame}

/-- A change of a given call: a step of it, or its end. -/
def Change.IsOf (id : Nat) (ch : Change α) : Prop := ch.move = .step id ∨ ch.move = .drop id

/-- In a change, a call gives some frames back, and nobody is told of anything. -/
structure Change.Unwinds (ch : Change α) (id : Nat) (c c' : Call α) (lost : List Frame) :
    Prop where
  before : ch.before.calls[id]? = some c
  after : ch.after.calls[id]? = some c'
  frames : c.frames = lost ++ c'.frames
  bulkhead : ch.after.layers.bulkhead = ch.before.layers.bulkhead.map
    (fun b : Bulkhead Nat => b.release.1)^[lost.countP Frame.isSlot]
  breaker : ch.after.layers.circuitBreaker = ch.before.layers.circuitBreaker.map
    ((Frame.permits lost).foldl CircuitBreaker.abandon)
  transitions : ch.after.trace.transitions = ch.before.trace.transitions
  notices : ch.after.trace.notices = ch.before.trace.notices

/-- A call is on its way out with a panic, or has ended. -/
def Call.Broken (c : Call α) : Prop :=
  (∃ message, c.activity = .leaving (.panic message)) ∨ c.activity = .ended ∧ c.frames = []

namespace Traffic

/-- How a call ends without a result: its caller drops it, or the operation, a predicate or the
retry hook panics. -/
inductive BreaksOff (tr : Traffic α) (id : Nat) (c : Call α) : Move α → Prop where
  | dropped (pending : c.activity.hasEnded = false) : BreaksOff tr id c (.drop id)
  /-- The operation panics. -/
  | operation {number : Nat} {op : Operation α} {due : Option Nat} {message : String}
      {ending : RunEnd} (operating : c.activity = .operating number op due)
      (poll : op.poll (tr.givenUp c) due tr.clock = some (.panic message, ending)) :
      BreaksOff tr id c (.step id)
  /-- The operation panicked in its task, and the call that races it takes that over. -/
  | task {run deadline due : Nat} {message : String}
      (racing : c.activity = .racing run deadline due) (going : tr.givenUp c = false)
      (ended : tr.runOutcome run = some (.panic message)) : BreaksOff tr id c (.step id)
  /-- The predicate of the circuit breaker panics. -/
  | failureIf {e : CallError} {p : Permit} {outside : List Frame} {judge : Predicate}
      {message : String} (leaving : c.activity = .leaving (.error e))
      (frames : c.frames = .permit p :: outside) (attached : tr.attached.failureIf = some judge)
      (panics : judge e.failure = .error message) : BreaksOff tr id c (.step id)
  /-- The retry predicate panics. -/
  | retryIf {e : CallError} {number : Nat} {inner : List Stage} {outside : List Frame}
      {config : Retry.Config Float} {judge : Predicate} {message : String}
      (leaving : c.activity = .leaving (.error e))
      (frames : c.frames = .attempt number inner :: outside)
      (retry : tr.layers.retry = some config) (attached : tr.attached.retryIf = some judge)
      (panics : judge e.failure = .error message) : BreaksOff tr id c (.step id)
  /-- The retry hook panics. -/
  | onRetry {e : CallError} {number : Nat} {inner : List Stage} {outside : List Frame}
      {config : Retry.Config Float} {hook : RetryHook} {message : String}
      (leaving : c.activity = .leaving (.error e))
      (frames : c.frames = .attempt number inner :: outside)
      (retry : tr.layers.retry = some config)
      (worthIt : ∀ judge, tr.attached.retryIf = some judge → judge e.failure = .ok true)
      (follow : config.mayFollow number = true) (attached : tr.attached.onRetry = some hook)
      (panics : hook.panics number = some message) : BreaksOff tr id c (.step id)

theorem BreaksOff.move_cases (h : BreaksOff tr id c m) : m = .step id ∨ m = .drop id := by
  cases h with
  | dropped => exact .inr rfl
  | _ => exact .inl rfl

/-! ## Single changes -/

/-- Nothing that matters to others has happened yet. -/
structure Unheard (tr tr' : Traffic α) : Prop where
  calls : tr'.calls = tr.calls
  layers : tr'.layers = tr.layers
  transitions : tr'.trace.transitions = tr.trace.transitions
  notices : tr'.trace.notices = tr.trace.notices

theorem Unheard.refl (tr : Traffic α) : Unheard tr tr := ⟨rfl, rfl, rfl, rfl⟩

theorem unheard_record (tr : Traffic α) (id : Nat) (event : Event α) :
    Unheard tr (tr.record id event) := ⟨rfl, rfl, rfl, rfl⟩

theorem unheard_recordRun (tr : Traffic α) (id number : Nat) (ending : RunEnd) :
    Unheard tr (tr.recordRun id number ending) := ⟨rfl, rfl, rfl, rfl⟩

theorem unheard_endRace (tr : Traffic α) (deadline : TokenId) :
    Unheard tr (tr.endRace deadline) := by
  obtain ⟨ready, h⟩ := tr.exists_endRace deadline
  rw [h]
  exact ⟨rfl, rfl, rfl, rfl⟩

/-- A call that is outside the layer that it waited for has no queue to leave. -/
theorem unheard_abandonActivity (id : Nat) {a : Activity α} (h : a.awaitsSlot = false) :
    Unheard tr (tr.abandonActivity id a) := by
  cases a with
  | awaitingSlot => cases h
  | operating => exact unheard_recordRun ..
  | racing => exact unheard_endRace ..
  | _ => exact .refl tr

/-- A call that gives frames back, innermost first. -/
theorem unwinds_abandonFrames (hc : tr.calls[id]? = some c) (hunheard : Unheard tr tr₁)
    (hframes : c.frames = lost ++ c'.frames) (m : Move α) :
    (Change.mk tr m ((lost.foldl abandonFrame tr₁).setCall id c')).Unwinds id c c' lost := by
  obtain ⟨hgiving, hlayers⟩ := abandonFrames_spec lost tr₁
  obtain ⟨_, ready, hgiven⟩ := exists_abandonFrames lost tr₁
  have htrace : (lost.foldl abandonFrame tr₁).trace = tr₁.trace := by rw [hgiven]
  rw [hunheard.layers] at hlayers
  have hset : ((lost.foldl abandonFrame tr₁).setCall id c').calls = tr.calls.set id c' := by
    rw [setCall, hgiving.calls, hunheard.calls]
  refine ⟨hc, ?_, hframes, congrArg (·.bulkhead) hlayers, congrArg (·.circuitBreaker) hlayers,
    ?_, ?_⟩
  · rw [hset, List.getElem?_set_self (List.getElem?_eq_some_iff.mp hc).1]
  · exact (congrArg Trace.transitions htrace).trans hunheard.transitions
  · exact (congrArg Trace.notices htrace).trans hunheard.notices

/-- A call that goes on with the same frames. -/
theorem unwinds_setCall (hc : tr.calls[id]? = some c) (hunheard : Unheard tr tr₁)
    (hframes : c'.frames = c.frames) (m : Move α) :
    (Change.mk tr m (tr₁.setCall id c')).Unwinds id c c' [] := by
  have hnone : c.frames = [] ++ c'.frames := hframes.symm
  exact unwinds_abandonFrames hc hunheard hnone m

/-- A call that its caller drops. -/
theorem unwinds_abandon (hc : tr.calls[id]? = some c) (hawaits : c.activity.awaitsSlot = false) :
    (Change.mk tr (.drop id) (tr.abandon id)).Unwinds id c
      { c with frames := [], activity := .ended } c.frames := by
  have heq : tr.abandon id =
      (c.frames.foldl abandonFrame (tr.abandonActivity id c.activity)).setCall id
        { c with frames := [], activity := .ended } := by
    simp only [abandon, hc]
  rw [heq]
  exact unwinds_abandonFrames hc (unheard_abandonActivity id hawaits) (List.append_nil _).symm _

/-- A call that is on its way out with a panic, and leaves the layers that it is inside no
more. -/
theorem exists_unwinds_become (hc : tr.calls[id]? = some c) (hunheard : Unheard tr tr₁)
    (lost : List Frame) {outside : List Frame} (hframes : c.frames = lost ++ outside)
    (message : String) (m : Move α) :
    ∃ c' lost', (Change.mk tr m ((lost.foldl abandonFrame tr₁).become id
      { c with frames := outside } (.leaving (.panic message)))).Unwinds id c c' lost' ∧
        c'.Broken :=
  ⟨_, lost, unwinds_abandonFrames hc hunheard hframes m, .inl ⟨message, rfl⟩⟩

/-- The move with which a call breaks off. -/
theorem exists_unwinds_of_breaksOff (hc : tr.calls[id]? = some c) (h : BreaksOff tr id c m)
    (hm : tr.move m = some tr') (hawaits : c.activity.awaitsSlot = false) :
    ∃ c' lost, (Change.mk tr m tr').Unwinds id c c' lost ∧ c'.Broken := by
  cases h with
  | dropped pending =>
    have hpending : tr.isPending id = true := isPending_iff.mpr ⟨c, hc, pending⟩
    obtain rfl : tr.abort id = tr' := Option.some.inj hm
    rw [abort, if_pos hpending]
    exact ⟨_, _, unwinds_abandon hc hawaits, .inr ⟨rfl, rfl⟩⟩
  | @operation number op due message ending operating poll =>
    have hstep : tr.step id = some ((tr.recordRun id number ending).become id c
        (.leaving (.panic message))) := by
      simp [step, hc, operating, resumeOperation, poll]
    obtain rfl := Option.some.inj (hstep.symm.trans hm)
    exact exists_unwinds_become hc (unheard_recordRun ..) [] rfl message _
  | @task run deadline due message racing going ended =>
    have hstep : tr.step id = some ((tr.endRace deadline).become id c
        (.leaving (.panic message))) := by
      simp [step, hc, racing, resumeRace, going, ended]
    obtain rfl := Option.some.inj (hstep.symm.trans hm)
    exact exists_unwinds_become hc (unheard_endRace ..) [] rfl message _
  | @failureIf e p outside judge message leaving frames attached panics =>
    have hstep : tr.step id = some ((tr.abandonPermit p).become id { c with frames := outside }
        (.leaving (.panic message))) := by
      simp [step, hc, leaving, leaveNext, frames, leaveBreaker, attached, panics]
    obtain rfl := Option.some.inj (hstep.symm.trans hm)
    exact exists_unwinds_become hc (.refl tr) [.permit p] frames message _
  | @retryIf e number inner outside config judge message leaving frames retry attached panics =>
    have hstep : tr.step id = some (tr.become id { c with frames := outside }
        (.leaving (.panic message))) := by
      simp [step, hc, leaving, leaveNext, frames, leaveFailedAttempt, retry, attached, panics,
        Except.map]
    obtain rfl := Option.some.inj (hstep.symm.trans hm)
    exact exists_unwinds_become hc (.refl tr) [.attempt number inner] frames message _
  | @onRetry e number inner outside config hook message leaving frames retry worthIt follow
      attached panics =>
    -- The verdict on the error may have been recorded, and what the hook was told is.
    have hpanics : ∀ tr₂ : Traffic α, tr₂.attached = tr.attached → Unheard tr tr₂ →
        ∃ tr₁, Unheard tr tr₁ ∧ tr₂.pause id c outside config number e =
          tr₁.become id { c with frames := outside } (.leaving (.panic message)) := by
      intro tr₂ hattached hunheard
      refine ⟨{ tr₂ with drawn := tr₂.drawn + 1 }.record id (.retrying number
        (config.delay number (tr₂.attached.draw tr₂.drawn)) e.message), ?_, ?_⟩
      · exact ⟨hunheard.calls, hunheard.layers, hunheard.transitions, hunheard.notices⟩
      · simp only [pause, hattached, attached, panics]
    obtain ⟨tr₁, hunheard, hstep⟩ : ∃ tr₁, Unheard tr tr₁ ∧ tr.step id =
        some (tr₁.become id { c with frames := outside } (.leaving (.panic message))) := by
      have hleave : tr.step id = some (tr.leaveFailedAttempt id c outside number e) := by
        simp only [step, hc, leaving, leaveNext, frames, Option.bind_eq_bind, Option.bind_some]
      cases hjudge : tr.attached.retryIf with
      | none =>
        obtain ⟨tr₁, hunheard, hpause⟩ := hpanics tr rfl (.refl tr)
        refine ⟨tr₁, hunheard, hleave.trans (congrArg some ?_)⟩
        rw [← hpause]
        simp [leaveFailedAttempt, retry, hjudge, follow]
      | some judge =>
        obtain ⟨tr₁, hunheard, hpause⟩ :=
          hpanics (tr.record id (.judgedRetry e.message true)) rfl (unheard_record ..)
        refine ⟨tr₁, hunheard, hleave.trans (congrArg some ?_)⟩
        rw [← hpause]
        simp [leaveFailedAttempt, retry, hjudge, follow, worthIt judge hjudge, Except.map]
    obtain rfl := Option.some.inj (hstep.symm.trans hm)
    exact exists_unwinds_become hc hunheard [.attempt number inner] frames message _

/-- What happens to a call that is broken. -/
theorem exists_unwinds_of_broken (hc : tr.calls[id]? = some c) (h : c.Broken)
    (hm : tr.move m = some tr') (hown : m = .step id ∨ m = .drop id) :
    ∃ c' lost, (Change.mk tr m tr').Unwinds id c c' lost ∧ c'.Broken := by
  obtain ⟨message, hleaving⟩ | ⟨hended, hnone⟩ := h
  · obtain rfl | rfl := hown
    · have hstep : tr.step id = some (tr.leaveNext id c (.panic message)) := by
        simp [step, hc, hleaving]
      obtain rfl := Option.some.inj (hstep.symm.trans hm)
      cases hframes : c.frames with
      | nil =>
        have hdone : tr.leaveNext id c (.panic message) =
            (tr.record id (.done (.panic message))).become id c .ended := by
          simp [leaveNext, hframes]
        have hended : Call.Broken { c with activity := .ended } := .inr ⟨rfl, hframes⟩
        rw [hdone, become]
        refine ⟨_, [], ?_, hended⟩
        apply unwinds_setCall hc (unheard_record ..)
        rfl
      | cons frame outside =>
        -- A panic leaves a layer as a call does that is dropped.
        have hleave : tr.leaveNext id c (.panic message) = (abandonFrame tr frame).become id
            { c with frames := outside } (.leaving (.panic message)) := by
          cases frame <;> simp [leaveNext, hframes, leaveBreaker, abandonFrame]
        rw [hleave]
        exact exists_unwinds_become hc (.refl tr) [frame] hframes message _
    · have hpending : tr.isPending id = true :=
        isPending_iff.mpr ⟨c, hc, by rw [hleaving]; rfl⟩
      obtain rfl : tr.abort id = tr' := Option.some.inj hm
      rw [abort, if_pos hpending]
      exact ⟨_, _, unwinds_abandon hc (by rw [hleaving]; rfl), .inr ⟨rfl, rfl⟩⟩
  · obtain rfl | rfl := hown
    · have hrests : tr.step id = none := by simp [step, hc, hended]
      rw [move, hrests] at hm
      cases hm
    · have hpending : ¬ tr.isPending id = true := fun hpending => by
        obtain ⟨c₀, hc₀, hgoing⟩ := isPending_iff.mp hpending
        obtain rfl := Option.some.inj (hc.symm.trans hc₀)
        rw [hended] at hgoing
        cases hgoing
      obtain rfl : tr.abort id = tr' := Option.some.inj hm
      rw [abort, if_neg hpending]
      refine ⟨c, [], ⟨hc, hc, rfl, ?_, ?_, rfl, rfl⟩, .inr ⟨hended, hnone⟩⟩
      · exact Option.map_id'.symm
      · exact Option.map_id'.symm

end Traffic

/-! ## Until a call has ended -/

/-- In the changes of a log a call gives its frames back, and other changes leave them alone. -/
inductive Unwinding (id : Nat) (c : Call α) : List (Change α) → Call α → Prop where
  | start : Unwinding id c [] c
  | own {log : List (Change α)} {ch : Change α} {c' c'' : Call α} {lost : List Frame}
      (h : Unwinding id c log c') (hown : ch.IsOf id) (unwinds : ch.Unwinds id c' c'' lost) :
      Unwinding id c (log ++ [ch]) c''
  | other {log : List (Change α)} {ch : Change α} {c' c'' : Call α} (h : Unwinding id c log c')
      (hother : ¬ ch.IsOf id) (frames : c''.frames = c'.frames) :
      Unwinding id c (log ++ [ch]) c''

/-- One change of a log is of one kind, and all others are of another. -/
def Once (P Q : Change α → Prop) (log : List (Change α)) : Prop :=
  ∃ before ch after, log = before ++ ch :: after ∧ P ch ∧ ∀ ch' ∈ before ++ after, Q ch'

/-- In a change of a call with these frames, the call gives back so many of a kind. -/
def Change.GivesBack (ch : Change α) (id : Nat) (frames : List Frame) (q : Frame → Bool)
    (n : Nat) : Prop :=
  ∃ c c' lost, ch.Unwinds id c c' lost ∧ c.frames <:+ frames ∧ lost.countP q = n

section Unwinding

variable {log : List (Change α)} {ch : Change α} {P P' Q Q' : Change α → Prop} {q : Frame → Bool}

theorem Once.imp (h : Once P Q log) (hP : ∀ ch ∈ log, P ch → P' ch)
    (hQ : ∀ ch ∈ log, Q ch → Q' ch) : Once P' Q' log := by
  obtain ⟨before, ch, after, rfl, hch, hothers⟩ := h
  refine ⟨before, ch, after, rfl, hP ch (by simp) hch, fun ch' hch' => hQ ch' ?_ (hothers ch' hch')⟩
  obtain hch' | hch' := List.mem_append.mp hch'
  · exact List.mem_append_left _ hch'
  · exact List.mem_append_right _ (.tail _ hch')

theorem Once.snoc (h : Once P Q log) (hch : Q ch) : Once P Q (log ++ [ch]) := by
  obtain ⟨before, ch₀, after, rfl, hP, hothers⟩ := h
  refine ⟨before, ch₀, after ++ [ch], by simp, hP, fun ch' hch' => ?_⟩
  rw [← List.append_assoc] at hch'
  obtain hold | hnew := List.mem_append.mp hch'
  · exact hothers ch' hold
  · rwa [List.mem_singleton.mp hnew]

theorem once_last (h : ∀ ch' ∈ log, Q ch') (hch : P ch) : Once P Q (log ++ [ch]) :=
  ⟨log, ch, [], rfl, hch, by simpa using h⟩

theorem Unwinding.suffix (h : Unwinding id c log c') : c'.frames <:+ c.frames := by
  induction h with
  | start => exact List.suffix_refl _
  | own _ _ unwinds ih => exact (unwinds.frames ▸ List.suffix_append ..).trans ih
  | other _ _ frames ih => rwa [frames]

/-- Every change of the call gives frames back, perhaps none. -/
theorem Unwinding.givesBack (h : Unwinding id c log c') (hch : ch ∈ log) (hown : ch.IsOf id) :
    ∃ n, ch.GivesBack id c.frames q n := by
  induction h with
  | start => cases hch
  | own h _ unwinds ih =>
    obtain hch | hch := List.mem_append.mp hch
    · exact ih hch
    · obtain rfl := List.mem_singleton.mp hch
      exact ⟨_, _, _, _, unwinds, h.suffix, rfl⟩
  | other _ hother _ ih =>
    obtain hch | hch := List.mem_append.mp hch
    · exact ih hch
    · obtain rfl := List.mem_singleton.mp hch
      exact absurd hown hother

/-- What a call still has, it has not given back. -/
theorem Unwinding.keeps (h : Unwinding id c log c')
    (hkeeps : c'.frames.countP q = c.frames.countP q) (hch : ch ∈ log) (hown : ch.IsOf id) :
    ch.GivesBack id c.frames q 0 := by
  induction h with
  | start => cases hch
  | @own log ch₀ c' c'' lost h _ unwinds ih =>
    have hle : c'.frames.countP q ≤ c.frames.countP q := h.suffix.sublist.countP_le
    have hcount : c'.frames.countP q = lost.countP q + c''.frames.countP q := by
      rw [unwinds.frames, List.countP_append]
    obtain hch | hch := List.mem_append.mp hch
    · exact ih (by omega) hch
    · obtain rfl := List.mem_singleton.mp hch
      exact ⟨_, _, lost, unwinds, h.suffix, by omega⟩
  | other _ hother frames ih =>
    obtain hch | hch := List.mem_append.mp hch
    · exact ih (frames ▸ hkeeps) hch
    · obtain rfl := List.mem_singleton.mp hch
      exact absurd hown hother

/-- What a call has one of, and has no more in the end, it has given back once. -/
theorem Unwinding.once (h : Unwinding id c log c') (hone : c.frames.countP q = 1)
    (hnone : c'.frames.countP q = 0) :
    Once (fun ch => ch.IsOf id ∧ ch.GivesBack id c.frames q 1)
      (fun ch => ch.IsOf id → ch.GivesBack id c.frames q 0) log := by
  induction h with
  | start => omega
  | @own log ch c' c'' lost h hown unwinds ih =>
    have hcount : c'.frames.countP q = lost.countP q + c''.frames.countP q := by
      rw [unwinds.frames, List.countP_append]
    have hle : c'.frames.countP q ≤ c.frames.countP q := h.suffix.sublist.countP_le
    by_cases hgone : c'.frames.countP q = 0
    · exact (ih hgone).snoc fun _ => ⟨_, _, lost, unwinds, h.suffix, by omega⟩
    · -- It was there before this change, and is given back in it.
      refine once_last (fun ch' hch' hown => h.keeps (by omega) hch' hown) ⟨hown, ?_⟩
      exact ⟨_, _, lost, unwinds, h.suffix, by omega⟩
  | other h hother frames ih =>
    exact (ih (frames ▸ hnone)).snoc fun hown => absurd hown hother

end Unwinding

namespace Traffic

variable {tr₀ : Traffic α} {log log' : List (Change α)}

/-- A call that is broken gives its frames back until it has ended, whatever else happens. -/
theorem Course.unwinding (h : Unwinding id c log c') (hc : tr.calls[id]? = some c')
    (hbroken : c'.Broken) (hrest : Course tr log' tr') :
    ∃ c'', tr'.calls[id]? = some c'' ∧ c''.Broken ∧ Unwinding id c (log ++ log') c'' := by
  induction hrest with
  | start => exact ⟨c', hc, hbroken, by rwa [List.append_nil]⟩
  | @move rest tr₁ tr₂ m _ hm ih =>
    obtain ⟨c₁, hc₁, hbroken₁, h₁⟩ := ih
    rw [← List.append_assoc]
    by_cases hown : m = .step id ∨ m = .drop id
    · obtain ⟨c₂, lost, hunwinds, hbroken₂⟩ := exists_unwinds_of_broken hc₁ hbroken₁ hm hown
      exact ⟨c₂, hunwinds.after, hbroken₂, h₁.own hown hunwinds⟩
    · -- Another call's change may at most tell the call to let go.
      obtain ⟨c₂, hc₂, hfares⟩ := (effect_of_move hm).exists_fares hc₁
      have hother : ¬ (Change.mk tr₁ m tr₂).IsOf id := hown
      cases hfares with
      | stepped hstep => exact absurd (.inl hstep) hown
      | dropped hdrop => exact absurd (.inr hdrop) hown
      | told => exact ⟨_, hc₂, hbroken₁, h₁.other hother rfl⟩
      | kept => exact ⟨_, hc₂, hbroken₁, h₁.other hother rfl⟩

/-- Whatever is on record followed a course. -/
theorem Course.exists_before (h : Course tr₀ log tr) {ch : Change α} (hch : ch ∈ log) :
    ∃ earlier, Course tr₀ earlier ch.before := by
  induction h with
  | start => cases hch
  | move h _ ih =>
    obtain hch | hch := List.mem_append.mp hch
    · exact ih hch
    · obtain rfl := List.mem_singleton.mp hch
      exact ⟨_, h⟩

end Traffic

end Safeguard
