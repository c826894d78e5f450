import Safeguard.Proofs.Executor.CuttingShort
import Safeguard.Proofs.Traffic.Deadlines

/-!
# Races of an executor

An executor with a timeout runs the operation of a call as a task of its own, with a token of
its own, once in each attempt. A task may outlive its race: the call goes on to its next attempt
while the last one is still running. So that attempts do not get into each other's way, a call
cancels the token of the attempt whenever it leaves the race, and no other token that is not
below it, and the next attempt gets a new one.

## Main definitions

* `Change.TimesOut`: an attempt yields that its deadline has elapsed.
* `Change.Invokes`: a call invokes its operation.

## Main results

* `Executor.invokes_starts`: every invocation is the start of a race.
* `Executor.race_hygiene`: when attempts time out, what happens to tokens at the end of a race,
  and what token an operation gets.
-/

namespace Safeguard

open Resilience (Layers)

variable {α : Type} {tr tr' : Traffic α} {id : Nat} {c c' : Call α} {log : List (Change α)}
  {ch : Change α}

/-- In a change, an attempt of a call yields that its deadline has elapsed. -/
def Change.TimesOut (ch : Change α) (id : Nat) : Prop :=
  ∃ c c', ch.before.calls[id]? = some c ∧ ch.after.calls[id]? = some c' ∧
    c.activity ≠ .leaving (.error (.layer .timedOut)) ∧
    c'.activity = .leaving (.error (.layer .timedOut))

/-- In a change, a call invokes its operation. -/
def Change.Invokes (ch : Change α) (id : Nat) : Prop :=
  ∃ c c', ch.before.calls[id]? = some c ∧ ch.after.calls[id]? = some c' ∧
    c.invocations < c'.invocations

/-- A timer of whole milliseconds does not go off too early. -/
theorem Duration.nanos_le_millisUp (d : Duration) : d.nanos ≤ d.millisUp * nanosPerMilli := by
  unfold millisUp nanosPerMilli
  omega

theorem Traffic.add_nanos_le {timeout : Duration} (h : tr.dueIn timeout ≤ tr'.clock) :
    tr.now + timeout.nanos ≤ tr'.now := by
  calc tr.now + timeout.nanos
      ≤ tr.clock * nanosPerMilli + timeout.millisUp * nanosPerMilli :=
        Nat.add_le_add_left timeout.nanos_le_millisUp _
    _ = tr.dueIn timeout * nanosPerMilli := (Nat.add_mul ..).symm
    _ ≤ tr'.now := Nat.mul_le_mul_right _ h

namespace Executor

open Traffic (Course Follows)

variable {layers : Layers} {attached : Attachments} {token : TokenId}
  {script : List (Operation α)} {timeout : Duration} {run : Nat} {deadline : TokenId}

/-! ## When attempts time out -/

/-- A call leaves with an elapsed deadline if it was in a race, or did so before. -/
theorem late_of_leaves {outcome : Outcome α} (h : Leaves tr id c outcome)
    (houtcome : outcome = .error (.layer .timedOut)) :
    c.activity = .leaving outcome ∨ ∃ run deadline due, c.activity = .racing run deadline due ∧
      (tr.runOutcome run = some outcome ∨
        tr.givenUp c = false ∧ tr.runOutcome run = none ∧ due ≤ tr.clock) := by
  cases h with
  | @rejected st inner ahead outer =>
    have hrefusal : st.owner.refusal = .timedOut := CallError.layer.inj (Outcome.error.inj houtcome)
    obtain howner | howner | howner := outer <;> rw [howner] at hrefusal <;> cases hrefusal
  | exhausted => cases houtcome
  | cancelled => cases houtcome
  | late racing going running elapsed =>
    exact .inr ⟨_, _, _, racing, .inr ⟨going, running, elapsed⟩⟩
  | operated operating poll =>
    subst houtcome
    exact absurd (Operation.yields_of_poll poll) (Operation.not_yields_layer _ _)
  | won racing ended => exact .inr ⟨_, _, _, racing, .inl ended⟩
  | carried leaving => exact .inl leaving
  | panicked => cases houtcome
  | idle => cases houtcome
  | astray => cases houtcome

/-- An attempt times out when the call finds that its deadline has come, that its task has not
ended, and that its caller has not given it up. -/
theorem late_of_timesOut (hcourse : Course (.start layers attached) log ch.before)
    (hm : ch.before.move ch.move = some ch.after)
    (horigin : (origins log)[id]? = some ⟨token, route layers, .operation script⟩)
    (h : ch.TimesOut id) :
    ∃ c run deadline due, ch.before.calls[id]? = some c ∧
      c.activity = .racing run deadline due ∧ ch.before.givenUp c = false ∧
      ch.before.runOutcome run = none ∧ due ≤ ch.before.clock := by
  obtain ⟨c, c', hc, hc', hbefore, hnow⟩ := h
  have hwork := (hcourse.call_of_origin (Traffic.follows_origin _) hc horigin).2 script rfl
  cases (Traffic.effect_of_move hm).fares hc hc' with
  | stepped _ hstep =>
    obtain hleaving | ⟨run, deadline, due, hracing, hended | hlate⟩ :=
      late_of_leaves (leaves_of_rule hstep.rule hnow) rfl
    · exact absurd hleaving hbefore
    -- No operation ends in an error of a layer.
    · have hlast := lastInvocation_of_racing hcourse hc hwork hracing hended
      exact absurd hlast.yields (Operation.not_yields_layer _ _)
    · exact ⟨c, run, deadline, due, hc, hracing, hlate⟩
  | dropped => cases hnow
  | told => exact absurd hnow hbefore
  | kept => exact absurd hnow hbefore

/-! ## Invocations

The timeout layer is the innermost one. A call with an operation never gets past it, so wherever
the operation is invoked, a race starts. -/

theorem exists_present_concat (hhas : layers.has .timeout = true) :
    ∃ front, layers.present = front ++ [.timeout] := by
  refine ⟨[.rateLimiter, .bulkhead, .circuitBreaker, .retry].filter layers.has, ?_⟩
  have hinnermost : [.timeout].filter layers.has = [.timeout] := List.filter_cons_of_pos hhas
  rw [← hinnermost, ← List.filter_append]
  rfl

theorem owner_of_suffix (hhas : layers.has .timeout = true) {l : Layer}
    (h : [l] <:+ layers.present) : l = .timeout := by
  obtain ⟨front, hpresent⟩ := exists_present_concat hhas
  obtain ⟨front', hsuffix⟩ := h
  have hlast := congrArg List.getLast? (hsuffix.trans hpresent)
  rw [List.getLast?_concat, List.getLast?_concat] at hlast
  exact Option.some.inj hlast

/-- A call with an operation does not get past a timeout that there is. -/
theorem follows_outside (hhas : layers.has .timeout = true) :
    Follows (.start layers attached) fun (o : Origin α) _ _ _ c =>
      ∀ script, o.stages = route layers → o.work = .operation script →
        c.activity ≠ .entering [] where
  begun := by
    intro log tr token stages work tr' _ script hstages _ hentering
    obtain ⟨front, hpresent⟩ := exists_present_concat hhas
    have hnone := (hstages.symm.trans (Activity.entering.inj hentering))
    rw [route, hpresent] at hnone
    simp at hnone
  stepped := by
    intro o log tr tr' id c c' hcourse ho hc hstep _ script hstages hscript hnow
    have howners : o.stages.map Stage.owner = layers.present := by
      rw [hstages, owners_route]
    have hrouted := (hcourse.call_of_origin (Traffic.follows_route _) hc ho
      (howners ▸ ordered_present layers)).1
    rw [howners] at hrouted
    obtain ⟨st, hahead⟩ | ⟨-, number, hmem⟩ := ahead_or_pausing_of_entering hstep.rule hnow
    -- The stage that it has just passed would be the last one, which is the timeout layer.
    · have hsuffix := hrouted.ahead
      rw [hahead] at hsuffix
      have hpresent : tr.layers.has .timeout = true := by
        rw [hcourse.keeps fun heffect => heffect.has_eq .timeout]
        exact hhas
      have hwork := (hcourse.call_of_origin (Traffic.follows_origin _) hc ho).2 script hscript
      exact not_entering_of_timeout hstep.rule hahead (owner_of_suffix hhas hsuffix) hpresent
        hwork [] hnow
    -- An attempt in which nothing is left to enter would have the retry layer as the last one.
    · cases owner_of_suffix hhas (hrouted.attempts number [] hmem)
  dropped _ _ _ _ _ _ _ := nofun
  told _ _ _ ih := ih
  other _ _ _ _ _ _ ih := ih

/-- A call that invokes its operation is about to race, or inside all its layers. -/
theorem mayRace_of_invocations {runs : List (Run α)} (h : Rule tr id c layers runs c')
    (hmore : c.invocations < c'.invocations) :
    c.activity = .entering [] ∨ ∃ timeout script, tr.MayRace c timeout script := by
  cases h with
  | limiter _ rule => cases rule <;> exact absurd hmore (Nat.lt_irrefl _)
  | bulkhead _ rule => cases rule <;> exact absurd hmore (Nat.lt_irrefl _)
  | breaker _ rule => cases rule <;> exact absurd hmore (Nat.lt_irrefl _)
  | inner rule =>
    cases rule with
    | raced entering limit work => exact .inr ⟨_, _, ⟨_, entering⟩, limit, work⟩
    | invoked entering => exact .inl entering
    | _ => exact absurd hmore (Nat.lt_irrefl _)

/-- Every invocation is the start of a race, with a token that was not there before. -/
theorem invokes_starts (hhas : layers.has .timeout = true)
    (hcourse : Course (.start layers attached) log ch.before)
    (hm : ch.before.move ch.move = some ch.after)
    (horigin : (origins log)[id]? = some ⟨token, route layers, .operation script⟩)
    (h : ch.Invokes id) :
    ∃ run deadline, ch.StartsRace id run deadline ∧
      (∃ r, ch.after.runs[run]? = some r ∧ r.deadline = deadline) ∧
      ¬ ch.before.tokens.Has deadline ∧
      ch.after.tokens.isCancelled deadline = ch.before.tokens.isCancelled token := by
  obtain ⟨c, c', hc, hc', hmore⟩ := h
  cases (Traffic.effect_of_move hm).fares hc hc' with
  | stepped hmove hstep =>
    have houtside := hcourse.call_of_origin (follows_outside hhas) hc horigin script rfl rfl
    have htoken : c.token = token :=
      (hcourse.call_of_origin (Traffic.follows_origin _) hc horigin).1
    obtain hinside | ⟨timeout, script, hmay⟩ := mayRace_of_invocations hstep.rule hmore
    · exact absurd hinside houtside
    · rw [hmove] at hm
      have hstart := Option.some.inj (hm.symm.trans (Traffic.step_of_mayRace hc hmay))
      obtain ⟨ready, heq⟩ := ch.before.exists_startRace id c script timeout
      refine ⟨ch.before.runs.length, ch.before.tokens.tokens.length, ⟨hmay.not_races hc, ?_⟩,
        ?_, Nat.lt_irrefl _, ?_⟩
      · rw [hstart]
        exact ⟨_, _, Traffic.call_startRace hc script timeout, rfl⟩
      · rw [hstart, heq]
        exact ⟨_, List.getElem?_concat_length, rfl⟩
      · rw [hstart, heq, ← htoken]
        exact ch.before.tokens.isCancelled_child c.token 2
  | dropped => exact absurd hmore (Nat.lt_irrefl _)
  | told => exact absurd hmore (Nat.lt_irrefl _)
  | kept => exact absurd hmore (Nat.lt_irrefl _)

/-! ## Attempts and their tokens -/

/-- **Attempts do not get into each other's way.** In every course in which callers hold the
tokens that they start calls with, in every change, for every call of an executor that has a
timeout, with any operation:

* an attempt yields that its deadline has elapsed only if the race started at least as long ago
  as the timeout says, the task of the attempt has not ended, and the caller's token is not
  cancelled;
* where the call leaves a race, in any way, the token of the race is cancelled, and the caller's
  is not; nor is that of any other race, unless it is one of another call whose caller has a token
  below the one of this race, which is then cancelled as well;
* where the call invokes its operation, a race starts: the run gets a token that was not there
  before, and which is cancelled only if the caller's is. -/
theorem race_hygiene (hlimit : layers.timeout = some timeout)
    (hcourse : Course (.start layers attached) log ch.before)
    (hm : ch.before.move ch.move = some ch.after) (hholds : ∀ ch ∈ log, ch.callerHolds)
    (horigin : (origins log)[id]? = some ⟨token, route layers, .operation script⟩) :
    (ch.TimesOut id → ∃ run deadline, ch.LeavesRace id run deadline ∧
      ch.before.runOutcome run = none ∧ ch.before.tokens.isCancelled token = false ∧
      ∃ ch₀ ∈ log, ch₀.StartsRace id run deadline ∧
        ch₀.after.now + timeout.nanos ≤ ch.before.now) ∧
    (∀ run deadline, ch.LeavesRace id run deadline →
      ch.after.tokens.isCancelled deadline = true ∧ ¬ ch.Cancels token ∧
      ∀ ch₀ ∈ log, ∀ id' run' deadline', ch₀.StartsRace id' run' deadline' → run' ≠ run →
        ch.Cancels deadline' →
          id' ≠ id ∧ ∃ c', ch.before.calls[id']? = some c' ∧ ch.Cancels c'.token) ∧
    (ch.Invokes id → ∃ run deadline, ch.StartsRace id run deadline ∧
      (∃ r, ch.after.runs[run]? = some r ∧ r.deadline = deadline) ∧
      ¬ ch.before.tokens.Has deadline ∧
      ch.after.tokens.isCancelled deadline = ch.before.tokens.isCancelled token) := by
  have hhas : layers.has .timeout = true := by rw [Layers.has, hlimit]; rfl
  have htoken : ∀ {c}, ch.before.calls[id]? = some c → c.token = token := fun hc =>
    (hcourse.call_of_origin (Traffic.follows_origin _) hc horigin).1
  refine ⟨fun htimesOut => ?_, fun run deadline hleaves => ?_,
    invokes_starts hhas hcourse hm horigin⟩
  -- What the call found when it timed out, it found in the race that it left then.
  · obtain ⟨c, run, deadline, due, hc, hracing, hgoing, hrunning, helapsed⟩ :=
      late_of_timesOut hcourse hm horigin htimesOut
    obtain ⟨ch₀, hch₀, hstarts, timeout', hlimit', rfl⟩ := hcourse.call_of_origin
      (Traffic.follows_race layers attached) hc horigin run deadline due hracing
    obtain rfl := Option.some.inj (hlimit.symm.trans hlimit')
    refine ⟨run, deadline, ⟨⟨c, _, hc, hracing⟩, ?_⟩, hrunning, ?_, ch₀, hch₀, hstarts,
      Traffic.add_nanos_le helapsed⟩
    · rintro ⟨c₁, due, hc₁, hracing₁⟩
      obtain ⟨-, c', -, hc', -, hnow⟩ := htimesOut
      obtain rfl := Option.some.inj (hc₁.symm.trans hc')
      rw [hnow] at hracing₁
      cases hracing₁
    · rw [← htoken hc]
      exact hgoing
  · obtain ⟨c, due, hc, -⟩ := hleaves.before
    have hcaller : ¬ ch.Cancels token := by
      rw [← htoken hc]
      exact hcourse.not_cancels_caller hholds hm hleaves hc
    refine ⟨hcourse.isCancelled_of_leavesRace hholds hm hleaves, hcaller,
      fun ch₀ hch₀ id' run' deadline' hstarts hne hcancels => ?_⟩
    obtain ⟨c', hc', hcancels'⟩ :=
      hcourse.cancels_caller_of_cancels hholds hm hleaves hch₀ hstarts hne hcancels
    refine ⟨fun hid => hcaller ?_, c', hc', hcancels'⟩
    subst hid
    rwa [htoken hc'] at hcancels'

/-- Two attempts without a pause between them, of five milliseconds each. -/
def persistent : Layers :=
  ⟨none, none, none, some ⟨2, .zero, .zero, 1, .constant, false⟩, some (.ofMillis 5)⟩

/-- An operation that never ends. -/
def endless : Operation Nat := ⟨none, .value none, false⟩

/-- A call races that operation, and its deadline comes. -/
def enduring : List (Move Nat) :=
  [.mint none, .begin 0 (route persistent) (.operation [endless]), .step 0, .step 0, .look 0,
    .elapse 5]

/-- A step in which a call finds that its deadline has come. -/
theorem exists_step_of_late (hc : tr.calls[id]? = some c) {due : Nat}
    (hracing : c.activity = .racing run deadline due) (hgoing : tr.givenUp c = false)
    (hrunning : tr.runOutcome run = none) (hdue : due ≤ tr.clock) :
    ∃ ready trace, tr.step id = some { tr with
      tokens := tr.tokens.retire deadline
      calls := tr.calls.set id { c with activity := .leaving (.error (.layer .timedOut)) }
      ready := ready
      trace := trace } := by
  let noted := tr.note (.deadlineElapsed (tr.layers.timeout.getD .zero))
  obtain ⟨ready, hend⟩ := noted.exists_endRace deadline
  refine ⟨ready, noted.trace, ?_⟩
  have hstep : tr.step id = some ((noted.endRace deadline).refuse id c .timedOut) := by
    simp [Traffic.step, hc, hracing, Traffic.resumeRace, hgoing, hrunning, Nat.not_lt.mpr hdue,
      noted]
  rw [hstep, hend]
  rfl

/-- Calls that start with tokens that their callers hold, the first of them with that operation. -/
structure Enduring (log : List (Change Nat)) (tr : Traffic Nat) : Prop where
  course : Course (.start persistent .none) log tr
  holds : ∀ ch ∈ log, ch.callerHolds
  origin : (origins log)[0]? = some ⟨0, route persistent, .operation [endless]⟩

/-- The deadline of the first attempt comes, and its task has not ended. Once the call is about to
make its next attempt, the token of the first one is cancelled. -/
theorem exists_enduring : ∃ (log log' : List (Change Nat)) (tr tr₁ tr' : Traffic Nat)
    (c c₁ c' : Call Nat), Enduring log tr ∧ tr.move (.step 0) = some tr₁ ∧
    tr.calls[0]? = some c ∧ c.activity = .racing 0 1 5 ∧
    tr₁.calls[0]? = some c₁ ∧ c₁.activity = .leaving (.error (.layer .timedOut)) ∧
    Enduring log' tr' ∧ tr'.calls[0]? = some c' ∧ tr'.MayRace c' (.ofMillis 5) [endless] ∧
    tr'.tokens.isCancelled 1 = true := by
  have hplay : ((Traffic.start persistent .none).play enduring).isSome = true := rfl
  have hdue := Traffic.course_played hplay
  have hc : (((Traffic.start persistent .none).play enduring).get hplay).2.calls[0]? = some
      ⟨0, .operation [endless], 1, [.attempt 1 [.layer .timeout]], .racing 0 1 5, 0⟩ := rfl
  obtain ⟨ready, trace, hstep⟩ := exists_step_of_late hc rfl rfl rfl (Nat.le_refl 5)
  have hpause := (hdue.move (m := .step 0) hstep).move (m := .step 0) rfl
  have hagain := hpause.move (m := .step 0)
    (step_of_pausing rfl rfl rfl rfl (Nat.le_of_eq (dueIn_delay _ rfl rfl _ _)))
  exact ⟨_, _, _, _, _, _, _, _, ⟨hdue, List.all_eq_true.mp rfl, rfl⟩, hstep, hc, rfl, rfl, rfl,
    ⟨hagain, List.all_eq_true.mp rfl, rfl⟩, rfl, ⟨⟨_, rfl⟩, rfl, rfl⟩, rfl⟩

/-- An attempt times out, and its task goes on. The token of the attempt is cancelled and the
caller's is not. The next attempt gets one that is cancelled only if the caller's is. -/
theorem race_hygiene_of_endless :
    (∃ (log : List (Change Nat)) (ch : Change Nat), Enduring log ch.before ∧
      ch.before.move ch.move = some ch.after ∧ ch.TimesOut 0 ∧
      ∃ run deadline, ch.LeavesRace 0 run deadline ∧ ch.before.runOutcome run = none ∧
        ch.before.tokens.isCancelled 0 = false ∧
        (∃ ch₀ ∈ log, ch₀.StartsRace 0 run deadline ∧
          ch₀.after.now + (Duration.ofMillis 5).nanos ≤ ch.before.now) ∧
        ch.after.tokens.isCancelled deadline = true ∧ ¬ ch.Cancels 0) ∧
    ∃ (log : List (Change Nat)) (ch : Change Nat), Enduring log ch.before ∧
      ch.before.move ch.move = some ch.after ∧ ch.before.tokens.isCancelled 1 = true ∧
      ch.Invokes 0 ∧ ∃ run deadline, ch.StartsRace 0 run deadline ∧
        ¬ ch.before.tokens.Has deadline ∧
        ch.after.tokens.isCancelled deadline = ch.before.tokens.isCancelled 0 := by
  obtain ⟨log, log', tr, tr₁, tr', c, c₁, c', hrace, hlate, hc, hracing, hc₁, hnow, hnext, hc',
    hmay, hretired⟩ := exists_enduring
  constructor
  · obtain ⟨htimesOut, hleaves, -⟩ := @race_hygiene Nat 0 log ⟨tr, .step 0, tr₁⟩ _ _ _ _ _ rfl
      hrace.course hlate hrace.holds hrace.origin
    have hout : Change.TimesOut ⟨tr, .step 0, tr₁⟩ 0 :=
      ⟨c, c₁, hc, hc₁, by rw [hracing]; exact nofun, hnow⟩
    obtain ⟨run, deadline, hleft, hrunning, hgoing, hsince⟩ := htimesOut hout
    obtain ⟨hcancelled, hkept, -⟩ := hleaves run deadline hleft
    exact ⟨log, ⟨tr, .step 0, tr₁⟩, hrace, hlate, hout, run, deadline, hleft, hrunning, hgoing,
      hsince, hcancelled, hkept⟩
  · have hm : tr'.move (.step 0) = some (tr'.startRace 0 c' [endless] (.ofMillis 5)) :=
      Traffic.step_of_mayRace hc' hmay
    obtain ⟨-, -, hinvokes⟩ := @race_hygiene Nat 0 log' ⟨tr', .step 0, _⟩ _ _ _ _ _ rfl
      hnext.course hm hnext.holds hnext.origin
    have hinvoked : Change.Invokes ⟨tr', .step 0, tr'.startRace 0 c' [endless] (.ofMillis 5)⟩ 0 :=
      ⟨c', _, hc', Traffic.call_startRace hc' _ _, Nat.lt_succ_self _⟩
    obtain ⟨run, deadline, hstarts, -, hfresh, hflag⟩ := hinvokes hinvoked
    exact ⟨log', _, hnext, hm, hretired, hinvoked, run, deadline, hstarts, hfresh, hflag⟩

end Executor

end Safeguard
