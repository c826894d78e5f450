import Safeguard.Proofs.Executor.Provenance
import Safeguard.Proofs.Traffic.GivingUp

/-!
# Calls that are cut short

When a caller cancels its token while a call of an executor sleeps in one of the layers, the
call ends with the cancellation, whatever else becomes ready at the same moment, and it does not
invoke its operation again. The retry layer looks at the token after every pause, so no call
invokes its operation again once its token is cancelled.

## Main definitions

* `Executor.CutShort`: what becomes of a call that is given up while it sleeps.
* `Executor.Repeats`: a call invokes its operation once more.

## Main results

* `Executor.cut_short_of_cancelled`: a call that is given up while it sleeps is cut short, and
  calls that take whole turns invoke their operations again only while their tokens are not
  cancelled.
-/

namespace Safeguard

open Resilience (Layers)

variable {α : Type} {tr tr' : Traffic α} {id : Nat} {c c' : Call α} {log log' : List (Change α)}

namespace Executor

open Traffic (Course Stepped Undivided Rounds)

variable {layers : Layers} {attached : Attachments} {token : TokenId}
  {script : List (Operation α)}

/-! ## The end of calls that were given up -/

/-- In a change on record the call returned the cancellation, or panicked. -/
def EndedShort (log : List (Change α)) (id : Nat) : Prop :=
  ∃ ch ∈ log, ch.move = .step id ∧ ∃ c outcome, Returns ch.before id c outcome ∧ outcome.CutShort

theorem EndedShort.snoc (h : EndedShort log id) (ch : Change α) : EndedShort (log ++ [ch]) id := by
  obtain ⟨ch', hch', hreturns⟩ := h
  exact ⟨ch', List.mem_append_left _ hch', hreturns⟩

/-- A call that was given up returns the cancellation, or panics. -/
theorem cutShort_of_returns {outcome : Outcome α} (hgivenUp : c.GivenUp tr.tokens)
    (hreturns : Returns tr id c outcome) : outcome.CutShort := by
  have hleaving := hreturns.leaving
  obtain hsuspended | ⟨outcome', hnow, hcut⟩ | hnow := hgivenUp.outwards
  · rw [hleaving] at hsuspended
    cases hsuspended
  · obtain rfl := Activity.leaving.inj (hnow.symm.trans hleaving)
    exact hcut
  · rw [hleaving] at hnow
    cases hnow

/-- A call that was given up goes on outwards, unless it is dropped, and invokes nothing. When it
has ended, it has returned the cancellation, or panicked. -/
theorem exists_givenUp (h : Course tr log' tr') (hdrop : ∀ ch ∈ log', ch.move ≠ .drop id)
    (hc : tr.calls[id]? = some c) (hgivenUp : c.GivenUp tr.tokens)
    (hgoing : c.activity ≠ .ended) :
    ∃ c', tr'.calls[id]? = some c' ∧ c'.GivenUp tr'.tokens ∧ c'.invocations = c.invocations ∧
      (c'.activity = .ended → EndedShort log' id) := by
  induction h with
  | start => exact ⟨c, hc, hgivenUp, rfl, fun h => absurd h hgoing⟩
  | @move log' tr₁ tr₂ m _ hm ih =>
    obtain ⟨c₁, hc₁, hgivenUp₁, hinvocations, hended⟩ :=
      ih fun ch hch => hdrop ch (List.mem_append_left _ hch)
    have heffect := Traffic.effect_of_move hm
    have hgivenUp₂ := hgivenUp₁.mono heffect.tokens_grow
    obtain ⟨c₂, hc₂, hfares⟩ := heffect.exists_fares hc₁
    refine ⟨c₂, hc₂, ?_⟩
    cases hfares with
    | stepped hstep hstepped =>
      subst hstep
      obtain ⟨c₃, hcalls, hgivenUp₃, hsame⟩ := hgivenUp₁.step hc₁ hm
      rw [hcalls, List.getElem?_set_self (List.getElem?_eq_some_iff.mp hc₁).1] at hc₂
      obtain rfl := Option.some.inj hc₂
      refine ⟨hgivenUp₃, hsame.trans hinvocations, fun hnow => ?_⟩
      obtain ⟨outcome, hreturns⟩ := exists_returns hstepped.rule hc₁ hnow
      exact ⟨_, List.mem_append_right _ (.head _), rfl, c₁, outcome, hreturns,
        cutShort_of_returns hgivenUp₁ hreturns⟩
    | dropped hdropped => exact absurd hdropped (hdrop _ (List.mem_append_right _ (.head _)))
    | told =>
      exact ⟨⟨hgivenUp₂.cancelled, hgivenUp₂.outwards, hgivenUp₂.pausing⟩, hinvocations,
        fun hnow => (hended hnow).snoc _⟩
    | kept => exact ⟨hgivenUp₂, hinvocations, fun hnow => (hended hnow).snoc _⟩

/-! ## Repeated invocations

A call that has invoked its operation has come past all layers but a deadline, so the way from a
pause to the next invocation is short: the call looks at its token, enters the attempt, and
starts the race or does its work. -/

/-- In this change a call invokes its operation once more. -/
structure Repeats (ch : Change α) (id : Nat) (c : Call α) : Prop where
  before : ch.before.calls[id]? = some c
  again : 0 < c.invocations
  invokes : ∃ c', ch.after.calls[id]? = some c' ∧ c.invocations < c'.invocations

/-- Only a call that was entering invokes its operation, and then it does not enter any more. -/
theorem invocations_cases {runs : List (Run α)} (h : Rule tr id c layers runs c') :
    c'.invocations = c.invocations ∨
      (∃ stages, c.activity = .entering stages) ∧ ∀ stages, c'.activity ≠ .entering stages := by
  cases h with
  | limiter _ rule => cases rule <;> exact .inl rfl
  | bulkhead _ rule => cases rule <;> exact .inl rfl
  | breaker _ rule => cases rule <;> exact .inl rfl
  | inner rule =>
    cases rule with
    | raced entering => exact .inr ⟨⟨_, entering⟩, nofun⟩
    | invoked entering => exact .inr ⟨⟨_, entering⟩, nofun⟩
    | _ => exact .inl rfl

/-- A call that enters has passed a stage, or the pause before its next attempt is over. -/
theorem ahead_or_pausing_of_entering {runs : List (Run α)} (h : Rule tr id c layers runs c')
    {stages : List Stage} (hnow : c'.activity = .entering stages) :
    (∃ st, c.activity.ahead = st :: stages) ∨ (∃ due, c.activity = .pausing due) ∧
      ∃ number, .attempt number stages ∈ c.frames := by
  cases h with
  | limiter _ rule =>
    cases rule with
    | granted ahead =>
      obtain rfl := Activity.entering.inj hnow
      exact .inl ⟨_, ahead⟩
    | _ => cases hnow
  | bulkhead _ rule =>
    cases rule with
    | entered entering =>
      obtain rfl := Activity.entering.inj hnow
      exact .inl ⟨_, by rw [entering]; rfl⟩
    | resumed waiting =>
      obtain rfl := Activity.entering.inj hnow
      exact .inl ⟨.layer .bulkhead, by rw [waiting]; rfl⟩
    | _ => cases hnow
  | breaker _ rule =>
    cases rule with
    | admitted entering =>
      obtain rfl := Activity.entering.inj hnow
      exact .inl ⟨_, by rw [entering]; rfl⟩
    | _ => cases hnow
  | inner rule =>
    cases rule with
    | skipped ahead =>
      obtain rfl := Activity.entering.inj hnow
      exact .inl ⟨_, ahead⟩
    | attempted entering =>
      obtain rfl := Activity.entering.inj hnow
      exact .inl ⟨.layer .retry, by rw [entering]; rfl⟩
    | repeated pausing frames =>
      obtain rfl := Activity.entering.inj hnow
      exact .inr ⟨⟨_, pausing⟩, _, by rw [frames]; exact .head _⟩
    | _ => cases hnow

/-- A call with an operation does not pass a deadline that there is. -/
theorem not_entering_of_timeout {runs : List (Run α)} (h : Rule tr id c layers runs c')
    {st : Stage} {inner : List Stage} (hahead : c.activity.ahead = st :: inner)
    (hst : st.owner = .timeout) (hpresent : tr.layers.has .timeout = true)
    (hwork : c.work = .operation script) (stages : List Stage) :
    c'.activity ≠ .entering stages := by
  have hother : ∀ {st' inner'}, c.activity.ahead = st' :: inner' → st'.owner = .timeout := by
    intro st' inner' hahead'
    obtain ⟨rfl, -⟩ := List.cons_eq_cons.mp (hahead.symm.trans hahead')
    exact hst
  cases h with
  | limiter _ rule =>
    obtain ⟨st', inner', hahead', howner⟩ := rule.exists_ahead
    rw [hother hahead'] at howner
    cases howner
  | bulkhead _ rule =>
    obtain ⟨st', inner', hahead', howner⟩ | ⟨outcome, outside, hleaving, -⟩ :=
      rule.exists_ahead_or
    · rw [hother hahead'] at howner
      cases howner
    · rw [hleaving] at hahead
      cases hahead
  | breaker _ rule =>
    obtain ⟨st', inner', hahead', howner⟩ | ⟨outcome, p, outside, hleaving, -⟩ :=
      rule.exists_ahead_or
    · rw [hother hahead'] at howner
      cases howner
    · rw [hleaving] at hahead
      cases hahead
  | inner rule =>
    cases rule with
    | @skipped st' inner' hahead' hidle =>
      obtain habsent | ⟨-, hnone⟩ := hidle
      · rw [hother hahead', hpresent] at habsent
        cases habsent
      · exact absurd hwork (hnone script)
    | @attempted inner' config entering =>
      have hretry := hother (show c.activity.ahead = .layer .retry :: inner' by rw [entering]; rfl)
      cases hretry
    | repeated pausing =>
      rw [pausing] at hahead
      cases hahead
    | _ => exact nofun

/-- A call whose pause is over goes on only if its caller has not given it up. -/
theorem going_of_pausing (hc : tr.calls[id]? = some c) (hsteady : c.Steady) {due : Nat}
    (hpausing : c.activity = .pausing due) (hstep : tr.step id = some tr')
    (hc' : tr'.calls[id]? = some c') {stages : List Stage}
    (hentering : c'.activity = .entering stages) : tr'.givenUp c' = false := by
  obtain ⟨number, inner, outside, hframes⟩ := hsteady.pausing due hpausing
  have hlt := (List.getElem?_eq_some_iff.mp hc).1
  simp only [Traffic.step, hc, Option.bind_eq_bind, Option.bind_some, hpausing,
    Traffic.resumePause, hframes] at hstep
  split at hstep
  · obtain rfl := Option.some.inj hstep
    simp only [Traffic.refuse, Traffic.become, Traffic.setCall, List.getElem?_set_self hlt] at hc'
    obtain rfl := Option.some.inj hc'
    cases hentering
  · rename_i hgoing
    split at hstep
    · cases hstep
    · obtain rfl := Option.some.inj hstep
      simp only [Traffic.become, Traffic.setCall, List.getElem?_set_self hlt] at hc'
      obtain rfl := Option.some.inj hc'
      exact Bool.eq_false_iff.mpr hgoing

/-- A call that takes a step on its way to another invocation is not given up. -/
theorem going_of_step (hcourse : Course (.start layers attached) log tr)
    (ho : (origins log)[id]? = some ⟨token, route layers, .operation script⟩)
    (hc : tr.calls[id]? = some c) (hstepped : Stepped tr id c tr' c')
    (hstep : tr.step id = some tr') (hc' : tr'.calls[id]? = some c') {stages : List Stage}
    (hentering : c'.activity = .entering stages) (hpos : 0 < c'.invocations) :
    tr'.givenUp c' = false := by
  have hagain : 0 < c.invocations := by
    obtain hsame | ⟨-, hnot⟩ := invocations_cases hstepped.rule
    · rwa [← hsame]
    · exact absurd hentering (hnot stages)
  obtain ⟨st, hahead⟩ | ⟨⟨due, hpausing⟩, -⟩ :=
    ahead_or_pausing_of_entering hstepped.rule hentering
  -- Only a deadline can be ahead, and it is there and does not let the call pass.
  · have hordered := ordered_route layers
    have hmem : st.owner ∈ c.activity.ahead.map Stage.owner := by
      rw [hahead]
      exact .head _
    have huntouched := hcourse.call_of_origin (Traffic.follows_untouched layers attached) hc ho
      hordered st.owner hmem
    have htimeout : st.owner = .timeout :=
      by_contra fun hne => hagain.ne' (huntouched hne).uninvoked
    have hpresent : tr.layers.has .timeout = true := by
      rw [hcourse.keeps fun heffect => heffect.has_eq .timeout]
      have hrouted := hcourse.call_of_origin (Traffic.follows_route _) hc ho hordered
      have hroute := hrouted.1.ahead.subset hmem
      rw [htimeout, owners_route] at hroute
      exact (List.mem_filter.mp hroute).2
    have hwork := (hcourse.call_of_origin (Traffic.follows_origin _) hc ho).2 script rfl
    exact absurd hentering
      (not_entering_of_timeout hstepped.rule hahead htimeout hpresent hwork stages)
  · have hsteady := hcourse.call_of_origin (Traffic.follows_steady _) hc ho
    exact going_of_pausing hc hsteady hpausing hstep hc' hentering

/-- On the way to another invocation, and at the invocation, a call is not given up. -/
theorem going_of_repeats (hcourse : Course (.start layers attached) log tr)
    (horigin : ∀ o, (origins log)[id]? = some o → o = ⟨token, route layers, .operation script⟩)
    (hundivided : Undivided log id) :
    (∀ c stages, tr.calls[id]? = some c → c.activity = .entering stages → 0 < c.invocations →
      tr.givenUp c = false) ∧
    ∀ ch ∈ log, ∀ c, Repeats ch id c → ch.before.givenUp c = false := by
  induction hcourse with
  | start => exact ⟨nofun, fun _ hch => absurd hch List.not_mem_nil⟩
  | @move log tr tr' m hcourse hm ih =>
    have heffect := Traffic.effect_of_move hm
    obtain ⟨hway, hrepeats⟩ := ih
      (fun o ho => horigin o (Traffic.origins_getElem?_append _ ho))
      fun ch hch => hundivided ch (List.mem_append_left _ hch)
    constructor
    -- On the way.
    · intro c' stages hc' hentering hpos
      cases hbefore : tr.calls[id]? with
      | none => exact absurd (heffect.uninvoked_of_new hbefore hc') hpos.ne'
      | some c =>
        -- Nothing else cancels the token.
        have hkeeps : m ≠ .step id → c.activity = .entering stages → 0 < c.invocations →
            c'.token = c.token → tr'.givenUp c' = false := by
          intro hother hentering hpos htoken
          refine Bool.eq_false_iff.mpr fun hgaveUp => ?_
          rw [Traffic.givenUp, htoken] at hgaveUp
          have hgoing := hway c stages hbefore hentering hpos
          rw [hundivided _ (List.mem_append_right _ (.head _)) hother c stages hbefore hentering
            hpos hgaveUp] at hgoing
          cases hgoing
        cases heffect.fares hbefore hc' with
        | stepped hstep hstepped =>
          subst hstep
          obtain ⟨o, ho, -⟩ := hcourse.call (Traffic.follows_origin _) hbefore
          obtain rfl := horigin o (Traffic.origins_getElem?_append _ ho)
          exact going_of_step hcourse ho hbefore hstepped hm hc' hentering hpos
        | dropped => cases hentering
        | told hother => exact hkeeps hother hentering hpos rfl
        | kept hother => exact hkeeps hother hentering hpos rfl
    -- At the invocation.
    · intro ch hch c hrep
      obtain hch | hch := List.mem_append.mp hch
      · exact hrepeats ch hch c hrep
      · obtain rfl := List.mem_singleton.mp hch
        obtain ⟨hc, hagain, c', hc', hlt⟩ := hrep
        cases heffect.fares hc hc' with
        | stepped hstep hstepped =>
          obtain hsame | ⟨⟨stages, hentering⟩, -⟩ := invocations_cases hstepped.rule
          · exact absurd hsame hlt.ne'
          · exact hway c stages hc hentering hagain
        | _ => exact absurd rfl hlt.ne

/-! ## Calls that are given up while they sleep -/

/-- Where a call is that was given up, after some more changes. It has invoked nothing more. If
it returns now, or has returned, it does so with the cancellation, or it panics; and its turn
ends it. -/
structure Outwards (log : List (Change α)) (tr : Traffic α) (id invocations : Nat) : Prop where
  call : ∃ c, tr.calls[id]? = some c ∧ c.invocations = invocations ∧
    (∀ outcome, Returns tr id c outcome → outcome.CutShort) ∧
    (c.activity = .ended → EndedShort log id)
  turn : ∃ c, (tr.turn (.call id)).calls[id]? = some c ∧ c.invocations = invocations ∧
    c.activity = .ended

/-- What becomes of a call that is given up while it sleeps. -/
structure CutShort (layers : Layers) (tr : Traffic α) (id : Nat) (c : Call α) : Prop where
  /-- In its next step it turns back. It holds no slot more than before, takes no token, and
  nobody takes anything else or is refused it; and it is in no line any more. -/
  quits : ∃ tr' c', tr.step id = some tr' ∧ tr'.calls[id]? = some c' ∧
    c'.activity = .leaving (.error (.layer .cancelled)) ∧ c'.slots = c.slots ∧
    tr'.layers.rateLimiter = tr.layers.rateLimiter ∧ tr.layers.Untaken tr.now tr'.layers ∧
    ∀ config b, layers.bulkhead = some (.new config) → tr'.layers.bulkhead = some b →
      id ∉ b.queue ++ b.handed
  /-- Whatever happens then, short of dropping it, it is on its way out. -/
  outwards : ∀ log' tr', Course tr log' tr' → (∀ ch ∈ log', ch.move ≠ .drop id) →
    Outwards log' tr' id c.invocations

/-- A call that was given up and has not ended is on its way out. -/
theorem outwards_of_givenUp (hcourse : Course (.start layers attached) log tr)
    (horigin : (origins log)[id]? = some ⟨token, route layers, .operation script⟩)
    (hc : tr.calls[id]? = some c) (hgivenUp : c.GivenUp tr.tokens) (hgoing : c.activity ≠ .ended)
    (h : Course tr log' tr') (hdrop : ∀ ch ∈ log', ch.move ≠ .drop id) :
    Outwards log' tr' id c.invocations := by
  obtain ⟨c', hc', hgivenUp', hinvocations, hended⟩ := exists_givenUp h hdrop hc hgivenUp hgoing
  refine ⟨⟨c', hc', hinvocations, fun outcome hreturns => ?_, hended⟩, ?_⟩
  · exact cutShort_of_returns hgivenUp' hreturns
  -- The turn is whole, and a call that was given up does not sleep when it is over.
  · obtain ⟨steps, hsteps, hown, hrests⟩ :=
      (hcourse.append h).exists_turn (ordered_of_origin horigin log')
    have hdrop' : ∀ ch ∈ log' ++ steps, ch.move ≠ .drop id := by
      intro ch hch
      obtain hch | hch := List.mem_append.mp hch
      · exact hdrop ch hch
      · rw [hown ch hch]
        exact nofun
    obtain ⟨c₁, hc₁, hgivenUp₁, hinvocations₁, -⟩ :=
      exists_givenUp (h.append hsteps) hdrop' hc hgivenUp hgoing
    exact ⟨c₁, hc₁, hinvocations₁, hgivenUp₁.ended_of_rests hc₁ hrests⟩

/-- A call that is given up while it sleeps is cut short. -/
theorem cutShort_of_suspended (hcourse : Course (.start layers attached) log tr)
    (horigin : (origins log)[id]? = some ⟨token, route layers, .operation script⟩)
    (hc : tr.calls[id]? = some c) (hsuspended : c.activity.suspended = true)
    (hgaveUp : tr.givenUp c = true) : CutShort layers tr id c := by
  have hsteady := hcourse.call_of_origin (Traffic.follows_steady _) hc horigin
  have hgivenUp : c.GivenUp tr.tokens := ⟨hgaveUp, .inl hsuspended, hsteady.pausing⟩
  refine ⟨?_, fun log' tr' => ?_⟩
  · obtain ⟨tr', outside, hquits⟩ :=
      Traffic.exists_quits hc hsuspended hgaveUp hsteady.pausing
    have hlt := (List.getElem?_eq_some_iff.mp hc).1
    have hc' := congrArg (·[id]?) hquits.calls
    simp only [List.getElem?_set_self hlt] at hc'
    refine ⟨tr', _, hquits.step, hc', rfl, ?_, by rw [hquits.layers], hquits.untaken, ?_⟩
    · obtain hframes | ⟨number, inner, hframes⟩ := hquits.frames
      · rw [Call.slots, Call.slots, hframes]
      · rw [Call.slots, Call.slots, hframes]
        rfl
    -- The line of the bulkhead holds the calls that wait for a slot, and this one does not.
    · intro config b hlayers hb hline
      have hm : tr.move (.step id) = some tr' := hquits.step
      obtain ⟨b', hagrees, -⟩ := Bulkhead.exists_agrees hlayers (hcourse.move hm)
      obtain rfl := Option.some.inj (hb.symm.trans hagrees.present)
      obtain ⟨c₁, hc₁, hwaits⟩ := (hagrees.accounts.line id).mp hline
      obtain rfl := Option.some.inj (hc₁.symm.trans hc')
      cases hwaits
  · refine outwards_of_givenUp hcourse horigin hc hgivenUp ?_
    intro hended
    rw [hended] at hsuspended
    cases hsuspended

/-- A bulkhead with one slot, and a deadline of five milliseconds. -/
def brief : Layers := ⟨none, some (.new ⟨1, .ofMillis 10⟩), none, none, some (.ofMillis 5)⟩

/-- A call races its operation. In the same millisecond the operation ends, the deadline comes
and the caller cancels its token. -/
theorem exists_tie : ∃ (log : List (Change Nat)) (tr : Traffic Nat) (c : Call Nat),
    Rounds (.start brief .none) log tr ∧
    (origins log)[0]? = some ⟨0, route brief, .operation [five]⟩ ∧ tr.calls[0]? = some c ∧
    c.activity = .racing 0 1 5 ∧ tr.clock = 5 ∧ tr.runOutcome 0 = some (.value (some 5)) ∧
    tr.givenUp c = true ∧ c.invocations = 1 := by
  have hstart : Rounds (.start brief .none) [] (Traffic.start brief .none : Traffic Nat) := .start
  have hbegun := (hstart.move (m := .mint none) rfl nofun).move
    (m := .begin 0 (route brief) (.operation [five])) rfl nofun
  have hraces := hbegun.turn 0 ((Course.start.move (m := .step 0) rfl).move (m := .step 0) rfl)
    (by simp) (Option.isNone_iff_eq_none.mp rfl)
  have hready := ((hraces.move (m := .look 0) rfl nofun).move (m := .elapse 5) rfl nofun).move
    (m := .look 0) rfl nofun
  obtain ⟨ready, hcancel⟩ := Traffic.exists_cancelToken _ 0
  have hlast := hready.move (m := .cancel 0) (congrArg some hcancel) nofun
  exact ⟨_, _, _, hlast, rfl, rfl, rfl, rfl, rfl, rfl, rfl⟩

/-- Two attempts without a pause between them. -/
def twice : Layers := ⟨none, none, none, some ⟨2, .zero, .zero, 1, .constant, false⟩, none⟩

/-- An operation that fails at once. -/
def failing : Operation Nat := ⟨some 0, .failure Operation.stoppedFailure, false⟩

/-- A pause that is empty at the longest, without a random part, is over at once. -/
theorem dueIn_delay (tr : Traffic α) {config : Retry.Config Float}
    (hmax : config.maxDelay = .zero) (hjitter : config.jitter = false) (number : Nat)
    (draw : Float) : tr.dueIn (config.delay number draw) = tr.clock := by
  have hdelay : config.delay number draw = .zero := by
    apply Duration.ext
    simp [Retry.Config.delay, Retry.Config.baseDelay, hmax, hjitter, Duration.nanos_min]
  rw [hdelay]
  rfl

/-- A call whose pause is over starts its next attempt. -/
theorem step_of_pausing {due number : Nat} {inner : List Stage} {outside : List Frame}
    (hc : tr.calls[id]? = some c) (hpausing : c.activity = .pausing due)
    (hframes : c.frames = .attempt number inner :: outside) (hgoing : tr.givenUp c = false)
    (hdue : due ≤ tr.clock) : tr.step id = some (tr.become id
      { c with frames := .attempt (number + 1) inner :: outside } (.entering inner)) := by
  simp [Traffic.step, hc, hpausing, Traffic.resumePause, hframes, hgoing, Nat.not_lt.mpr hdue]

/-- A call invokes its operation, which fails, and invokes it again, all in one turn. -/
theorem exists_repeats : ∃ (log : List (Change Nat)) (tr : Traffic Nat),
    Rounds (.start twice .none) log tr ∧
    (origins log)[0]? = some ⟨0, route twice, .operation [failing, five]⟩ ∧
    ∃ ch ∈ log, ∃ c, Repeats ch 0 c := by
  have hstart : Rounds (.start twice .none) [] (Traffic.start twice .none : Traffic Nat) := .start
  have hbegun := (hstart.move (m := .mint none) rfl nofun).move
    (m := .begin 0 (route twice) (.operation [failing, five])) rfl nofun
  have hdone := hbegun.turn 0
    ((((((Course.start.move (m := .step 0) rfl).move (m := .step 0) rfl).move
      (m := .step 0) rfl).move (m := .step 0) rfl).move (m := .step 0)
      (step_of_pausing rfl rfl rfl rfl (Nat.le_of_eq (dueIn_delay _ rfl rfl _ _)))).move
      (m := .step 0) rfl)
    (by simp) (Option.isNone_iff_eq_none.mp rfl)
  exact ⟨_, _, hdone, rfl, _, List.mem_append_right _ (List.mem_append_right _ (.head _)), _, rfl,
    by decide, _, rfl, by decide⟩

end Executor

end Safeguard
