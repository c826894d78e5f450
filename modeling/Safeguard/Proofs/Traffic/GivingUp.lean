import Safeguard.Proofs.Bulkhead.Slots
import Safeguard.Proofs.Traffic.Turns

/-!
# Calls that are given up

A call that sleeps in a wait, in a pause or in a race watches its caller's token. This file says
what becomes of it when the token is cancelled. The call is woken, and when it looks around it
looks at the token before anything else: it turns back with nothing, whatever else has come at
the same moment. On its way out it carries the error through all layers it is inside. The retry
layer may take the error for one that is worth another attempt and let the call pause, but the
pause ends as all sleep does.

## Main definitions

* `Activity.suspended`: a call sleeps and watches its caller's token.
* `Resilience.Layers.Untaken`: nobody took or was refused anything.
* `Call.GivenUp`: a call that turns back, or is about to.

## Main results

* `Traffic.mem_ready_cancelToken`: the call is woken.
* `Traffic.exists_quits`: it turns back first thing.
* `Call.GivenUp.step`: it does not turn round again.
-/

namespace Safeguard

open Resilience (Layers)

variable {α : Type} {tr tr' : Traffic α} {id : Nat} {c c' : Call α} {log : List (Change α)}
  {outcome : Outcome α}

/-- Whether a call sleeps where it watches its caller's token, whatever its operation does. -/
def Activity.suspended : Activity α → Bool
  | .awaitingTokens .. | .awaitingSlot .. | .pausing _ | .racing .. => true
  | _ => false

theorem Activity.watches_of_suspended {a : Activity α} (h : a.suspended = true) :
    a.watches = true := by
  cases a <;> first | rfl | cases h

/-! ## Waking -/

namespace Traffic

theorem mem_ready_wake (tr : Traffic α) (t : Task) : t ∈ (tr.wake t).ready := by
  unfold wake
  split
  · assumption
  · exact List.mem_append_right _ (.head _)

theorem mem_ready_wake_of_mem {t : Task} (t' : Task) (h : t ∈ tr.ready) :
    t ∈ (tr.wake t').ready := by
  unfold wake
  split
  · exact h
  · exact List.mem_append_left _ h

theorem mem_ready_foldl_wake {t : Task} {ts : List Task} (h : t ∈ tr.ready ∨ t ∈ ts) :
    t ∈ (ts.foldl wake tr).ready := by
  induction ts generalizing tr with
  | nil => exact h.resolve_right List.not_mem_nil
  | cons t' ts ih =>
    refine ih ?_
    obtain h | h := h
    · exact .inl (mem_ready_wake_of_mem t' h)
    · obtain rfl | h := List.mem_cons.mp h
      · exact .inl (tr.mem_ready_wake t)
      · exact .inr h

theorem mem_sleepers (hc : tr.calls[id]? = some c) {call : Call α → Bool} (run : Run α → Bool)
    (h : call c = true) : Task.call id ∈ tr.sleepers call run := by
  refine List.mem_map.mpr ⟨(c.since, .call id), List.mem_mergeSort.mpr ?_, rfl⟩
  refine List.mem_append_left _ (List.mem_map.mpr ⟨(c, id), List.mem_filter.mpr ⟨?_, h⟩, rfl⟩)
  exact List.mem_zipIdx_iff_getElem?.mpr hc

/-- A suspended call whose token is cancelled by cancelling some token is due for a turn. -/
theorem mem_ready_cancelToken (hc : tr.calls[id]? = some c) (hsuspended : c.activity.suspended)
    (hgoing : tr.givenUp c = false) {token : TokenId}
    (hgaveUp : (tr.cancelToken token).givenUp c = true) :
    .call id ∈ (tr.cancelToken token).ready := by
  -- Its token is among those whose watchers are told.
  have horder : c.token ∈ (tr.tokens.cancel token).2 := by
    obtain ⟨ready, h⟩ := tr.exists_cancelToken token
    rw [h] at hgaveUp
    refine (TokenForest.mem_order_of_isCancelled hgaveUp).resolve_left fun hbefore => ?_
    exact Bool.false_ne_true (hgoing.symm.trans hbefore)
  have hwatchers : ∀ (order : List TokenId) (tr : Traffic α), tr.calls[id]? = some c →
      (.call id ∈ tr.ready ∨ c.token ∈ order) → .call id ∈ (order.foldl wakeWatchers tr).ready := by
    intro order
    induction order with
    | nil => exact fun tr _ h => h.resolve_right List.not_mem_nil
    | cons t order ih =>
      intro tr hc h
      obtain ⟨ready, hwake⟩ : ∃ ready, tr.wakeWatchers t = { tr with ready := ready } :=
        exists_foldl exists_wake _ tr
      refine ih _ (by rw [hwake]; exact hc) ?_
      obtain h | h := h
      · exact .inl (mem_ready_foldl_wake (.inl h))
      · obtain rfl | h := List.mem_cons.mp h
        · refine .inl (mem_ready_foldl_wake (.inr (mem_sleepers hc _ ?_)))
          simp [Activity.watches_of_suspended hsuspended]
        · exact .inr h
  exact hwatchers _ _ hc (.inr horder)

end Traffic

/-! ## Turning back -/

/-- Nobody took anything from the layers or was refused by them: tokens may have accrued, and
the line for slots may have changed. -/
structure Resilience.Layers.Untaken (now : Instant) (a b : Layers) : Prop where
  limiter : b.rateLimiter = a.rateLimiter ∨ b.rateLimiter = a.rateLimiter.map (·.refill now)
  turnedAway : b.rateLimiter.map (·.rejected) = a.rateLimiter.map (·.rejected)
  slots : b.bulkhead.map (fun b => (b.active, b.maxActive, b.rejected)) =
    a.bulkhead.map fun b => (b.active, b.maxActive, b.rejected)
  breaker : b.circuitBreaker = a.circuitBreaker

theorem Resilience.Layers.Untaken.refl (now : Instant) (a : Layers) : a.Untaken now a :=
  ⟨.inl rfl, rfl, rfl, rfl⟩

/-- A call that falls asleep took nothing before. -/
theorem Rule.untaken_of_suspended {layers : Layers} {runs : List (Run α)}
    (h : Rule tr id c layers runs c') (hnow : c'.activity.suspended = true) :
    tr.layers.Untaken tr.now layers := by
  cases h with
  | limiter present rule =>
    cases rule with
    | pending =>
      refine ⟨.inr ?_, ?_, rfl, rfl⟩
      · rw [present]
        rfl
      · rw [present]
        rfl
    | _ => cases hnow
  | bulkhead present rule =>
    cases rule with
    | queued =>
      refine ⟨.inl rfl, rfl, ?_, rfl⟩
      rw [present]
      rfl
    | _ => cases hnow
  | breaker _ rule => cases rule <;> cases hnow
  | inner rule =>
    cases rule with
    | raced => exact .refl _ _
    | paused => exact .refl _ _
    | _ => cases hnow

namespace Traffic

/-- A call turns back at once: its caller gave it up. It leaves the line for a slot, and hands
on the slot that it may have been given; it leaves the attempt that it may be in. -/
structure Quits (tr : Traffic α) (id : Nat) (c : Call α) (tr' : Traffic α) (outside : List Frame) :
    Prop where
  step : tr.step id = some tr'
  calls : tr'.calls = tr.calls.set id
    { c with frames := outside, activity := .leaving (.error (.layer .cancelled)) }
  frames : c.frames = outside ∨ ∃ number inner, c.frames = .attempt number inner :: outside
  layers : tr'.layers = { tr.layers with
    bulkhead :=
      tr.layers.bulkhead.map fun b => if c.activity.awaitsSlot then (b.leave id).1 else b }

theorem Quits.untaken {outside : List Frame} (h : Quits tr id c tr' outside) :
    tr.layers.Untaken tr.now tr'.layers := by
  rw [h.layers]
  refine ⟨.inl rfl, rfl, ?_, rfl⟩
  rw [Option.map_map]
  refine congrArg (Option.map · _) (funext fun b => ?_)
  dsimp only [Function.comp_apply]
  split <;> simp

/-- It does so before anything else. -/
theorem exists_quits (hc : tr.calls[id]? = some c) (hsuspended : c.activity.suspended = true)
    (hgaveUp : tr.givenUp c = true)
    (hpausing : ∀ due, c.activity = .pausing due → ∃ number inner outside,
      c.frames = .attempt number inner :: outside) :
    ∃ tr' outside, Quits tr id c tr' outside := by
  have hsame : ∀ {layers : Layers}, layers = tr.layers →
      layers = { tr.layers with bulkhead := tr.layers.bulkhead.map fun b => b } := by
    rintro layers rfl
    rw [Option.map_id']
  cases hactivity : c.activity with
  | awaitingTokens n due inner =>
    refine ⟨tr.refuse id c .cancelled, c.frames, ?_, rfl, .inl rfl, ?_⟩
    · simp only [step, hc, Option.bind_eq_bind, Option.bind_some, hactivity, resumeTokens,
        if_pos hgaveUp]
    · rw [hactivity]
      exact hsame rfl
  | awaitingSlot due inner =>
    refine ⟨(tr.leaveQueue id).refuse id c .cancelled, c.frames, ?_, ?_, .inl rfl, ?_⟩
    · simp only [step, hc, Option.bind_eq_bind, Option.bind_some, hactivity, resumeSlot,
        if_pos hgaveUp]
    · exact congrArg (List.set · id _) (tr.giving_leaveQueue id).calls
    · rw [hactivity]
      exact tr.layers_leaveQueue id
  | pausing due =>
    obtain ⟨number, inner, outside, hframes⟩ := hpausing due hactivity
    refine ⟨tr.refuse id { c with frames := outside } .cancelled, outside, ?_, rfl,
      .inr ⟨number, inner, hframes⟩, ?_⟩
    · simp only [step, hc, Option.bind_eq_bind, Option.bind_some, hactivity, resumePause, hframes,
        if_pos hgaveUp]
    · rw [hactivity]
      exact hsame rfl
  | racing run deadline due =>
    obtain ⟨ready, hend⟩ := tr.exists_endRace deadline
    refine ⟨(tr.endRace deadline).refuse id c .cancelled, c.frames, ?_, ?_, .inl rfl, ?_⟩
    · simp only [step, hc, Option.bind_eq_bind, Option.bind_some, hactivity, resumeRace,
        if_pos hgaveUp]
    · rw [hend]
      rfl
    · rw [hactivity, hend]
      exact hsame rfl
  | _ => simp [hactivity, Activity.suspended] at hsuspended

end Traffic

/-! ## On the way out -/

/-- What a call that was given up ends in: the cancellation, unless something panics. -/
def Outcome.CutShort (outcome : Outcome α) : Prop :=
  outcome = .error (.layer .cancelled) ∨ ∃ message, outcome = .panic message

/-- A call was given up: it sleeps, and so turns back as soon as it looks around, or it is on its
way out, or it has ended. -/
structure Call.GivenUp (tokens : TokenForest) (c : Call α) : Prop where
  cancelled : tokens.isCancelled c.token = true
  outwards : c.activity.suspended = true ∨
    (∃ outcome, c.activity = .leaving outcome ∧ outcome.CutShort) ∨ c.activity = .ended
  pausing : ∀ due, c.activity = .pausing due → ∃ number inner outside,
    c.frames = .attempt number inner :: outside

theorem Call.GivenUp.mono {tokens tokens' : TokenForest} (h : c.GivenUp tokens)
    (hgrows : tokens.Grows tokens') : c.GivenUp tokens' :=
  ⟨hgrows.cancelled _ h.cancelled, h.outwards, h.pausing⟩

theorem Outcome.CutShort.of_leaving {outcome' : Outcome α} (h : outcome.CutShort)
    (heq : outcome' = outcome ∨ ∃ message, outcome' = .panic message) : outcome'.CutShort := by
  obtain rfl | hpanic := heq
  · exact h
  · exact .inr hpanic

/-- A call on its way out stays on it, with its outcome or a panic, or pauses. -/
theorem Rule.of_leaving {layers : Layers} {runs : List (Run α)} (h : Rule tr id c layers runs c')
    (hleaving : c.activity = .leaving outcome) : c'.invocations = c.invocations ∧
      ((∃ outcome', c'.activity = .leaving outcome' ∧
        (outcome' = outcome ∨ ∃ message, outcome' = .panic message)) ∨
      (∃ due, c'.activity = .pausing due) ∨ c'.activity = .ended) := by
  have hsame : ∀ {outcome'}, c.activity = .leaving outcome' → outcome' = outcome :=
    fun h => Activity.leaving.inj (h.symm.trans hleaving)
  have hnil : c.activity.ahead = [] := by rw [hleaving]; rfl
  cases h with
  | limiter _ rule =>
    obtain ⟨st, inner, hahead, -⟩ := rule.exists_ahead
    rw [hnil] at hahead
    cases hahead
  | bulkhead _ rule =>
    cases rule with
    | released leaving => exact ⟨rfl, .inl ⟨_, rfl, .inl (hsame leaving)⟩⟩
    | _ => simp_all
  | breaker _ rule =>
    cases rule with
    | settled leaving _ _ _ outcome_eq =>
      exact ⟨rfl, .inl ⟨_, rfl, hsame leaving ▸ outcome_eq⟩⟩
    | spent => exact ⟨rfl, .inl ⟨_, rfl, .inr ⟨_, rfl⟩⟩⟩
    | _ => simp_all
  | inner rule =>
    cases rule with
    | attemptLeft leaving _ outcome_eq =>
      exact ⟨rfl, .inl ⟨_, rfl, hsame leaving ▸ outcome_eq⟩⟩
    | unowned leaving _ _ outcome_eq =>
      exact ⟨rfl, .inl ⟨_, rfl, hsame leaving ▸ outcome_eq⟩⟩
    | paused => exact ⟨rfl, .inr (.inl ⟨_, rfl⟩)⟩
    | done => exact ⟨rfl, .inr (.inr rfl)⟩
    | _ => simp_all

/-- A step of a call that was given up: it turns back, or goes on outwards. -/
theorem Call.GivenUp.step (h : c.GivenUp tr.tokens) (hc : tr.calls[id]? = some c)
    (hstep : tr.step id = some tr') :
    ∃ c', tr'.calls = tr.calls.set id c' ∧ c'.GivenUp tr'.tokens ∧
      c'.invocations = c.invocations := by
  have heffect : Traffic.Effect tr (.step id) tr' := Traffic.effect_of_move hstep
  have hcancelled := heffect.tokens_grow.cancelled _ h.cancelled
  obtain hsuspended | ⟨outcome, hleaving, hcut⟩ | hended := h.outwards
  · obtain ⟨tr₁, outside, hquits⟩ := Traffic.exists_quits hc hsuspended h.cancelled h.pausing
    -- Nothing else can have come first.
    obtain rfl := Option.some.inj (hstep.symm.trans hquits.step)
    exact ⟨_, hquits.calls, ⟨hcancelled, .inr (.inl ⟨_, rfl, .inl rfl⟩), nofun⟩, rfl⟩
  · cases heffect with
    | @stepped _ c₀ c' _ hc₀ hstepped =>
      obtain rfl := Option.some.inj (hc.symm.trans hc₀)
      obtain ⟨hinvocations, houtwards⟩ := hstepped.rule.of_leaving hleaving
      refine ⟨c', hstepped.calls, ⟨?_, ?_, hstepped.rule.steady.pausing⟩, hinvocations⟩
      · rw [hstepped.rule.keeps_origin.1]
        exact hcancelled
      · obtain ⟨outcome', hnow, heq⟩ | ⟨due, hnow⟩ | hnow := houtwards
        · exact .inr (.inl ⟨outcome', hnow, hcut.of_leaving heq⟩)
        · exact .inl (by rw [hnow]; rfl)
        · exact .inr (.inr hnow)
    | aside kind => cases kind
  · simp only [Traffic.step, hc, Option.bind_eq_bind, Option.bind_some, hended] at hstep
    cases hstep

/-- A call that was given up does not sleep on. -/
theorem Call.GivenUp.ended_of_rests (h : c.GivenUp tr.tokens) (hc : tr.calls[id]? = some c)
    (hrests : tr.step id = none) : c.activity = .ended := by
  obtain hsuspended | ⟨outcome, hleaving, -⟩ | hended := h.outwards
  · obtain ⟨tr', outside, hquits⟩ := Traffic.exists_quits hc hsuspended h.cancelled h.pausing
    rw [hquits.step] at hrests
    cases hrests
  · simp only [Traffic.step, hc, Option.bind_eq_bind, Option.bind_some, hleaving] at hrests
    cases hrests
  · exact hended

end Safeguard
