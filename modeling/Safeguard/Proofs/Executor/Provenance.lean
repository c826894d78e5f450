import Safeguard.Proofs.Executor.Conservation
import Safeguard.Proofs.Traffic.Invocations
import Safeguard.Proofs.Traffic.Untouched

/-!
# Where results of calls come from

A call of an executor returns what its last invocation of the operation gave, or an error of
one of its layers, and a caller can rely on what the error says: a call that was rejected has
neither invoked its operation nor touched a layer inside the one that rejected it.

## Main definitions

* `Executor.Provenance`: where the result of a call comes from.

## Main results

* `Executor.result_provenance`: every call that returns has a result of known provenance.
-/

namespace Safeguard

open Resilience (Layers)

variable {α : Type} {tr tr' : Traffic α} {id : Nat} {c c' : Call α} {log : List (Change α)}
  {l : Layer} {outcome : Outcome α}

namespace Executor

open Traffic (Course Stepped Follows)

/-! ## Provenance -/

/-- The last invocation of a call ended in this outcome. -/
structure LastInvocation (script : List (Operation α)) (log : List (Change α))
    (id invocations : Nat) (outcome : Outcome α) : Prop where
  invoked : 0 < invocations
  ended : (id, invocations, outcome) ∈ endings log
  yields : (Operation.ofScript script invocations).Yields outcome

theorem LastInvocation.snoc {script : List (Operation α)} {invocations : Nat}
    (h : LastInvocation script log id invocations outcome) (ch : Change α) :
    LastInvocation script (log ++ [ch]) id invocations outcome :=
  ⟨h.invoked, mem_endings_snoc ch h.ended, h.yields⟩

/-- Where the outcome of a call comes from: a call with this script and this token, after so
many invocations. -/
inductive Provenance (layers : Layers) (script : List (Operation α)) (log : List (Change α))
    (tokens : TokenForest) (token : TokenId) (id invocations : Nat) : Outcome α → Prop where
  /-- The value that the last invocation returned. -/
  | value {v : Option α} (last : LastInvocation script log id invocations (.value v)) :
      Provenance layers script log tokens token id invocations (.value v)
  /-- The error with which the last invocation failed. -/
  | failure {f : Failure}
      (last : LastInvocation script log id invocations (.error (.operation f))) :
      Provenance layers script log tokens token id invocations (.error (.operation f))
  /-- One of the three outer layers, which is present, rejected the call. The operation was not
  invoked, and the steps of the call left all layers inside as they were. -/
  | rejected {l : Layer} (outer : l = .rateLimiter ∨ l = .bulkhead ∨ l = .circuitBreaker)
      (present : layers.has l = true) (uninvoked : invocations = 0)
      (spares : ∀ l', l.depth < l'.depth → Spares log id l') :
      Provenance layers script log tokens token id invocations (.error (.layer l.refusal))
  /-- No attempt was allowed. -/
  | exhausted {config : Retry.Config Float} (retry : layers.retry = some config)
      (none : config.maxAttempts = 0) (uninvoked : invocations = 0) :
      Provenance layers script log tokens token id invocations (.error (.layer .attemptsExceeded))
  /-- There was a deadline. -/
  | timedOut (present : layers.has .timeout = true) :
      Provenance layers script log tokens token id invocations (.error (.layer .timedOut))
  /-- The caller's token has been cancelled. -/
  | cancelled (gaveUp : tokens.isCancelled token = true) :
      Provenance layers script log tokens token id invocations (.error (.layer .cancelled))

variable {layers : Layers} {script : List (Operation α)} {tokens tokens' : TokenForest}
  {token : TokenId} {invocations : Nat}

/-- What has a provenance keeps it, as long as the call leaves alone what is inside the layer
that rejected it. -/
theorem Provenance.snoc (h : Provenance layers script log tokens token id invocations outcome)
    (htokens : tokens.Grows tokens') {ch : Change α}
    (hch : ∀ l : Layer, outcome = .error (.layer l.refusal) → ∀ l' : Layer, l.depth < l'.depth →
      ch.move = .step id → ch.before.layers.SameAt ch.after.layers l') :
    Provenance layers script (log ++ [ch]) tokens' token id invocations outcome := by
  cases h with
  | value last => exact .value (last.snoc ch)
  | failure last => exact .failure (last.snoc ch)
  | rejected outer present uninvoked spares =>
    exact .rejected outer present uninvoked fun l' hl' =>
      (spares l' hl').snoc (hch _ rfl l' hl')
  | exhausted retry none uninvoked => exact .exhausted retry none uninvoked
  | timedOut present => exact .timedOut present
  | cancelled gaveUp => exact .cancelled (htokens.cancelled _ gaveUp)

/-- A call on its way out with an outcome of known provenance. If a layer other than a deadline
refused it, it is inside outer layers only. -/
structure Leaving (layers : Layers) (script : List (Operation α)) (log : List (Change α))
    (tokens : TokenForest) (token : TokenId) (id : Nat) (c : Call α) (outcome : Outcome α) :
    Prop where
  provenance : Provenance layers script log tokens token id c.invocations outcome
  outside : ∀ l : Layer, outcome = .error (.layer l.refusal) → l ≠ .timeout →
    ∀ frame ∈ c.frames, frame.owner.depth < l.depth

/-- No layer that is not repeated gives such an outcome. -/
theorem Leaving.of_inside
    (h : Provenance layers script log tokens token id c.invocations outcome)
    (hne : ∀ l : Layer, outcome = .error (.layer l.refusal) → l = .timeout) :
    Leaving layers script log tokens token id c outcome :=
  ⟨h, fun l hl htimeout => absurd (hne l hl) htimeout⟩

theorem Leaving.cancelled (h : tokens.isCancelled token = true) :
    Leaving layers script log tokens token id c (.error (.layer .cancelled)) := by
  refine .of_inside (.cancelled h) fun l hl => ?_
  exact absurd (CallError.layer.inj (Outcome.error.inj hl)).symm l.refusal_ne_cancelled

theorem Leaving.timedOut (h : layers.has .timeout = true) :
    Leaving layers script log tokens token id c (.error (.layer .timedOut)) := by
  refine .of_inside (.timedOut h) fun l hl => ?_
  have hrefusal : l.refusal = Layer.timeout.refusal :=
    (CallError.layer.inj (Outcome.error.inj hl)).symm
  exact Layer.refusal_injective hrefusal

theorem Leaving.of_untouched (h : Untouched log id c l)
    (hprovenance : Provenance layers script log tokens token id c.invocations
      (.error (.layer l.refusal))) :
    Leaving layers script log tokens token id c (.error (.layer l.refusal)) := by
  refine ⟨hprovenance, fun l' hl' _ => ?_⟩
  obtain rfl := Layer.refusal_injective (CallError.layer.inj (Outcome.error.inj hl'))
  exact h.outside

theorem Leaving.rejected (h : Untouched log id c l)
    (outer : l = .rateLimiter ∨ l = .bulkhead ∨ l = .circuitBreaker)
    (present : layers.has l = true) :
    Leaving layers script log tokens token id c (.error (.layer l.refusal)) :=
  .of_untouched h (.rejected outer present h.uninvoked h.spares)

/-- A call that leaves a layer with the outcome it has. -/
theorem Leaving.step (h : Leaving layers script log tokens token id c outcome)
    (htokens : tokens.Grows tokens') (hrule : Rule tr id c tr'.layers tr'.runs c')
    (hleaving : c.activity = .leaving outcome) (hnow : c'.activity = .leaving outcome) :
    Leaving layers script (log ++ [⟨tr, .step id, tr'⟩]) tokens' token id c' outcome := by
  have hnil : c.activity.ahead = [] := by rw [hleaving]; rfl
  refine ⟨?_, fun l hl hne frame hmem => ?_⟩
  · rw [hrule.invocations_eq (.inr ⟨outcome, hnow⟩)]
    -- The call leaves a layer outside the one that rejected it, so the deeper ones stay.
    refine h.provenance.snoc htokens fun l hl l' hl' _ => hrule.sameAt ?_ ?_
    · intro st inner hahead
      rw [hnil] at hahead
      cases hahead
    · rintro outcome' frame outside - hframes rfl
      have hne : l ≠ .timeout := by
        rintro rfl
        cases hframe : frame.owner <;> simp [hframe, Layer.depth] at hl'
      have hlt := h.outside l hl hne frame (by rw [hframes]; exact .head _)
      exact Nat.lt_asymm hlt hl'
  · obtain ⟨st, inner, hahead, -⟩ | ⟨frame₀, hmem₀, howner⟩ := hrule.frame_mem hmem
    · rw [hnil] at hahead
      cases hahead
    · rw [← howner]
      exact h.outside l hl hne frame₀ hmem₀

/-- A change in which the call takes no step. -/
theorem Leaving.snoc (h : Leaving layers script log tokens token id c outcome)
    (htokens : tokens.Grows tokens') {ch : Change α} (hm : ch.move ≠ .step id) :
    Leaving layers script (log ++ [ch]) tokens' token id c outcome :=
  ⟨h.provenance.snoc htokens fun _ _ _ _ hstep => absurd hstep hm, h.outside⟩

/-- What an invocation gives is no error of a layer. -/
theorem Leaving.of_last (last : LastInvocation script log id c.invocations outcome) :
    (∃ message, outcome = .panic message) ∨
      Leaving layers script log tokens token id c outcome := by
  cases outcome with
  | value v => exact .inr (.of_inside (.value last) nofun)
  | panic message => exact .inl ⟨message, rfl⟩
  | error e =>
    cases e with
    | operation f => exact .inr (.of_inside (.failure last) nofun)
    | layer e => exact absurd last.yields (Operation.not_yields_layer _ e)

/-! ## Following the outcome

A call gets its outcome where it turns back, and carries it outwards through the layers that it
is inside. Where it turns back the outcome has a provenance: at a layer that rejects the call,
because the call has not come past it, and elsewhere by what the operation gave, a deadline or a
token. On the way out this stays so, as leaving outer layers touches no inner one. -/

/-- How it comes that a call leaves with an outcome after a step. -/
inductive Leaves (tr : Traffic α) (id : Nat) (c : Call α) : Outcome α → Prop where
  /-- One of the three outer layers rejects it. -/
  | rejected {st : Stage} {inner : List Stage} (ahead : c.activity.ahead = st :: inner)
      (outer : st.owner = .rateLimiter ∨ st.owner = .bulkhead ∨ st.owner = .circuitBreaker)
      (present : tr.layers.has st.owner = true) : Leaves tr id c (.error (.layer st.owner.refusal))
  | exhausted {inner : List Stage} {config : Retry.Config Float}
      (entering : c.activity = .entering (.layer .retry :: inner))
      (retry : tr.layers.retry = some config) (none : config.maxAttempts = 0) :
      Leaves tr id c (.error (.layer .attemptsExceeded))
  | cancelled (gaveUp : tr.givenUp c = true) : Leaves tr id c (.error (.layer .cancelled))
  | late {run deadline due : Nat} (racing : c.activity = .racing run deadline due)
      (going : tr.givenUp c = false) (running : tr.runOutcome run = none)
      (elapsed : due ≤ tr.clock) :
      Leaves tr id c (.error (.layer .timedOut))
  | operated {number : Nat} {op : Operation α} {due : Option Nat} {outcome : Outcome α}
      {ending : RunEnd} (operating : c.activity = .operating number op due)
      (poll : op.poll (tr.givenUp c) due tr.clock = some (outcome, ending)) : Leaves tr id c outcome
  | won {run deadline due : Nat} {outcome : Outcome α}
      (racing : c.activity = .racing run deadline due)
      (ended : tr.runOutcome run = some outcome) : Leaves tr id c outcome
  /-- It was leaving already. -/
  | carried {outcome : Outcome α} (leaving : c.activity = .leaving outcome) : Leaves tr id c outcome
  | panicked (message : String) : Leaves tr id c (.panic message)
  /-- It had no operation to invoke. -/
  | idle (work : ∀ script, c.work ≠ .operation script) : Leaves tr id c (.value none)
  /-- It paused outside any attempt. -/
  | astray {due : Nat} (pausing : c.activity = .pausing due)
      (frames : ∀ number inner outside, c.frames ≠ .attempt number inner :: outside) :
      Leaves tr id c (.error (.layer .cancelled))

theorem Leaves.of_carried {outcome₀ : Outcome α} (h : c.activity = .leaving outcome₀)
    (heq : outcome = outcome₀ ∨ ∃ message, outcome = .panic message) : Leaves tr id c outcome := by
  obtain rfl | ⟨message, rfl⟩ := heq
  · exact .carried h
  · exact .panicked message

/-- A layer that is present rejects the call. -/
theorem Leaves.of_owner {st : Stage} {inner : List Stage} (ahead : c.activity.ahead = st :: inner)
    (owner : st.owner = l) (outer : l = .rateLimiter ∨ l = .bulkhead ∨ l = .circuitBreaker)
    (present : tr.layers.has l = true) : Leaves tr id c (.error (.layer l.refusal)) := by
  subst owner
  exact .rejected ahead outer present

theorem leaves_of_limiterRule {r r' : RateLimiter Float} (h : LimiterRule tr c r r' c')
    (present : tr.layers.rateLimiter = some r) (hnow : c'.activity = .leaving outcome) :
    Leaves tr id c outcome := by
  have hpresent : tr.layers.has .rateLimiter = true := by rw [Layers.has, present]; rfl
  cases h with
  | granted => cases hnow
  | pending => cases hnow
  | refused ahead owner =>
    obtain rfl := Activity.leaving.inj hnow
    exact .of_owner ahead owner (.inl rfl) hpresent
  | impossible entering owner =>
    obtain rfl := Activity.leaving.inj hnow
    exact .of_owner (by rw [entering]; rfl) owner (.inl rfl) hpresent

theorem leaves_of_bulkheadRule {b b' : Bulkhead Nat} (h : BulkheadRule tr id c b b' c')
    (present : tr.layers.bulkhead = some b) (hnow : c'.activity = .leaving outcome) :
    Leaves tr id c outcome := by
  have hpresent : tr.layers.has .bulkhead = true := by rw [Layers.has, present]; rfl
  cases h with
  | entered => cases hnow
  | queued => cases hnow
  | resumed => cases hnow
  | full entering owner =>
    obtain rfl := Activity.leaving.inj hnow
    exact .of_owner (by rw [entering]; rfl) owner (.inr (.inl rfl)) hpresent
  | @expired due inner waiting =>
    obtain rfl := Activity.leaving.inj hnow
    have hahead : c.activity.ahead = .layer .bulkhead :: inner := by rw [waiting]; rfl
    exact .of_owner hahead rfl (.inr (.inl rfl)) hpresent
  | shunned _ _ _ gaveUp =>
    obtain rfl := Activity.leaving.inj hnow
    exact .cancelled gaveUp
  | quit _ gaveUp =>
    obtain rfl := Activity.leaving.inj hnow
    exact .cancelled gaveUp
  | released leaving =>
    obtain rfl := Activity.leaving.inj hnow
    exact .carried leaving

theorem leaves_of_breakerRule {b b' : CircuitBreaker} (h : BreakerRule tr c b b' c')
    (present : tr.layers.circuitBreaker = some b) (hnow : c'.activity = .leaving outcome) :
    Leaves tr id c outcome := by
  have hpresent : tr.layers.has .circuitBreaker = true := by rw [Layers.has, present]; rfl
  cases h with
  | admitted => cases hnow
  | rejected entering owner =>
    obtain rfl := Activity.leaving.inj hnow
    exact .of_owner (by rw [entering]; rfl) owner (.inr (.inr rfl)) hpresent
  | spoiled =>
    obtain rfl := Activity.leaving.inj hnow
    exact .panicked _
  | settled leaving _ _ _ outcome_eq =>
    obtain rfl := Activity.leaving.inj hnow
    exact .of_carried leaving outcome_eq
  | spent =>
    obtain rfl := Activity.leaving.inj hnow
    exact .panicked _

theorem leaves_of_innerRule {runs : List (Run α)} (h : InnerRule tr id c runs c')
    (hnow : c'.activity = .leaving outcome) : Leaves tr id c outcome := by
  cases h with
  | quit _ _ _ gaveUp =>
    obtain rfl := Activity.leaving.inj hnow
    exact .cancelled gaveUp
  | exhausted entering retry none =>
    obtain rfl := Activity.leaving.inj hnow
    exact .exhausted entering retry none
  | idle _ work =>
    obtain rfl := Activity.leaving.inj hnow
    exact .idle (by simp [work])
  | operated operating poll =>
    obtain rfl := Activity.leaving.inj hnow
    exact .operated operating poll
  | won racing _ ended =>
    obtain rfl := Activity.leaving.inj hnow
    exact .won racing ended
  | late racing going running elapsed =>
    obtain rfl := Activity.leaving.inj hnow
    exact .late racing going running elapsed
  | forfeited _ gaveUp =>
    obtain rfl := Activity.leaving.inj hnow
    exact .cancelled gaveUp
  | letGo _ work =>
    obtain rfl := Activity.leaving.inj hnow
    exact .idle (by simp [work])
  | attemptLeft leaving _ outcome_eq =>
    obtain rfl := Activity.leaving.inj hnow
    exact .of_carried leaving outcome_eq
  | interrupted _ _ gaveUp =>
    obtain rfl := Activity.leaving.inj hnow
    exact .cancelled gaveUp
  | astray pausing frames =>
    obtain rfl := Activity.leaving.inj hnow
    exact .astray pausing frames
  | unowned leaving _ _ outcome_eq =>
    obtain rfl := Activity.leaving.inj hnow
    exact .of_carried leaving outcome_eq
  | _ => cases hnow

/-- A call that leaves after a step does so in one of these ways. -/
theorem leaves_of_rule {runs : List (Run α)} (h : Rule tr id c layers runs c')
    (hnow : c'.activity = .leaving outcome) : Leaves tr id c outcome := by
  cases h with
  | limiter present rule => exact leaves_of_limiterRule rule present hnow
  | bulkhead present rule => exact leaves_of_bulkheadRule rule present hnow
  | breaker present rule => exact leaves_of_breakerRule rule present hnow
  | inner rule => exact leaves_of_innerRule rule hnow

/-! ### The last invocation -/

/-- The operation that a call runs is its last invocation, and ends in this change. -/
theorem lastInvocation_of_operating {number : Nat} {op : Operation α} {due : Option Nat}
    {ending : RunEnd} (hc : tr.calls[id]? = some c) (hsteady : c.Steady)
    (hwork : c.work = .operation script) (operating : c.activity = .operating number op due)
    (poll : op.poll (tr.givenUp c) due tr.clock = some (outcome, ending)) :
    LastInvocation script (log ++ [⟨tr, .step id, tr'⟩]) id c.invocations outcome := by
  obtain ⟨hpos, rfl, hop⟩ := hsteady.operating number op due operating
  refine ⟨hpos, mem_endings_of_last ?_, ?_⟩
  · simp only [Change.ending?, hc, Option.bind_some, operating, poll, Option.map_some]
  · rw [← hop script hwork]
    exact Operation.yields_of_poll poll

theorem exists_run_of_runOutcome {run : Nat} (h : tr.runOutcome run = some outcome) :
    ∃ r, tr.runs[run]? = some r ∧ r.status = .finished outcome := by
  unfold Traffic.runOutcome at h
  split at h
  · rename_i call number deadline op outcome' since hr
    obtain rfl := Option.some.inj h
    exact ⟨_, hr, rfl⟩
  · cases h

variable {attached : Attachments}

/-- So is the run that a call waits for, and it has ended before. -/
theorem lastInvocation_of_racing {run deadline due : Nat}
    (hcourse : Course (.start layers attached) log tr) (hc : tr.calls[id]? = some c)
    (hwork : c.work = .operation script) (racing : c.activity = .racing run deadline due)
    (ended : tr.runOutcome run = some outcome) :
    LastInvocation script log id c.invocations outcome := by
  obtain ⟨-, -, hracing⟩ := hcourse.call (Traffic.follows_racing _) hc
  obtain ⟨-, hpos, r, hr, rfl, hnumber, hop⟩ := hracing run deadline due racing
  obtain ⟨r', hr', hfinished⟩ := exists_run_of_runOutcome ended
  obtain rfl := Option.some.inj (hr.symm.trans hr')
  obtain ⟨hended, hyields⟩ := hcourse.finished hr hfinished
  rw [hnumber] at hended
  rw [hop script hwork] at hyields
  exact ⟨hpos, hended, hyields⟩

/-! ### Courses -/

/-- A call with an operation whose layers are in their order leaves with an outcome of known
provenance, unless it panics. -/
theorem follows_leaving (layers : Layers) (attached : Attachments) :
    Follows (.start layers attached) fun o log tr id c =>
      Layer.Ordered (o.stages.map Stage.owner) → ∀ script : List (Operation α),
        o.work = .operation script → ∀ outcome, c.activity = .leaving outcome →
          (∃ message, outcome = .panic message) ∨
            Leaving layers script log tr.tokens o.token id c outcome where
  begun _ _ _ _ _ := nofun
  stepped := by
    intro o log tr tr' id c c' hcourse ho hc hstep ih hls script hscript outcome hnow
    have huntouched := hcourse.call_of_origin (Traffic.follows_untouched layers attached) hc ho hls
    have hsteady := hcourse.call_of_origin (Traffic.follows_steady _) hc ho
    obtain ⟨htoken, hwork⟩ := hcourse.call_of_origin (Traffic.follows_origin _) hc ho
    replace hwork := hwork script hscript
    have hhas : ∀ l, tr.layers.has l = layers.has l := fun l =>
      hcourse.keeps fun heffect => heffect.has_eq l
    have hretry : tr.layers.retry = layers.retry := hcourse.keeps fun heffect =>
      heffect.policies_eq.1
    have hinvocations := hstep.rule.invocations_eq (.inr ⟨outcome, hnow⟩)
    -- A call that turns back at a stage has still not come past it.
    have huntouched' : ∀ {st inner}, c.activity.ahead = st :: inner → st.owner ≠ .timeout →
        Untouched (log ++ [⟨tr, .step id, tr'⟩]) id c' st.owner := by
      intro st inner hahead hne
      refine (huntouched st.owner ?_ hne).step hstep.rule hahead (Nat.le_refl _)
        (fun hentering => ?_) (.inr ⟨outcome, hnow⟩)
      · rw [hahead]
        exact .head _
      · rw [hnow] at hentering
        cases hentering
    cases leaves_of_rule hstep.rule hnow with
    | @rejected st inner ahead outer present =>
      rw [hhas] at present
      refine .inr (.rejected (huntouched' ahead fun htimeout => ?_) outer present)
      simp [htimeout] at outer
    | @exhausted inner config entering retry none =>
      rw [hretry] at retry
      have hahead : c.activity.ahead = .layer .retry :: inner := by rw [entering]; rfl
      have hkept := huntouched' hahead (by decide)
      exact .inr (.of_untouched hkept (.exhausted retry none hkept.uninvoked))
    | cancelled gaveUp =>
      rw [← htoken]
      exact .inr (.cancelled (hstep.tokens.cancelled _ gaveUp))
    | late racing =>
      obtain ⟨hpresent, -⟩ := hcourse.call_of_origin (Traffic.follows_racing _) hc ho _ _ _ racing
      exact .inr (.timedOut (by rw [← hhas]; exact hpresent))
    | operated operating poll =>
      have hlast : LastInvocation script (log ++ [⟨tr, .step id, tr'⟩]) id c.invocations outcome :=
        lastInvocation_of_operating hc hsteady hwork operating poll
      rw [← hinvocations] at hlast
      exact Leaving.of_last hlast
    | won racing ended =>
      have hlast := lastInvocation_of_racing hcourse hc hwork racing ended
      rw [← hinvocations] at hlast
      exact Leaving.of_last (hlast.snoc _)
    | carried leaving =>
      exact (ih hls script hscript outcome leaving).imp_right fun h =>
        h.step hstep.tokens hstep.rule leaving hnow
    | panicked message => exact .inl ⟨message, rfl⟩
    | idle work => exact absurd hwork (work script)
    | @astray due pausing frames =>
      obtain ⟨number, inner, outside, hframes⟩ := hsteady.pausing due pausing
      exact absurd hframes (frames number inner outside)
  dropped _ _ _ _ _ _ _ := nofun
  told := by
    intro o log tr tr' id c _ heffect _ ih hls script hscript outcome hleaving
    have hm : (⟨tr, .letGo id, tr'⟩ : Change α).move ≠ .step id := nofun
    refine (ih hls script hscript outcome hleaving).imp_right fun h => ?_
    obtain ⟨hprovenance, houtside⟩ := h.snoc heffect.tokens_grow hm
    exact ⟨hprovenance, houtside⟩
  other := by
    intro o log tr tr' m id c _ heffect hm _ _ _ ih hls script hscript outcome hleaving
    exact (ih hls script hscript outcome hleaving).imp_right fun h => h.snoc heffect.tokens_grow hm

/-! ## Results -/

/-- A call returns with an outcome, or panics: it has left all its layers. -/
structure Returns (tr : Traffic α) (id : Nat) (c : Call α) (outcome : Outcome α) : Prop where
  call : tr.calls[id]? = some c
  leaving : c.activity = .leaving outcome
  frames : c.frames = []

/-- The next step of such a call is its end. -/
theorem Returns.step_eq (h : Returns tr id c outcome) :
    tr.step id = some ((tr.record id (.done outcome)).become id c .ended) := by
  simp only [Traffic.step, h.call, Option.bind_eq_bind, Option.bind_some, h.leaving,
    Traffic.leaveNext, h.frames]

/-- A call that ends by itself has returned, or panicked. -/
theorem exists_returns {layers : Layers} {runs : List (Run α)} (h : Rule tr id c layers runs c')
    (hc : tr.calls[id]? = some c) (hended : c'.activity = .ended) :
    ∃ outcome, Returns tr id c outcome := by
  cases h with
  | limiter _ rule => cases rule <;> cases hended
  | bulkhead _ rule => cases rule <;> cases hended
  | breaker _ rule => cases rule <;> cases hended
  | inner rule =>
    cases rule with
    | done leaving frames => exact ⟨_, hc, leaving, frames⟩
    | _ => cases hended

/-- **Every result has a known provenance.** In every course, a call of an executor that has
any layers, with any operation, returns the value or the error of its last invocation, or an
error of a layer that could give it; or it panics. -/
theorem result_provenance (hcourse : Course (.start layers attached) log tr)
    (horigin : (origins log)[id]? = some ⟨token, route layers, .operation script⟩)
    (hreturns : Returns tr id c outcome) :
    (∃ message, outcome = .panic message) ∨
      Provenance layers script log tr.tokens token id c.invocations outcome := by
  have hleaving := hcourse.call_of_origin (follows_leaving layers attached) hreturns.call horigin
    (ordered_route layers)
  exact (hleaving script rfl outcome hreturns.leaving).imp_right (·.provenance)

/-- A bulkhead with one slot and without a queue, and a circuit breaker. -/
def narrow : Layers where
  rateLimiter := none
  bulkhead := some (.new ⟨1, .zero⟩)
  circuitBreaker := some (.new .default)
  retry := none
  timeout := none

/-- An operation that takes five milliseconds. -/
def five : Operation Nat := ⟨some 5, .value (some 5), false⟩

/-- While a call runs its operation, a second one finds no slot. -/
def encounter : List (Move Nat) :=
  [.mint none, .begin 0 (route narrow) (.operation [five]), .step 0, .step 0, .step 0,
    .begin 0 (route narrow) (.operation [five]), .step 1, .elapse 5, .step 0, .step 0, .step 0]

/-- The first call returns what its only invocation returned. The second one was rejected, and
has not asked the circuit breaker. -/
theorem result_provenance_encounter :
    ∃ (log : List (Change Nat)) (tr : Traffic Nat) (c c' : Call Nat),
      Course (.start narrow .none) log tr ∧ Returns tr 0 c (.value (some 5)) ∧
      Provenance narrow [five] log tr.tokens 0 0 c.invocations (.value (some 5)) ∧
      c.invocations = 1 ∧ Returns tr 1 c' (.error (.layer .bulkheadFull)) ∧
      Provenance narrow [five] log tr.tokens 0 1 c'.invocations (.error (.layer .bulkheadFull)) ∧
      c'.invocations = 0 := by
  have hplay : ((Traffic.start narrow .none).play encounter).isSome = true := rfl
  have hcourse := Traffic.course_played hplay
  have hfirst : Returns (((Traffic.start narrow .none).play encounter).get hplay).2 0
      ⟨0, .operation [five], 1, [], .leaving (.value (some 5)), 0⟩ (.value (some 5)) :=
    ⟨rfl, rfl, rfl⟩
  have hsecond : Returns (((Traffic.start narrow .none).play encounter).get hplay).2 1
      ⟨0, .operation [five], 0, [], .leaving (.error (.layer .bulkheadFull)), 0⟩
      (.error (.layer .bulkheadFull)) :=
    ⟨rfl, rfl, rfl⟩
  have hvalue := (result_provenance hcourse rfl hfirst).resolve_left nofun
  have hfull := (result_provenance hcourse rfl hsecond).resolve_left nofun
  exact ⟨_, _, _, _, hcourse, hfirst, hvalue, rfl, hsecond, hfull, rfl⟩

end Executor

end Safeguard
