import Mathlib.Algebra.GroupWithZero.Nat
import Mathlib.Algebra.Order.BigOperators.Group.List
import Mathlib.Algebra.Order.Group.Nat
import Safeguard.Proofs.Traffic.Invocations

/-!
# Turns are whole

A call can take only so many steps in its life, however long it sleeps between them: entering a
layer costs steps, leaving it again costs some more, and the retry layer lets a call go through
what is inside as often as it has attempts. This file counts the effort that is left to a call.
Every step spends some of it and nothing else restores any, so a turn, which is given more steps
than that, goes on until the call sleeps or ends.

## Main definitions

* `Call.effort`: a bound on the steps that a call can still take.
* `Traffic.Rounds`, `Traffic.Paced`: courses in which calls take whole turns.

## Main results

* `Rule.effort_lt`: every step spends effort.
* `Traffic.Course.exists_turn`: after its turn, a call can take no step.
* `Traffic.Rounds.undivided`: nothing comes between a pause of a call and its next invocation.
* `Traffic.Paced.settle`, `Traffic.Paced.advance`: the scheduler lets calls take whole turns.
-/

namespace Safeguard

open CircuitBreaker (Permit)
open Resilience (Layers)

variable {α : Type} {tr tr' : Traffic α} {id : Nat} {c c' : Call α} {log log' : List (Change α)}
  {ls : List Layer} {attempts : Nat}

/-! ## Effort -/

/-- The steps that a layer costs a call. Another attempt costs seven: the way in takes three
without any stage, and three more for a deadline, and the pause before it has to be worth one. -/
def Layer.effort (attempts : Nat) : Layer → Nat
  | .retry => 3 + 7 * attempts
  | _ => 3

/-- The steps that stages cost. -/
def Stage.efforts (attempts : Nat) (stages : List Stage) : Nat :=
  ((stages.map Stage.owner).map (Layer.effort attempts)).sum

/-- The steps that a call still takes because of what it is inside. -/
def Frame.effort (attempts : Nat) : Frame → Nat
  | .attempt number _ => 2 + 7 * (attempts - number)
  | _ => 1

/-- The steps that a call takes before it leaves the first layer that it is inside. -/
def Activity.effort (attempts : Nat) : Activity α → Nat
  | .entering stages => 3 + Stage.efforts attempts stages
  | .awaitingTokens _ _ inner => 5 + Stage.efforts attempts inner
  | .awaitingSlot _ inner => 5 + Stage.efforts attempts inner
  | .operating .. | .racing .. | .holding => 2
  | .leaving _ => 1
  -- A pause is paid for by the attempt that follows it, or by leaving the one before.
  | .pausing _ | .ended => 0

/-- A bound on the steps that a call can still take. -/
def Call.effort (attempts : Nat) (c : Call α) : Nat :=
  c.activity.effort attempts + (c.frames.map (Frame.effort attempts)).sum

section Costs

variable (a : Nat) (stages : List Stage) (outcome : Outcome α) (due number : Nat)

@[simp] theorem Activity.effort_entering :
    (Activity.entering stages : Activity α).effort a = 3 + Stage.efforts a stages := rfl

@[simp] theorem Activity.effort_operating (op : Operation α) (due : Option Nat) :
    (Activity.operating number op due).effort a = 2 := rfl

@[simp] theorem Activity.effort_racing (run : Nat) (deadline : TokenId) :
    (Activity.racing run deadline due : Activity α).effort a = 2 := rfl

@[simp] theorem Activity.effort_holding : (Activity.holding : Activity α).effort a = 2 := rfl

@[simp] theorem Activity.effort_leaving : (Activity.leaving outcome).effort a = 1 := rfl

@[simp] theorem Activity.effort_pausing : (Activity.pausing due : Activity α).effort a = 0 := rfl

@[simp] theorem Activity.effort_ended : (Activity.ended : Activity α).effort a = 0 := rfl

@[simp] theorem Frame.effort_attempt :
    (Frame.attempt number stages).effort a = 2 + 7 * (a - number) := rfl

@[simp] theorem Stage.efforts_nil : Stage.efforts a [] = 0 := rfl

@[simp] theorem Stage.efforts_cons (st : Stage) :
    Stage.efforts a (st :: stages) = st.owner.effort a + Stage.efforts a stages := rfl

end Costs

theorem Layer.three_le_effort (attempts : Nat) (l : Layer) : 3 ≤ l.effort attempts := by
  cases l <;> simp [effort]

theorem Frame.effort_pos (attempts : Nat) (frame : Frame) : 0 < frame.effort attempts := by
  cases frame with
  | attempt number inner => exact Nat.add_pos_left Nat.two_pos _
  | _ => exact Nat.one_pos

/-- Passing a stage is cheaper than standing before it, even with a slot or a permit. -/
theorem Activity.effort_of_ahead (attempts : Nat) {a : Activity α} {st : Stage}
    {inner : List Stage} (h : a.ahead = st :: inner) :
    5 + Stage.efforts attempts inner ≤ a.effort attempts := by
  have hst := st.owner.three_le_effort attempts
  cases a with
  | entering stages =>
    obtain rfl : stages = st :: inner := h
    simp only [effort_entering, Stage.efforts_cons]
    omega
  | awaitingTokens n due rest =>
    obtain rfl := (List.cons_eq_cons.mp h).2
    exact Nat.le_refl _
  | awaitingSlot due rest =>
    obtain rfl := (List.cons_eq_cons.mp h).2
    exact Nat.le_refl _
  | _ => cases h

/-! ## Spending -/

/-- A call that pauses may start another attempt, and what it repeats is a deadline at most. -/
structure Call.Repeating (attempts : Nat) (c : Call α) : Prop where
  pausing : ∀ due, c.activity = .pausing due → ∃ number inner outside,
    c.frames = .attempt number inner :: outside ∧ number < attempts
  inner : ∀ number inner, .attempt number inner ∈ c.frames → Stage.efforts attempts inner ≤ 3

/-- A call that goes on to something cheaper, inside the same layers. -/
theorem Call.effort_lt_of_activity (hframes : c'.frames = c.frames)
    (h : c'.activity.effort attempts < c.activity.effort attempts) :
    c'.effort attempts < c.effort attempts := by
  rw [effort, effort, hframes]
  exact Nat.add_lt_add_right h _

/-- A call that enters a layer. -/
theorem Call.effort_lt_of_entered {frame : Frame} (hframes : c'.frames = frame :: c.frames)
    (h : c'.activity.effort attempts + frame.effort attempts < c.activity.effort attempts) :
    c'.effort attempts < c.effort attempts := by
  rw [effort, effort, hframes, List.map_cons, List.sum_cons]
  omega

/-- A call on its way out that leaves a layer. -/
theorem Call.effort_lt_of_left {frame : Frame} {outcome outcome' : Outcome α}
    (hframes : c.frames = frame :: c'.frames) (hleaving : c.activity = .leaving outcome)
    (hnow : c'.activity = .leaving outcome') : c'.effort attempts < c.effort attempts := by
  have hpos := frame.effort_pos attempts
  simp only [effort, hframes, hleaving, hnow, List.map_cons, List.sum_cons,
    Activity.effort_leaving]
  omega

/-- A call that passes a stage. -/
theorem Call.effort_lt_of_passed {st : Stage} {inner : List Stage}
    (hahead : c.activity.ahead = st :: inner) (hframes : c'.frames = c.frames)
    (hnow : c'.activity = .entering inner) : c'.effort attempts < c.effort attempts := by
  have hle := Activity.effort_of_ahead attempts hahead
  refine effort_lt_of_activity hframes ?_
  rw [hnow, Activity.effort_entering]
  omega

/-- A call that turns back at a stage. -/
theorem Call.effort_lt_of_refused {st : Stage} {inner : List Stage} {outcome : Outcome α}
    (hahead : c.activity.ahead = st :: inner) (hframes : c'.frames = c.frames)
    (hnow : c'.activity = .leaving outcome) : c'.effort attempts < c.effort attempts := by
  have hle := Activity.effort_of_ahead attempts hahead
  refine effort_lt_of_activity hframes ?_
  rw [hnow, Activity.effort_leaving]
  omega

/-- A call that starts to wait at a stage. -/
theorem Call.effort_lt_of_waiting {st : Stage} {inner : List Stage}
    (hentering : c.activity = .entering (st :: inner)) (hframes : c'.frames = c.frames)
    (hnow : c'.activity.effort attempts = 5 + Stage.efforts attempts inner) :
    c'.effort attempts < c.effort attempts := by
  have hst := st.owner.three_le_effort attempts
  refine effort_lt_of_activity hframes ?_
  rw [hnow, hentering, Activity.effort_entering, Stage.efforts_cons]
  omega

/-- A call that gets a slot or a permit at a stage. -/
theorem Call.effort_lt_of_admitted {st : Stage} {inner : List Stage} {frame : Frame}
    (hahead : c.activity.ahead = st :: inner) (hframes : c'.frames = frame :: c.frames)
    (hframe : frame.effort attempts = 1) (hnow : c'.activity = .entering inner) :
    c'.effort attempts < c.effort attempts := by
  have hle := Activity.effort_of_ahead attempts hahead
  refine effort_lt_of_entered hframes ?_
  rw [hnow, hframe, Activity.effort_entering]
  omega

theorem LimiterRule.effort_lt {l l' : RateLimiter Float} (h : LimiterRule tr c l l' c') :
    c'.effort attempts < c.effort attempts := by
  cases h with
  | granted ahead => exact Call.effort_lt_of_passed ahead rfl rfl
  | refused ahead => exact Call.effort_lt_of_refused ahead rfl rfl
  | @impossible st inner entering =>
    have hahead : c.activity.ahead = st :: inner := by rw [entering]; rfl
    exact Call.effort_lt_of_refused hahead rfl rfl
  | pending entering => exact Call.effort_lt_of_waiting entering rfl rfl

theorem BulkheadRule.effort_lt {b b' : Bulkhead Nat} (h : BulkheadRule tr id c b b' c') :
    c'.effort attempts < c.effort attempts := by
  have hahead : ∀ {st inner}, c.activity = .entering (st :: inner) →
      c.activity.ahead = st :: inner := fun h => by rw [h]; rfl
  have hwaiting : ∀ {due inner}, c.activity = .awaitingSlot due inner →
      c.activity.ahead = .layer .bulkhead :: inner := fun h => by rw [h]; rfl
  cases h with
  | entered entering => exact Call.effort_lt_of_admitted (hahead entering) rfl rfl rfl
  | full entering => exact Call.effort_lt_of_refused (hahead entering) rfl rfl
  | shunned entering => exact Call.effort_lt_of_refused (hahead entering) rfl rfl
  | queued entering => exact Call.effort_lt_of_waiting entering rfl rfl
  | resumed waiting => exact Call.effort_lt_of_admitted (hwaiting waiting) rfl rfl rfl
  | expired waiting => exact Call.effort_lt_of_refused (hwaiting waiting) rfl rfl
  | quit waiting => exact Call.effort_lt_of_refused (hwaiting waiting) rfl rfl
  | released leaving frames => exact Call.effort_lt_of_left frames leaving rfl

theorem BreakerRule.effort_lt {b b' : CircuitBreaker} (h : BreakerRule tr c b b' c') :
    c'.effort attempts < c.effort attempts := by
  have hahead : ∀ {st inner}, c.activity = .entering (st :: inner) →
      c.activity.ahead = st :: inner := fun h => by rw [h]; rfl
  cases h with
  | admitted entering => exact Call.effort_lt_of_admitted (hahead entering) rfl rfl rfl
  | rejected entering => exact Call.effort_lt_of_refused (hahead entering) rfl rfl
  | spoiled entering => exact Call.effort_lt_of_refused (hahead entering) rfl rfl
  | settled leaving frames => exact Call.effort_lt_of_left frames leaving rfl
  | spent leaving frames => exact Call.effort_lt_of_left frames leaving rfl

theorem InnerRule.effort_lt {runs : List (Run α)} (h : InnerRule tr id c runs c')
    (hc : c.Repeating attempts) : c'.effort attempts < c.effort attempts := by
  cases h with
  | skipped ahead => exact Call.effort_lt_of_passed ahead rfl rfl
  | quit ahead => exact Call.effort_lt_of_refused ahead rfl rfl
  | @exhausted inner _ entering =>
    have hahead : c.activity.ahead = .layer .retry :: inner := by rw [entering]; rfl
    exact Call.effort_lt_of_refused hahead rfl rfl
  | attempted entering =>
    refine Call.effort_lt_of_entered rfl ?_
    simp only [entering, Activity.effort_entering, Frame.effort_attempt, Stage.efforts_cons,
      Stage.owner, Layer.effort]
    omega
  | raced entering =>
    refine Call.effort_lt_of_activity rfl ?_
    simp only [entering, Activity.effort_entering, Activity.effort_racing]
    omega
  | invoked entering => exact Call.effort_lt_of_activity rfl (by simp [entering])
  | held entering => exact Call.effort_lt_of_activity rfl (by simp [entering])
  | idle entering => exact Call.effort_lt_of_activity rfl (by simp [entering])
  | operated operating => exact Call.effort_lt_of_activity rfl (by simp [operating])
  | won racing => exact Call.effort_lt_of_activity rfl (by simp [racing])
  | late racing => exact Call.effort_lt_of_activity rfl (by simp [racing])
  | forfeited racing => exact Call.effort_lt_of_activity rfl (by simp [racing])
  | letGo holding => exact Call.effort_lt_of_activity rfl (by simp [holding])
  | attemptLeft leaving frames => exact Call.effort_lt_of_left frames leaving rfl
  | paused leaving => exact Call.effort_lt_of_activity rfl (by simp [leaving])
  | @repeated due number inner outside pausing frames =>
    -- The next attempt is one fewer to come, which pays for the way in.
    obtain ⟨number', inner', outside', hframes, hlt⟩ := hc.pausing due pausing
    rw [frames] at hframes
    obtain ⟨rfl, rfl⟩ := Frame.attempt.inj (List.cons_eq_cons.mp hframes).1
    have hinner := hc.inner number inner (by rw [frames]; exact .head _)
    simp only [Call.effort, frames, pausing, List.map_cons, List.sum_cons, Frame.effort_attempt,
      Activity.effort_entering, Activity.effort_pausing]
    omega
  | interrupted pausing frames =>
    simp only [Call.effort, frames, pausing, List.map_cons, List.sum_cons, Frame.effort_attempt,
      Activity.effort_leaving, Activity.effort_pausing]
    omega
  | @astray due pausing frames =>
    obtain ⟨number, inner, outside, hframes, -⟩ := hc.pausing due pausing
    exact absurd hframes (frames number inner outside)
  | unowned leaving frames => exact Call.effort_lt_of_left frames leaving rfl
  | done leaving => exact Call.effort_lt_of_activity rfl (by simp [leaving])

/-- Every step spends effort. -/
theorem Rule.effort_lt {layers : Layers} {runs : List (Run α)} (h : Rule tr id c layers runs c')
    (hc : c.Repeating attempts) : c'.effort attempts < c.effort attempts := by
  cases h with
  | limiter _ rule => exact rule.effort_lt
  | bulkhead _ rule => exact rule.effort_lt
  | breaker _ rule => exact rule.effort_lt
  | inner rule => exact rule.effort_lt hc

/-! ## What is left to a call -/

/-- A call that pauses has an attempt left. -/
theorem Rule.attempt_of_pausing {layers : Layers} {runs : List (Run α)}
    (h : Rule tr id c layers runs c') {due : Nat} (hpausing : c'.activity = .pausing due) :
    ∃ number inner outside, c'.frames = .attempt number inner :: outside ∧
      number < tr.attempts := by
  cases h with
  | limiter _ rule => cases rule <;> cases hpausing
  | bulkhead _ rule => cases rule <;> cases hpausing
  | breaker _ rule => cases rule <;> cases hpausing
  | inner rule =>
    cases rule with
    | paused _ frames retry follow =>
      refine ⟨_, _, _, frames, ?_⟩
      rw [Traffic.attempts, retry]
      exact of_decide_eq_true follow
    | _ => cases hpausing

/-- What a call repeats is one stage at most. -/
theorem Call.Routed.efforts_le (h : c.Routed ls) (hls : Layer.Ordered ls) {number : Nat}
    {inner : List Stage} (hmem : .attempt number inner ∈ c.frames) :
    Stage.efforts attempts inner ≤ 3 := by
  have htimeout : ∀ l ∈ inner.map Stage.owner, l = .timeout := fun l => h.eq_timeout hls hmem
  have hordered := hls.sublist (h.attempts number inner hmem).sublist
  match inner with
  | [] => exact Nat.zero_le 3
  | [st] =>
    have hst := htimeout st.owner (.head _)
    simp [hst, Layer.effort]
  | st :: st' :: rest =>
    -- Two deadlines would be one inside the other.
    have hst := htimeout st.owner (.head _)
    have hst' := htimeout st'.owner (.tail _ (.head _))
    simp [hst, hst'] at hordered

/-- The layers of a route, in their order, cost at most this. -/
theorem Layer.Ordered.effort_le (h : Layer.Ordered ls) :
    (ls.map (Layer.effort attempts)).sum ≤ 15 + 7 * attempts := by
  have hnodup : ls.Nodup := h.imp fun hlt heq => by simp [heq] at hlt
  have hall : ls ⊆ Layer.all := fun l _ => by cases l <;> decide
  obtain ⟨ls', hperm, hsublist⟩ := List.subperm_of_subset hnodup hall
  have hsum := (hsublist.map (Layer.effort attempts)).sum_le_sum fun _ _ => Nat.zero_le _
  rw [(hperm.map _).sum_eq] at hsum
  -- Each layer is there at most once, so the route costs no more than all five do.
  refine hsum.trans (Nat.le_of_eq ?_)
  simp only [Layer.all, Layer.effort, List.map_cons, List.map_nil, List.sum_cons, List.sum_nil]
  omega

namespace Traffic

variable {m : Move α} {layers : Layers} {attached : Attachments} {tr₀ : Traffic α}

theorem Course.attempts_eq (h : Course tr₀ log tr) : tr.attempts = tr₀.attempts :=
  h.keeps fun heffect => by rw [attempts, attempts, heffect.policies_eq.1]

/-- A call that pauses has an attempt left, at every moment. -/
theorem follows_pausing (tr₀ : Traffic α) : Follows tr₀ fun _ _ _ _ c =>
    ∀ due, c.activity = .pausing due → ∃ number inner outside,
      c.frames = .attempt number inner :: outside ∧ number < tr₀.attempts where
  begun _ := nofun
  stepped := by
    intro o log tr tr' id c c' hcourse _ _ hstep _ due hpausing
    rw [← hcourse.attempts_eq]
    exact hstep.rule.attempt_of_pausing hpausing
  dropped _ _ _ _ := nofun
  told _ _ _ h := h
  other _ _ _ _ _ _ h := h

variable {o : Origin α}

theorem Course.repeating (h : Course (.start layers attached) log tr) (hc : tr.calls[id]? = some c)
    (ho : (origins log)[id]? = some o) (hls : Layer.Ordered (o.stages.map Stage.owner)) :
    c.Repeating tr.attempts where
  pausing := by
    rw [h.attempts_eq]
    exact h.call_of_origin (follows_pausing _) hc ho
  inner _ _ := (h.call_of_origin (follows_route _) hc ho hls).1.efforts_le hls

/-- A call never has more effort left than it started with. -/
theorem follows_effort (layers : Layers) (attached : Attachments) :
    Follows (.start layers attached) fun o _ tr _ (c : Call α) =>
      Layer.Ordered (o.stages.map Stage.owner) →
        c.effort tr.attempts ≤ 3 + Stage.efforts tr.attempts o.stages where
  begun _ _ := Nat.le_refl _
  stepped := by
    intro o log tr tr' id c c' hcourse ho hc hstep ih hls
    have hlt := hstep.rule.effort_lt (hcourse.repeating hc ho hls)
    have hsame : tr'.attempts = tr.attempts := by
      rw [attempts, attempts, (Effect.stepped hc hstep).policies_eq.1]
    rw [hsame]
    exact Nat.le_trans (Nat.le_of_lt hlt) (ih hls)
  dropped _ _ _ _ _ := Nat.zero_le _
  told _ heffect _ h := by rw [attempts, heffect.policies_eq.1]; exact h
  other _ heffect _ _ _ _ h := by rw [attempts, heffect.policies_eq.1]; exact h

/-- A call has less effort left than the steps that it is given in a turn. -/
theorem Course.effort_le (h : Course (.start layers attached) log tr)
    (hc : tr.calls[id]? = some c) (ho : (origins log)[id]? = some o)
    (hls : Layer.Ordered (o.stages.map Stage.owner)) : c.effort tr.attempts ≤ tr.turnBound := by
  have hstart := h.call_of_origin (follows_effort _ _) hc ho hls
  have hroute : Stage.efforts tr.attempts o.stages ≤ 15 + 7 * tr.attempts := hls.effort_le
  unfold turnBound
  omega

/-! ## Turns -/

theorem origins_step (log : List (Change α)) (tr tr' : Traffic α) (id : Nat) :
    origins (log ++ [⟨tr, .step id, tr'⟩]) = origins log := by
  rw [origins_snoc]
  exact List.append_nil _

theorem Course.effort_lt_of_step (h : Course (.start layers attached) log tr)
    (hls : ∀ o, (origins log)[id]? = some o → Layer.Ordered (o.stages.map Stage.owner))
    (hstep : tr.step id = some tr') :
    ∃ c c', tr.calls[id]? = some c ∧ tr'.calls[id]? = some c' ∧
      c'.effort tr'.attempts < c.effort tr.attempts := by
  have heffect : Effect tr (.step id) tr' := effect_of_move hstep
  have hsame : tr'.attempts = tr.attempts := by rw [attempts, attempts, heffect.policies_eq.1]
  cases heffect with
  | @stepped _ c c' _ hc hstepped =>
    obtain ⟨o, ho, -⟩ := h.call (follows_effort _ _) hc
    refine ⟨c, c', hc, hstepped.call hc, ?_⟩
    rw [hsame]
    exact hstepped.rule.effort_lt (h.repeating hc ho (hls o ho))
  | aside kind => cases kind

/-- Steps of a call are a course. If it may take as many as it has effort left, it goes on until
it can take no other. -/
theorem Course.exists_proceed (h : Course (.start layers attached) log tr)
    (hls : ∀ o, (origins log)[id]? = some o → Layer.Ordered (o.stages.map Stage.owner)) {fuel : Nat}
    (hfuel : ∀ c, tr.calls[id]? = some c → c.effort tr.attempts ≤ fuel) :
    ∃ steps, Course tr steps (proceed fuel tr id) ∧ (∀ ch ∈ steps, ch.move = .step id) ∧
      (proceed fuel tr id).step id = none := by
  induction fuel generalizing tr log with
  | zero =>
    -- Another step would spend effort that the call does not have.
    have hrests : tr.step id = none := by
      refine Option.eq_none_iff_forall_ne_some.mpr fun tr' hstep => ?_
      obtain ⟨c, c', hc, -, hlt⟩ := h.effort_lt_of_step hls hstep
      have hle := hfuel c hc
      omega
    exact ⟨[], .start, fun _ hch => absurd hch List.not_mem_nil, hrests⟩
  | succ fuel ih =>
    unfold proceed
    split
    · rename_i hrests
      exact ⟨[], .start, fun _ hch => absurd hch List.not_mem_nil, hrests⟩
    · rename_i tr' hstep
      have hm : tr.move (.step id) = some tr' := hstep
      obtain ⟨c, c', hc, hc', hlt⟩ := h.effort_lt_of_step hls hstep
      have hleft : ∀ c₀, tr'.calls[id]? = some c₀ → c₀.effort tr'.attempts ≤ fuel := by
        intro c₀ hc₀
        obtain rfl := Option.some.inj (hc'.symm.trans hc₀)
        exact Nat.le_of_lt_succ (Nat.lt_of_lt_of_le hlt (hfuel c hc))
      obtain ⟨steps, hsteps, hown, hrests⟩ := ih (h.move hm) (by rwa [origins_step]) hleft
      refine ⟨_, (Course.of_move hm).append hsteps, fun ch hch => ?_, hrests⟩
      obtain hch | hch := List.mem_append.mp hch
      · rw [List.mem_singleton.mp hch]
      · exact hown ch hch

/-- **A turn is whole.** When a call whose layers are in their order had its turn, it sleeps or
has ended. -/
theorem Course.exists_turn (h : Course (.start layers attached) log tr)
    (hls : ∀ o, (origins log)[id]? = some o → Layer.Ordered (o.stages.map Stage.owner)) :
    ∃ steps, Course tr steps (tr.turn (.call id)) ∧ (∀ ch ∈ steps, ch.move = .step id) ∧
      (tr.turn (.call id)).step id = none := by
  refine h.exists_proceed hls fun c hc => ?_
  obtain ⟨o, ho, -⟩ := h.call (follows_effort _ _) hc
  exact h.effort_le hc ho (hls o ho)

/-! ## What changes do with a call -/

/-- What a change does with a call that there is. -/
inductive Fares (tr : Traffic α) (m : Move α) (tr' : Traffic α) (id : Nat) (c : Call α) :
    Call α → Prop where
  | stepped {c' : Call α} (hm : m = .step id) (h : Stepped tr id c tr' c') : Fares tr m tr' id c c'
  | dropped (hm : m = .drop id) : Fares tr m tr' id c { c with frames := [], activity := .ended }
  | told (hm : m ≠ .step id) : Fares tr m tr' id c { c with work := .hold true }
  | kept (hm : m ≠ .step id) : Fares tr m tr' id c c

theorem Effect.exists_fares (h : Effect tr m tr') (hc : tr.calls[id]? = some c) :
    ∃ c', tr'.calls[id]? = some c' ∧ Fares tr m tr' id c c' := by
  have hlt := (List.getElem?_eq_some_iff.mp hc).1
  cases h with
  | @stepped i c₀ c' _ hc₀ hstep =>
    by_cases hi : i = id
    · subst hi
      obtain rfl := Option.some.inj (hc.symm.trans hc₀)
      exact ⟨c', hstep.call hc, .stepped rfl hstep⟩
    · refine ⟨c, by rw [hstep.calls, List.getElem?_set_ne hi, hc], .kept fun h => ?_⟩
      exact hi (Move.step.inj h)
  | begun => exact ⟨c, by rw [List.getElem?_append_left hlt, hc], .kept nofun⟩
  | @dropped i c₀ _ hc₀ _ hdropped =>
    by_cases hi : i = id
    · subst hi
      obtain rfl := Option.some.inj (hc.symm.trans hc₀)
      exact ⟨_, by rw [hdropped.calls, List.getElem?_set_self hlt], .dropped rfl⟩
    · exact ⟨c, by rw [hdropped.calls, List.getElem?_set_ne hi, hc], .kept nofun⟩
  | @told i c₀ hc₀ =>
    by_cases hi : i = id
    · subst hi
      obtain rfl := Option.some.inj (hc.symm.trans hc₀)
      exact ⟨_, List.getElem?_set_self hlt, .told nofun⟩
    · exact ⟨c, by rw [List.getElem?_set_ne hi, hc], .kept nofun⟩
  | aside kind haside =>
    refine ⟨c, by rw [haside.calls, hc], .kept ?_⟩
    rintro rfl
    cases kind
  | _ => exact ⟨c, hc, .kept nofun⟩

/-- What became of a call that there is still. -/
theorem Effect.fares (h : Effect tr m tr') (hc : tr.calls[id]? = some c)
    (hc' : tr'.calls[id]? = some c') : Fares tr m tr' id c c' := by
  obtain ⟨c₁, hc₁, hfares⟩ := h.exists_fares hc
  obtain rfl := Option.some.inj (hc₁.symm.trans hc')
  exact hfares

/-- A call that there was not starts now. -/
theorem Effect.begins_of_new (h : Effect tr m tr') (hnone : tr.calls[id]? = none)
    (hc : tr'.calls[id]? = some c) : ∃ token stages work, m = .begin token stages work ∧
      c = ⟨token, work, 0, [], .entering stages, 0⟩ := by
  have hle := List.getElem?_eq_none_iff.mp hnone
  have hold : tr'.calls.length = tr.calls.length → False := by
    intro hlength
    have hlt := (List.getElem?_eq_some_iff.mp hc).1
    omega
  cases h with
  | begun token stages work =>
    rw [List.getElem?_append_right hle] at hc
    obtain rfl := List.mem_singleton.mp (List.mem_of_getElem? hc)
    exact ⟨token, stages, work, rfl, rfl⟩
  | stepped _ hstep => exact (hold (by rw [hstep.calls, List.length_set])).elim
  | dropped _ _ hdropped => exact (hold (by rw [hdropped.calls, List.length_set])).elim
  | told => exact (hold List.length_set).elim
  | aside _ haside => exact (hold (by rw [haside.calls])).elim
  | _ => exact (hold rfl).elim

/-- It has invoked nothing. -/
theorem Effect.uninvoked_of_new (h : Effect tr m tr') (hnone : tr.calls[id]? = none)
    (hc : tr'.calls[id]? = some c) : c.invocations = 0 := by
  obtain ⟨token, stages, work, -, rfl⟩ := h.begins_of_new hnone hc
  rfl

/-! ## Whole turns -/

/-- Moves one after the other in which a call that takes steps takes a whole turn: it goes on
until it sleeps or ends. -/
inductive Rounds (tr₀ : Traffic α) : List (Change α) → Traffic α → Prop where
  | start : Rounds tr₀ [] tr₀
  | turn {log steps : List (Change α)} {tr tr' : Traffic α} (id : Nat) (h : Rounds tr₀ log tr)
      (hsteps : Course tr steps tr') (own : ∀ ch ∈ steps, ch.move = .step id)
      (rests : tr'.step id = none) : Rounds tr₀ (log ++ steps) tr'
  | move {log : List (Change α)} {tr tr' : Traffic α} {m : Move α} (h : Rounds tr₀ log tr)
      (hm : tr.move m = some tr') (other : ∀ id, m ≠ .step id) :
      Rounds tr₀ (log ++ [⟨tr, m, tr'⟩]) tr'

theorem Rounds.course (h : Rounds tr₀ log tr) : Course tr₀ log tr := by
  induction h with
  | start => exact .start
  | turn _ _ hsteps _ _ ih => exact ih.append hsteps
  | move _ hm _ ih => exact ih.move hm

/-- Steps of a call leave all other calls alone, at every moment. -/
theorem Course.call_of_own {steps : List (Change α)} (h : Course tr steps tr') {i : Nat}
    (hown : ∀ ch ∈ steps, ch.move = .step i) (hi : i ≠ id) :
    tr'.calls[id]? = tr.calls[id]? ∧ ∀ ch ∈ steps, ch.before.calls[id]? = tr.calls[id]? := by
  induction h with
  | start => exact ⟨rfl, fun _ hch => absurd hch List.not_mem_nil⟩
  | @move steps tr₁ tr₂ m _ hm ih =>
    obtain ⟨hnow, hbefore⟩ := ih fun ch hch => hown ch (List.mem_append_left _ hch)
    constructor
    · rw [← hnow]
      obtain rfl : m = .step i := hown ⟨tr₁, m, tr₂⟩ (List.mem_append_right _ (.head _))
      cases effect_of_move hm with
      | stepped _ hstep => rw [hstep.calls, List.getElem?_set_ne hi]
      | aside kind => cases kind
    · intro ch hch
      obtain hch | hch := List.mem_append.mp hch
      · exact hbefore ch hch
      · rwa [List.mem_singleton.mp hch]

/-- Between whole turns, only a call that has not begun stands before a stage. -/
theorem Rounds.uninvoked (h : Rounds (.start layers attached) log tr)
    (hc : tr.calls[id]? = some c) {stages : List Stage}
    (hentering : c.activity = .entering stages) : c.invocations = 0 := by
  induction h generalizing c with
  | start => cases hc
  | @turn log steps tr tr' i _ hsteps hown hrests ih =>
    by_cases hi : i = id
    · subst hi
      simp only [step, hc, Option.bind_eq_bind, Option.bind_some, hentering] at hrests
      cases hrests
    · exact ih ((hsteps.call_of_own hown hi).1.symm.trans hc) hentering
  | @move log tr tr' m _ hm hother ih =>
    have heffect := effect_of_move hm
    cases hbefore : tr.calls[id]? with
    | none => exact heffect.uninvoked_of_new hbefore hc
    | some c₀ =>
      cases heffect.fares hbefore hc with
      | stepped hm => exact absurd hm (hother id)
      | dropped => cases hentering
      | told =>
        have huninvoked := ih hbefore hentering
        exact huninvoked
      | kept => exact ih hbefore hentering

/-- While a call that has invoked its operation is on its way to the next invocation, nothing
else cancels its caller's token. From the end of a pause to the invocation a call goes in one
turn. -/
def Undivided (log : List (Change α)) (id : Nat) : Prop :=
  ∀ ch ∈ log, ch.move ≠ .step id → ∀ c stages, ch.before.calls[id]? = some c →
    c.activity = .entering stages → 0 < c.invocations → ch.after.givenUp c = true →
      ch.before.givenUp c = true

/-- Nothing at all happens on that way, if calls take whole turns. -/
theorem Rounds.undivided (h : Rounds (.start layers attached) log tr) (id : Nat) :
    Undivided log id := by
  induction h with
  | start => exact fun _ hch => absurd hch List.not_mem_nil
  | @turn log steps tr tr' i hrounds hsteps hown _ ih =>
    intro ch hch hm c stages hc hentering hpos
    obtain hch | hch := List.mem_append.mp hch
    · exact ih ch hch hm c stages hc hentering hpos
    · have hi : i ≠ id := by
        rintro rfl
        exact hm (hown ch hch)
      rw [(hsteps.call_of_own hown hi).2 ch hch] at hc
      exact absurd (hrounds.uninvoked hc hentering) hpos.ne'
  | move hrounds _ _ ih =>
    intro ch hch hm c stages hc hentering hpos
    obtain hch | hch := List.mem_append.mp hch
    · exact ih ch hch hm c stages hc hentering hpos
    · rw [List.mem_singleton.mp hch] at hc
      exact absurd (hrounds.uninvoked hc hentering) hpos.ne'

/-- Whole turns lead to this moment, and all calls so far have their layers in their order. -/
def Paced (tr₀ tr : Traffic α) : Prop :=
  ∃ log, Rounds tr₀ log tr ∧ ∀ o ∈ origins log, Layer.Ordered (o.stages.map Stage.owner)

theorem Paced.start (tr₀ : Traffic α) : Paced tr₀ tr₀ :=
  ⟨[], .start, fun _ ho => absurd ho List.not_mem_nil⟩

/-- Whole turns are a course. -/
theorem Paced.reaches (h : Paced tr₀ tr) : Reaches tr₀ tr := by
  obtain ⟨log, hrounds, -⟩ := h
  exact ⟨log, hrounds.course⟩

/-- A move that is no step of a call and starts none. -/
theorem Paced.move (h : Paced tr₀ tr) (hm : tr.move m = some tr') (hother : ∀ id, m ≠ .step id)
    (hold : (⟨tr, m, tr'⟩ : Change α).origin? = none) : Paced tr₀ tr' := by
  obtain ⟨log, hrounds, hls⟩ := h
  refine ⟨_, hrounds.move hm hother, ?_⟩
  rwa [origins_snoc, hold, Option.toList_none, List.append_nil]

/-- A call starts that has its layers in their order. -/
theorem Paced.begin (h : Paced tr₀ tr) (token : TokenId) {stages : List Stage} (work : Work α)
    (hstages : Layer.Ordered (stages.map Stage.owner)) :
    Paced tr₀ (tr.begin token stages work) := by
  obtain ⟨log, hrounds, hls⟩ := h
  refine ⟨_, hrounds.move (m := .begin token stages work) rfl nofun, fun o ho => ?_⟩
  rw [origins_append] at ho
  obtain ho | ho := List.mem_append.mp ho
  · exact hls o ho
  · obtain rfl := List.mem_singleton.mp ho
    exact hstages

/-! ### The scheduler -/

theorem Paced.turn (h : Paced (.start layers attached) tr) (t : Task) :
    Paced (.start layers attached) (tr.turn t) := by
  cases t with
  | run id => exact h.move (m := .look id) rfl nofun rfl
  | call id =>
    obtain ⟨log, hrounds, hls⟩ := h
    obtain ⟨steps, hsteps, hown, hrests⟩ := hrounds.course.exists_turn
      fun o ho => hls o (List.mem_of_getElem? ho)
    refine ⟨_, hrounds.turn id hsteps hown hrests, ?_⟩
    -- Steps start no calls.
    have hnone : steps.filterMap Change.origin? = [] := by
      refine List.filterMap_eq_nil_iff.mpr fun ch hch => ?_
      rw [Change.origin?, hown ch hch]
    rwa [origins, List.filterMap_append, hnone, List.append_nil]

theorem Paced.turns (h : Paced (.start layers attached) tr) (fuel : Nat) :
    Paced (.start layers attached) (turns fuel tr) := by
  induction fuel generalizing tr with
  | zero => exact h
  | succ fuel ih =>
    unfold Traffic.turns
    split
    · exact h
    · rename_i t rest _
      have harranged := h.move (m := .arrange rest) rfl nofun rfl
      exact ih (harranged.turn t)

/-- The scheduler lets calls take whole turns. -/
theorem Paced.settle (h : Paced (.start layers attached) tr) :
    Paced (.start layers attached) tr.settle :=
  h.turns _

theorem Paced.clock (h : Paced tr₀ tr) {clock : Nat} (hle : tr.clock ≤ clock) :
    Paced tr₀ { tr with clock := clock } := by
  refine h.move (m := .elapse (clock - tr.clock)) ?_ nofun rfl
  simp only [Traffic.move, Nat.add_sub_cancel' hle]

/-- When the clock strikes, tasks are woken. -/
theorem exists_strike (tr : Traffic α) (clock : Nat) :
    ∃ ready, tr.strike clock = { tr with clock := clock, ready := ready } :=
  exists_foldl exists_wake
    (sleepers { tr with clock := clock } (fun c => c.activity.due?.elim false (· ≤ clock))
      (fun r => r.due?.elim false (· ≤ clock))) { tr with clock := clock }

theorem Paced.strike (h : Paced tr₀ tr) {clock : Nat} (hle : tr.clock ≤ clock) :
    Paced tr₀ (tr.strike clock) := by
  obtain ⟨ready, hstrike⟩ := tr.exists_strike clock
  rw [hstrike]
  exact (h.clock hle).move (m := .arrange ready) rfl nofun rfl

theorem Paced.advanceTo (h : Paced (.start layers attached) tr) (fuel target : Nat) :
    Paced (.start layers attached) (advanceTo fuel tr target) := by
  have hmax := h.clock (Nat.le_max_left tr.clock target)
  induction fuel generalizing tr with
  | zero => exact hmax
  | succ fuel ih =>
    unfold Traffic.advanceTo
    split
    · exact hmax
    · rename_i due _
      split
      -- The clock strikes, all turns that are due are taken, and the rest of the time passes.
      · have hsettled := (h.strike (Nat.le_max_left tr.clock due)).settle
        exact ih hsettled (hsettled.clock (Nat.le_max_left ..))
      · exact hmax

/-- So it does while time passes. -/
theorem Paced.advance (h : Paced (.start layers attached) tr) (millis : Nat) :
    Paced (.start layers attached) (tr.advance millis) :=
  h.advanceTo _ _

end Traffic

end Safeguard
