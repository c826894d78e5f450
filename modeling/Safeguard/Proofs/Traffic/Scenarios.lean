import Safeguard.Proofs.CircuitBreaker.Slots
import Safeguard.Proofs.Traffic.Steps
import Safeguard.Proofs.Traffic.Turns
import Safeguard.Scenario.Report

/-!
# Scenarios

Whatever the callers of a scenario do, and whatever its calls do when they get their
turns, is a course, and one in which calls take whole turns. In every course the circuit breaker
goes through a run of a ledger, with acts at the times of the clock. So what holds of every
course, of whole turns, and of every run of a breaker, holds of every scenario.

## Main results

* `Scenario.paced_trafficAfter`: in every scenario, calls take whole turns.
* `Traffic.recounts_move`: of every move the hook is told what it changes, unless the move
  throws the records away.
* `Traffic.Reaches.leads`: every course is a run of the ledger.
* `Scenario.describedBy_trafficAfter`: a ledger describes the breaker of every scenario.
* `Scenario.countP_permits_le`: in every scenario the calls that hold a permit of the
  current half-open period are at most as many as allowed.
-/

namespace Safeguard

open CircuitBreaker (Permit Transition Ledger)
open CircuitBreaker.Ledger (Act Entry Progress)
open Resilience (Layers)

namespace Traffic

variable {α : Type} {tr tr' : Traffic α} {l : Ledger}

/-! ## Courses as runs of the ledger -/

theorem Leads.refl (tr : Traffic α) : Leads tr tr := (Still.refl tr).quiet.recounts.leads

/-- Time may pass and calls stay as they are: no act. -/
theorem describedBy_of_calls (hclock : tr.clock ≤ tr'.clock)
    (hb : tr'.layers.circuitBreaker = tr.layers.circuitBreaker) (hcalls : tr'.calls = tr.calls)
    (hl : tr.DescribedBy l) : tr'.DescribedBy l ∧ Ledger.Spans tr.now tr'.now [] := by
  have hpermits : tr'.permits = tr.permits := by simp only [Traffic.permits, hcalls]
  refine ⟨⟨hb.trans hl.breaker, ?_⟩, Nat.mul_le_mul_right nanosPerMilli hclock⟩
  rw [hpermits]
  exact hl.permits

theorem recounts_abort (tr : Traffic α) (id : Nat) : Recounts tr (tr.abort id) := by
  unfold abort
  split
  · exact recounts_abandon tr id
  · exact (Still.refl tr).quiet.recounts

/-- Using the breaker is an act, and looks of the hook. -/
theorem recounts_changeBreaker {b : CircuitBreaker}
    {use : CircuitBreaker → Instant → CircuitBreaker × Option Transition} {a : Act}
    (huse : ∀ (l : Ledger) now, l.step now a = some (l.after (use l.breaker now)))
    (hb : tr.layers.circuitBreaker = some b) :
    Recounts tr (tr.changeBreaker none (use b tr.now).1 (use b tr.now).2).1 := by
  intro l hl
  obtain rfl : l.breaker = b := Option.some.inj (hl.breaker.symm.trans hb)
  obtain ⟨acts, l', hlook⟩ := looked_changeBreaker
    (show (l.after (use l.breaker tr.now)).breaker = (use l.breaker tr.now).1 from rfl)
    tr none (use l.breaker tr.now).2
  have hacted := hlook.toActed.cons (huse l tr.now) rfl
  exact ⟨_, l', hacted.run, hlook.describedBy hl.permits, hacted.spans, hacted.toReports⟩

/-- A use of the breaker, as an act. -/
def act : BreakerUse → Act
  | .observe => .observe
  | .reset => .reset
  | .forceOpen => .forceOpen

theorem step_act (use : BreakerUse) (l : Ledger) (now : Instant) :
    l.step now (act use) = some (l.after (use.apply l.breaker now)) := by
  cases use <;> rfl

theorem transitions_turnRun (tr : Traffic α) (id : Nat) :
    (tr.turnRun id).trace.transitions = tr.trace.transitions := by
  unfold turnRun
  split
  · rfl
  · rename_i r _
    extract_lets look
    have hlook : ∀ due stamp, (look due stamp).trace.transitions = tr.trace.transitions := by
      intro due stamp
      unfold look
      split
      · dsimp only
        split
        · split
          · exact (still_wake _ _).transitions
          · rfl
        · rfl
      · split <;> rfl
    split
    · exact hlook _ _
    · exact hlook _ _
    · rfl

/-- Moves aside tell no hook of anything. -/
theorem transitions_of_aside {m : Move α} (hm : tr.move m = some tr') (hkind : m.isAside = true)
    (hkeeps : m ≠ .clear) : tr'.trace.transitions = tr.trace.transitions := by
  cases m with
  | look run =>
    obtain rfl := Option.some.inj hm
    exact transitions_turnRun tr run
  | letGo id =>
    obtain rfl := Option.some.inj hm
    unfold letGo
    split
    · rfl
    · split
      · dsimp only
        split
        · exact (still_wake _ _).transitions
        · rfl
      · rfl
  | cancel token =>
    obtain rfl := Option.some.inj hm
    exact (still_cancelToken tr token).transitions
  | mint parent =>
    cases parent with
    | none =>
      obtain rfl := Option.some.inj hm
      rfl
    | some parent =>
      obtain rfl := Option.some.inj hm
      rfl
  | elapse millis =>
    obtain rfl := Option.some.inj hm
    rfl
  | arrange ready =>
    obtain rfl := Option.some.inj hm
    rfl
  | clear => exact absurd rfl hkeeps
  | _ => cases hkind

/-- Every move that keeps the records is a run of the ledger, and the hook is told of it. -/
theorem recounts_move {m : Move α} (h : tr.move m = some tr') (hkeeps : m ≠ .clear) :
    Recounts tr tr' := by
  cases effect_of_move h with
  | stepped => exact recounts_step h
  | begun token stages work ready =>
    refine Quiet.recounts ⟨rfl, rfl, ?_, rfl, rfl⟩
    simp [Traffic.permits, Call.permits, Frame.permits]
  | @dropped id =>
    obtain rfl := Option.some.inj h
    exact recounts_abort tr id
  | @told id c hc _ ready =>
    have htold : Quiet tr (tr.setCall id { c with work := .hold true }) :=
      (Still.refl tr).setCall hc rfl
    exact Quiet.recounts ⟨htold.clock, htold.breaker, htold.permits, rfl, rfl⟩
  | limiter use => exact (still_setLimiter tr _).quiet.recounts
  | breaker use hb =>
    simp only [move, hb, Option.map_some] at h
    rw [← Option.some.inj h]
    exact recounts_changeBreaker (step_act use) hb
  | idle => exact (Still.refl tr).quiet.recounts
  | aside hkind haside =>
    intro l hl
    obtain ⟨hl', hspan⟩ :=
      describedBy_of_calls haside.clock (by rw [haside.layers]) haside.calls hl
    exact ⟨[], l, rfl, hl', hspan,
      reports_same haside.attached (transitions_of_aside h hkind hkeeps)⟩

/-- Every move is a run of the ledger. -/
theorem leads_move {m : Move α} (h : tr.move m = some tr') : Leads tr tr' := by
  by_cases hclear : m = .clear
  · subst hclear
    obtain rfl := Option.some.inj h
    intro l hl
    exact ⟨[], l, rfl, describedBy_of_calls (Nat.le_refl _) rfl rfl hl⟩
  · exact (recounts_move h hclear).leads

/-- Every course is a run of the ledger. -/
theorem Reaches.leads (h : Reaches tr tr') : Leads tr tr' := by
  obtain ⟨log, h⟩ := h
  induction h with
  | start => exact .refl tr
  | move _ hm ih => exact ih.trans (leads_move hm)

end Traffic

/-- Calls that hold a permit of the current period are probes of it that have not
ended. -/
theorem CircuitBreaker.Ledger.countP_permits_le_unfinishedProbes
    {c : CircuitBreaker.Config} {l : Ledger} (h : Ledger.Dated c l) :
    (l.permits.countP fun p => p.probe = some l.breaker.period) ≤ l.unfinishedProbes := by
  rw [Ledger.permits, List.countP_filterMap, Ledger.unfinishedProbes, Ledger.probesThat]
  refine List.countP_mono_left fun e he hp => ?_
  by_cases hrun : e.progress = .running
  · simp only [Entry.permit?, if_pos hrun, Option.map_some, Option.getD_some,
      decide_eq_true_eq] at hp
    simp [(h.probe_eq_some_period_iff he).mp hp, hrun, Progress.unfinished]
  · simp [Entry.permit?, hrun] at hp

/-! ## Steps of scenarios -/

/-- The stages of a call that a caller starts are in their order. -/
theorem Scenario.Target.ordered_stages (target : Scenario.Target) (layers : Layers) :
    Layer.Ordered ((target.stages layers.present).map Stage.owner) := by
  -- Layers that are present are in the order of all layers, and so are some of them.
  have hfilter (p : Layer → Bool) :
      Layer.Ordered (((layers.present.filter p).map Stage.layer).map Stage.owner) := by
    rw [Stage.map_owner_layer]
    exact .of_sublist (List.filter_sublist.trans List.filter_sublist)
  cases target with
  | all => exact hfilter _
  | group listed => exact hfilter _
  | alone l => exact List.pairwise_singleton _ _

namespace Session

open Scenario
open Traffic (Paced)

variable {α : Type} {tr₀ tr : Traffic α} {s : Session α}

theorem paced_giveName (h : Paced tr₀ s.traffic) (name : TokenName) :
    Paced tr₀ (s.giveName name s.traffic.tokens.root).1.traffic ∧
      ∀ parent, Paced tr₀ (s.giveName name (s.traffic.tokens.child parent 1)).1.traffic :=
  ⟨h.move (m := .mint none) rfl nofun rfl,
    fun parent => h.move (m := .mint (some parent)) rfl nofun rfl⟩

theorem paced_token (h : Paced tr₀ s.traffic) (name : TokenName) :
    Paced tr₀ (s.token name).1.traffic := by
  -- A token is made under its parent, and the parent first if need be.
  induction name with
  | nil => exact (paced_giveName h []).1
  | cons part above ih =>
    unfold token
    split
    · exact h
    · split
      · exact (paced_giveName h [part]).1
      · exact (paced_giveName ih _).2 _

theorem paced_begin (h : Paced tr₀ s.traffic) (token : TokenName) {stages : List Stage}
    (work : Work α) (hstages : Layer.Ordered (stages.map Stage.owner)) :
    Paced tr₀ (s.begin token stages work).1.traffic :=
  (paced_token h token).begin _ work hstages

theorem paced_setLimiter (h : Paced tr₀ tr) (use : LimiterUse) {l : RateLimiter Float}
    (hl : tr.layers.rateLimiter = some l) :
    Paced tr₀ (tr.setLimiter (use.apply l tr.now)) :=
  h.move (m := .limiter use) (by simp only [Traffic.move, hl, Option.map_some]) nofun rfl

theorem paced_changeBreaker (h : Paced tr₀ tr) (use : BreakerUse) {b : CircuitBreaker}
    (hb : tr.layers.circuitBreaker = some b) :
    Paced tr₀ (tr.changeBreaker none (use.apply b tr.now).1 (use.apply b tr.now).2).1 :=
  h.move (m := .breaker use) (by simp only [Traffic.move, hb, Option.map_some]) nofun rfl

theorem paced_onLimiter (h : Paced tr₀ s.traffic) (use : LimiterUse)
    {apply : RateLimiter Float → Instant → RateLimiter Float × Reply}
    (happly : ∀ l now, (apply l now).1 = use.apply l now) :
    Paced tr₀ (s.onLimiter apply).1.traffic := by
  unfold onLimiter
  split
  · exact h
  · rename_i l hl
    have hused := paced_setLimiter h use hl
    rw [← happly] at hused
    exact hused

theorem paced_onBreaker (h : Paced tr₀ s.traffic) (use : BreakerUse)
    (reply : CircuitBreaker → Reply) : Paced tr₀ (s.onBreaker use.apply reply).1.traffic := by
  unfold onBreaker
  split
  · exact h
  · rename_i b hb
    exact paced_changeBreaker h use hb

theorem paced_metrics (h : Paced tr₀ s.traffic) (target : Target) :
    Paced tr₀ (s.metrics target).1.traffic := by
  unfold metrics
  dsimp only
  split
  · rename_i b hb _
    -- The rate limiter is looked at before the circuit breaker.
    refine paced_changeBreaker ?_ .observe hb
    split
    · rename_i hl _
      exact paced_setLimiter h .level hl
    · exact h
  · split
    · rename_i hl _
      exact paced_setLimiter h .level hl
    · exact h

variable {layers : Layers} {attached : Attachments}

/-- Callers do one thing after the other, between the turns of calls. -/
theorem paced_apply (h : Paced (.start layers attached) s.traffic) (step : Step α) :
    Paced (.start layers attached) (s.apply step).1.traffic := by
  cases step with
  | call target token script => exact paced_begin h token _ (target.ordered_stages _)
  | acquire token => exact paced_begin h token _ (List.pairwise_singleton _ _)
  | wait n token => exact paced_begin h token _ (List.pairwise_singleton _ _)
  | release call => exact h.move (m := .letGo call) rfl nofun rfl
  | abort call => exact h.move (m := .drop call) rfl nofun rfl
  | cancel token => exact (paced_token h token).move (m := .cancel _) rfl nofun rfl
  | advance millis => exact h.advance millis
  | allow n => exact paced_onLimiter h (.allow n) fun _ _ => rfl
  | tokens => exact paced_onLimiter h .level fun _ _ => rfl
  | resetLimiter => exact paced_onLimiter h .reset fun _ _ => rfl
  | limiterMetrics => exact paced_onLimiter h .level fun _ _ => rfl
  | bulkheadMetrics => exact h
  | state => exact paced_onBreaker h .observe _
  | breakerMetrics => exact paced_onBreaker h .observe _
  | resetBreaker => exact paced_onBreaker h .reset _
  | forceOpen => exact paced_onBreaker h .forceOpen _
  | metrics target => exact paced_metrics h target
  | inspect => exact h

/-- In a step of a scenario, calls take whole turns. -/
theorem paced_perform (h : Paced (.start layers attached) s.traffic) (step : Step α) :
    Paced (.start layers attached) (s.perform step).1.traffic :=
  (paced_apply h step).settle

end Session

namespace Scenario

open CircuitBreaker (Config)
open Traffic (Paced)

variable {α : Type} {config : Resilience.Config} {c : Config} {layers : Layers}
  {attached : Attachments}

theorem paced_rows (timeless : Bool) {s : Session α}
    (h : Paced (.start layers attached) s.traffic) (steps : List (Step α)) :
    Paced (.start layers attached) (rows timeless s steps).2.traffic := by
  induction steps generalizing s with
  | nil => exact h
  | cons step steps ih =>
    have hperformed := Session.paced_perform h step
    -- The records of a step are thrown away before the next one.
    exact ih (s := ⟨_, _⟩) (hperformed.move (m := .clear) rfl nofun rfl)

/-- The traffic after some steps of a scenario. -/
def trafficAfter (config : Resilience.Config) (attached : Attachments) (timeless : Bool)
    (steps : List (Step α)) : Traffic α :=
  (rows timeless ⟨.start (config.assemble 0) attached, []⟩ steps).2.traffic

/-- **Scenarios run in whole turns.** Every scenario is a course in which a call that takes steps
goes on until it sleeps or ends, and nothing happens in between; and its calls have their layers
in their order. -/
theorem paced_trafficAfter (config : Resilience.Config) (attached : Attachments)
    (timeless : Bool) (steps : List (Step α)) :
    Paced (.start (config.assemble 0) attached) (trafficAfter config attached timeless steps) :=
  paced_rows timeless (.start _) steps

/-- **Scenarios are runs.** After any steps of a scenario that has a circuit breaker, that
breaker and the permits that calls hold are those of a run of the ledger. -/
theorem describedBy_trafficAfter (hconfig : config.circuitBreaker = some c)
    (attached : Attachments) (timeless : Bool) (steps : List (Step α)) :
    ∃ acts l, (Ledger.blank c).run acts = some l ∧
      (trafficAfter config attached timeless steps).DescribedBy l ∧
      Ledger.Spans 0 (trafficAfter config attached timeless steps).now acts := by
  have hstart : (Traffic.start (α := α) (config.assemble 0) attached).DescribedBy (.blank c) := by
    refine ⟨?_, .refl _⟩
    simp [Traffic.start, Resilience.Config.assemble, hconfig, Ledger.blank]
  obtain ⟨acts, l, hrun, hl, hspan⟩ :=
    (paced_trafficAfter config attached timeless steps).reaches.leads _ hstart
  exact ⟨acts, l, hrun, hl, hspan.of_le (Nat.zero_le _)⟩

/-- In every scenario the calls that hold a permit of the current half-open period are at
most as many as are allowed. -/
theorem countP_permits_le (hconfig : config.circuitBreaker = some c) (attached : Attachments)
    (timeless : Bool) (steps : List (Step α)) {b : CircuitBreaker}
    (hb : (trafficAfter config attached timeless steps).layers.circuitBreaker = some b) :
    ((trafficAfter config attached timeless steps).permits.countP
        fun p => p.probe = some b.period) ≤ max c.maxHalfOpenProbes.toNat 1 := by
  obtain ⟨acts, l, hrun, hl, -⟩ := describedBy_trafficAfter hconfig attached timeless steps
  obtain rfl : l.breaker = b := Option.some.inj (hl.breaker.symm.trans hb)
  obtain ⟨hd, h⟩ := Ledger.counted_run hrun
  have hroom := h.room
  have hcount := h.probes
  rw [hd.config, c.clamp_maxHalfOpenProbes_toNat] at hroom
  calc _ = l.permits.countP fun p => p.probe = some l.breaker.period := hl.permits.countP_eq _
    _ ≤ l.unfinishedProbes := Ledger.countP_permits_le_unfinishedProbes hd
    _ ≤ max c.maxHalfOpenProbes.toNat 1 := by omega

end Scenario

end Safeguard
