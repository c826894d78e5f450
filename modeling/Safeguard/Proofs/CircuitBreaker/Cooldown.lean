import Safeguard.Proofs.CircuitBreaker.Isolation
import Safeguard.Proofs.Traffic.Announcing

/-!
# When the cooldown is over

An open circuit remembers its last failure, and is half-open for whoever looks once that
failure is a cooldown old. Failures do not only open a circuit: a call that was let in
before may fail while the circuit is open, and its failure is then the last one. So the
time at which the circuit can be found half-open is a cooldown after the opening exactly
if no such late failure comes within the cooldown before the look; each of them starts
the cooldown anew.

What is carried through a run is the time of the last failure: it is the time of the
opening or of a late failure, and no late failure is after it.

## Main definitions

* `CircuitBreaker.OpenSince`: the circuit is open, and when its last failure was.
* `Ledger.FailuresCooled`: all failures among some acts are a cooldown old.

## Main results

* `Ledger.halfOpen_after_cooldown_iff`: the first look after the cooldown finds the circuit
  half-open exactly if all late failures are a cooldown old as well.
-/

namespace Safeguard

/-! ## Looks and admissions in running traffic -/

section Traffic

variable {α : Type} {b b' : CircuitBreaker} {s : Session α}

/-- A look at the state tells what the look finds, if the hook returns. -/
theorem Session.apply_state_of_returns (hb : s.traffic.layers.circuitBreaker = some b)
    (hhook : s.traffic.attached.HookReturns) :
    (s.apply .state).2 = .state (b.observe s.traffic.now).1.state := by
  simp only [Session.apply, Session.onBreaker, hb,
    Traffic.changeBreaker_returns s.traffic hhook, Option.elim_none]

/-- So does a look at the counters. -/
theorem Session.apply_breakerMetrics_of_returns (hb : s.traffic.layers.circuitBreaker = some b)
    (hhook : s.traffic.attached.HookReturns) :
    (s.apply .breakerMetrics).2 = .breaker (b.observe s.traffic.now).1.metrics := by
  simp only [Session.apply, Session.onBreaker, hb,
    Traffic.changeBreaker_returns s.traffic hhook, Option.elim_none]

/-- A call that the breaker admits goes on with its permit, if the hook returns. -/
theorem Traffic.step_of_admitted {tr : Traffic α} {id : Nat} {call : Call α}
    {inner : List Stage} {change : Option CircuitBreaker.Transition} {p : CircuitBreaker.Permit}
    (hb : tr.layers.circuitBreaker = some b) (hrequest : b.request tr.now = (b', change, some p))
    (hhook : tr.attached.HookReturns) (hc : tr.calls[id]? = some call)
    (hactivity : call.activity = .entering (.layer .circuitBreaker :: inner)) :
    ∃ tr', tr.step id = some tr' ∧
      tr'.calls[id]? =
        some { call with frames := .permit p :: call.frames, activity := .entering inner } := by
  obtain ⟨b'', trace, -, htold⟩ := tr.exists_changeBreaker (some id) b' change
  have hreturns := tr.changeBreaker_returns hhook (some id) b' change
  have hstep : tr.step id = some ({ tr.setBreaker b'' with trace := trace }.become id
      { call with frames := .permit p :: call.frames } (.entering inner)) := by
    simp only [Traffic.step, hc, hactivity, Option.bind_eq_bind, Option.bind_some,
      Traffic.enterNext, Traffic.passLayer, hb, Traffic.passBreaker, hrequest]
    rw [← htold]
    split
    · rename_i hmessage
      rw [hmessage] at hreturns
      cases hreturns
    · rename_i hnone
      rw [hnone]
  exact ⟨_, hstep, List.getElem?_set_self (List.getElem?_eq_some_iff.mp hc).1⟩

end Traffic

namespace CircuitBreaker

/-- The circuit is open, and its last failure was at the given point of time. -/
def OpenSince (b : CircuitBreaker) (failedAt : Instant) : Prop :=
  b.state = .opened ∧ b.lastFailure = some failedAt

namespace OpenSince

variable {b : CircuitBreaker} {failedAt now : Instant} {p : Permit}

theorem cooled_iff (h : b.OpenSince failedAt) (hle : failedAt ≤ now) :
    b.cooled now = true ↔ failedAt + b.config.cooldown.nanos ≤ now := by
  simp only [cooled, h.2, decide_eq_true_eq]
  exact Nat.le_sub_iff_add_le' hle

theorem freeProbe (h : b.OpenSince failedAt) : (b.freeProbe p).OpenSince failedAt :=
  ⟨state_freeProbe.trans h.1, lastFailure_freeProbe.trans h.2⟩

/-- A late failure is the last one from now on. -/
theorem settle_failure (h : b.OpenSince failedAt) : (b.settle p true now).1.OpenSince now := by
  refine ⟨ShutSince.state_settle_failure h.1, ?_⟩
  obtain ⟨-, hb⟩ | ⟨-, hb⟩ := b.settle_failure_cases p now
  · rw [hb]
  · rw [hb, lastFailure_enter]

/-- A late success is ignored. -/
theorem settle_success (h : b.OpenSince failedAt) :
    (b.settle p false now).1.OpenSince failedAt := by
  obtain ⟨hs, -⟩ | ⟨hs, -⟩ | ⟨hs, -⟩ | ⟨-, hb⟩ := b.settle_success_cases p now
  · exact absurd (h.1.symm.trans hs) (by decide)
  · exact absurd (h.1.symm.trans hs) (by decide)
  · exact absurd (h.1.symm.trans hs) (by decide)
  · rw [hb]
    exact h.freeProbe

end OpenSince

namespace Ledger

/-- All failures among the acts are a cooldown old at the given point of time. -/
def FailuresCooled (cooldown : Nat) (t : Instant) (acts : List (Instant × Act)) : Prop :=
  ∀ failedAt id, (failedAt, Act.settle id true) ∈ acts → failedAt + cooldown ≤ t

variable {c : Config} {l l' m : Ledger} {a : Act} {start failedAt now t : Instant}
  {before between acts : List (Instant × Act)}

theorem failuresCooled_cons {cooldown : Nat} :
    FailuresCooled cooldown t ((now, a) :: acts) ↔
      ((∃ id, a = .settle id true) → now + cooldown ≤ t) ∧ FailuresCooled cooldown t acts := by
  simp only [FailuresCooled, List.mem_cons, Prod.mk.injEq]
  constructor
  · intro h
    exact ⟨fun ⟨id, ha⟩ => h now id (.inl ⟨rfl, ha.symm⟩), fun s id hs => h s id (.inr hs)⟩
  · rintro ⟨hhead, htail⟩ s id (⟨rfl, ha⟩ | hs)
    · exact hhead ⟨id, ha.symm⟩
    · exact htail s id hs

/-- While nobody takes a hand in the state and nobody looks after the cooldown, the circuit
stays open, and its last failure moves with every late one. -/
theorem openSince_step (h : l.breaker.OpenSince failedAt)
    (hhands : a ≠ .reset ∧ a ≠ .forceOpen)
    (hlook : a = .observe ∨ a = .request → l.breaker.cooled now = false)
    (hstep : l.step now a = some l') :
    (∃ id, a = .settle id true) ∧ l'.breaker.OpenSince now ∨
      (¬ ∃ id, a = .settle id true) ∧ l'.breaker.OpenSince failedAt := by
  cases a with
  | request =>
    have hrequest := request_of_hot h.1 (hlook (.inr rfl))
    rw [step_request_of_none (by rw [hrequest]), hrequest] at hstep
    obtain rfl := Option.some.inj hstep
    exact .inr ⟨by simp, h⟩
  | announced id panics =>
    obtain ⟨e, -, rfl⟩ := Option.map_eq_some_iff.mp hstep
    exact .inr ⟨by simp, h⟩
  | settle id failed =>
    obtain ⟨e, -, rfl⟩ := Option.map_eq_some_iff.mp hstep
    cases failed with
    | true => exact .inl ⟨⟨id, rfl⟩, h.settle_failure⟩
    | false => exact .inr ⟨by simp, h.settle_success⟩
  | drop id =>
    obtain ⟨e, -, rfl⟩ := Option.map_eq_some_iff.mp hstep
    exact .inr ⟨by simp, h.freeProbe⟩
  | observe =>
    obtain rfl := Option.some.inj hstep
    have hobserve : l.breaker.observe now = (l.breaker, none) := refresh_of_hot (hlook (.inl rfl))
    rw [hobserve]
    exact .inr ⟨by simp, h⟩
  | reset => exact absurd rfl hhands.1
  | forceOpen => exact absurd rfl hhands.2

/-- After a run in which nobody looks after the cooldown, the last failure is a cooldown old
exactly if the one before the run is and all late ones are. -/
theorem openSince_run (hd : Dated c l) (h : l.breaker.OpenSince failedAt) (hle : failedAt ≤ now)
    (htime : Spans now t acts) (hhands : ∀ x ∈ acts, x.2 ≠ .reset ∧ x.2 ≠ .forceOpen)
    (hfirst : ∀ x ∈ acts, x.2 = .observe ∨ x.2 = .request → x.1 < failedAt + c.cooldown.nanos)
    (hrun : l.run acts = some m) :
    ∃ last, m.breaker.OpenSince last ∧ last ≤ t ∧
      (last + c.cooldown.nanos ≤ t ↔
        failedAt + c.cooldown.nanos ≤ t ∧ FailuresCooled c.cooldown.nanos t acts) := by
  induction acts generalizing l failedAt now with
  | nil =>
    cases hrun
    refine ⟨failedAt, h, Nat.le_trans hle htime, ?_⟩
    simp [FailuresCooled]
  | cons x acts ih =>
    obtain ⟨s, a⟩ := x
    obtain ⟨hs, hrest⟩ := htime
    obtain ⟨l', hstep, hrun⟩ := run_cons_eq_some.mp hrun
    obtain ⟨hhand, hhands⟩ := List.forall_mem_cons.mp hhands
    obtain ⟨hlook, hfirst⟩ := List.forall_mem_cons.mp hfirst
    have hfs : failedAt ≤ s := Nat.le_trans hle hs
    have hcooldown : l.breaker.config.cooldown = c.cooldown := by rw [hd.config]; rfl
    have hhot : a = .observe ∨ a = .request → l.breaker.cooled s = false := by
      intro ha
      refine Bool.eq_false_iff.mpr fun hcooled => ?_
      rw [h.cooled_iff hfs, hcooldown] at hcooled
      exact absurd (hlook ha) (Nat.not_lt.mpr hcooled)
    rw [failuresCooled_cons]
    obtain ⟨hfailed, h'⟩ | ⟨hkept, h'⟩ := openSince_step h hhand hhot hstep
    -- A late failure is younger than the one before, and so the one that counts.
    · have hlater : ∀ x ∈ acts, x.2 = .observe ∨ x.2 = .request → x.1 < s + c.cooldown.nanos :=
        fun x hx ha => Nat.lt_of_lt_of_le (hfirst x hx ha) (Nat.add_le_add_right hfs _)
      obtain ⟨last, hlast, hlet, hiff⟩ :=
        ih (hd.step hstep) h' (Nat.le_refl s) hrest hhands hlater hrun
      refine ⟨last, hlast, hlet, hiff.trans ?_⟩
      constructor
      · rintro ⟨hcool, hall⟩
        exact ⟨Nat.le_trans (Nat.add_le_add_right hfs _) hcool, fun _ => hcool, hall⟩
      · rintro ⟨-, hcool, hall⟩
        exact ⟨hcool hfailed, hall⟩
    · obtain ⟨last, hlast, hlet, hiff⟩ := ih (hd.step hstep) h' hfs hrest hhands hfirst hrun
      refine ⟨last, hlast, hlet, hiff.trans ?_⟩
      simp [hkept]

/-- An act that opens the circuit notes when it does. -/
theorem openSince_of_entry (hd : Dated c l) (hstep : l.step start a = some l')
    (hentry : l.breaker.state ≠ .opened) (hopen : l'.breaker.state = .opened) :
    l'.breaker.OpenSince start := by
  have htarget := hd.state_step hstep (by rw [hopen]; exact hentry.symm)
  rw [hopen] at htarget
  refine ⟨hopen, ?_⟩
  match a with
  | .settle id true =>
    obtain ⟨e, -, rfl⟩ := Option.map_eq_some_iff.mp hstep
    obtain ⟨-, hb⟩ | ⟨-, hb⟩ := l.breaker.settle_failure_cases e.permit start
    · show (l.breaker.settle e.permit true start).1.lastFailure = some start
      rw [hb]
    · show (l.breaker.settle e.permit true start).1.lastFailure = some start
      rw [hb, lastFailure_enter]
  | .forceOpen =>
    obtain rfl := Option.some.inj hstep
    obtain ⟨-, hb⟩ | ⟨-, hb⟩ := l.breaker.forceOpen_cases start
    · show (l.breaker.forceOpen start).1.lastFailure = some start
      rw [hb]
    · show (l.breaker.forceOpen start).1.lastFailure = some start
      rw [hb, lastFailure_enter]
  | .request | .observe | .settle _ false | .reset | .announced .. | .drop _ => cases htarget

/-- **The end of the cooldown.** A circuit opens, and nobody resets it, forces it open or
looks at it after the cooldown until a first look. That look, or a call that comes instead of
it and is then admitted as the first probe, finds the circuit half-open exactly if every
failure that was recorded since the opening is a cooldown old too. -/
theorem halfOpen_after_cooldown_iff {α : Type} (hbefore : (blank c).run before = some l)
    (hstep : l.step start a = some l') (hentry : l.breaker.state ≠ .opened)
    (hopen : l'.breaker.state = .opened) (hbetween : l'.run between = some m)
    (hhands : ∀ x ∈ between, x.2 ≠ .reset ∧ x.2 ≠ .forceOpen)
    (hfirst : ∀ x ∈ between, x.2 = .observe ∨ x.2 = .request → x.1 < start + c.cooldown.nanos)
    (htime : Spans start t between) (hcool : start + c.cooldown.nanos ≤ t) :
    m.breaker.state = .opened ∧
      ((m.breaker.observe t).1.metrics.state = .halfOpen ↔
        FailuresCooled c.cooldown.nanos t between) ∧
      ((m.breaker.request t).1.state = .halfOpen ∧
          (m.breaker.request t).2.2 = some ⟨some (m.breaker.period + 1)⟩ ↔
        FailuresCooled c.cooldown.nanos t between) ∧
      (∀ s : Session α, s.traffic.layers.circuitBreaker = some m.breaker → s.traffic.now = t →
        s.traffic.attached.HookReturns →
          ((s.apply .state).2 = .state .halfOpen ↔ FailuresCooled c.cooldown.nanos t between) ∧
          ((s.apply .breakerMetrics).2 = .breaker (m.breaker.enter .halfOpen).metrics ↔
            FailuresCooled c.cooldown.nanos t between)) ∧
      ∀ (tr : Traffic α) id call inner, tr.layers.circuitBreaker = some m.breaker →
        tr.now = t → tr.attached.HookReturns → tr.calls[id]? = some call →
          call.activity = .entering (.layer .circuitBreaker :: inner) →
            ((∃ tr', tr.step id = some tr' ∧
                tr'.calls[id]? =
                  some { call with
                    frames := .permit ⟨some (m.breaker.period + 1)⟩ :: call.frames
                    activity := .entering inner }) ↔
              FailuresCooled c.cooldown.nanos t between) := by
  have hd := ((Dated.blank c).run hbefore).step hstep
  obtain ⟨last, hlast, hle, hiff⟩ := openSince_run hd
    (openSince_of_entry ((Dated.blank c).run hbefore) hstep hentry hopen) (Nat.le_refl start)
    htime hhands hfirst hbetween
  have hm := hd.run hbetween
  have hcooled : m.breaker.cooled t = true ↔ FailuresCooled c.cooldown.nanos t between := by
    have hcooldown : m.breaker.config.cooldown = c.cooldown := by rw [hm.config]; rfl
    rw [hlast.cooled_iff hle, hcooldown, hiff]
    exact and_iff_right hcool
  refine ⟨hlast.1, ?_⟩
  rw [← hcooled]
  cases hc : m.breaker.cooled t with
  | true =>
    have hobserve : m.breaker.observe t = (m.breaker.enter .halfOpen, some ⟨.opened, .halfOpen⟩) :=
      refresh_of_cooled hlast.1 hc
    have hrequest := request_of_cooled hm.maxHalfOpenProbes_pos hlast.1 hc
    refine ⟨by rw [hobserve]; simp [metrics], by rw [hrequest]; simp, ?_, ?_⟩
    · rintro s hb rfl hhook
      rw [Session.apply_state_of_returns hb hhook,
        Session.apply_breakerMetrics_of_returns hb hhook, hobserve]
      simp
    · rintro tr id call inner hb rfl hhook hcall hactivity
      simp only [iff_true]
      exact Traffic.step_of_admitted hb hrequest hhook hcall hactivity
  | false =>
    have hobserve : m.breaker.observe t = (m.breaker, none) := refresh_of_hot hc
    have hrequest := request_of_hot hlast.1 hc
    have hne : m.breaker.metrics.state ≠ .halfOpen := by simp [metrics, hlast.1]
    refine ⟨by rw [hobserve]; simp [hne], by rw [hrequest]; simp, ?_, ?_⟩
    · rintro s hb rfl hhook
      rw [Session.apply_state_of_returns hb hhook,
        Session.apply_breakerMetrics_of_returns hb hhook, hobserve]
      refine ⟨by simp [hlast.1], ?_⟩
      simp [metrics, hlast.1, enter]
    · rintro tr id call inner hb rfl hhook hcall hactivity
      rw [Traffic.step_of_rejected hb hrequest hcall hactivity]
      simp only [Bool.false_eq_true, iff_false]
      rintro ⟨tr', htr', hcall'⟩
      obtain rfl := Option.some.inj htr'
      have hset := List.getElem?_set_self (l := tr.calls)
        (a := { call with activity := .leaving (.error (.layer .circuitOpen)) })
        (List.getElem?_eq_some_iff.mp hcall).1
      have heq := Option.some.inj (hset.symm.trans hcall')
      exact absurd (congrArg Call.activity heq) (by simp)

/-- A call that was let in before the opening succeeds during the cooldown. When the
cooldown is over the circuit is half-open. -/
theorem halfOpen_after_late_success :
    ∃ l l' m, (blank { Config.default with failureThreshold := 1, cooldown := .ofMillis 10 }).run
        [(0, .request), (0, .request)] = some l ∧
      l.step 0 (.settle 1 true) = some l' ∧ l'.run [(5000000, .settle 0 false)] = some m ∧
      (m.breaker.observe 10000000).1.metrics.state = .halfOpen ∧
      (m.breaker.request 10000000).2.2 = some ⟨some 2⟩ := by
  refine ⟨_, _, _, rfl, rfl, rfl, ?_⟩
  obtain ⟨-, hlook, hrequest, -⟩ := @halfOpen_after_cooldown_iff
    { Config.default with failureThreshold := 1, cooldown := .ofMillis 10 } _ _ _
    (.settle 1 true) 0 10000000 [(0, .request), (0, .request)] [(5000000, .settle 0 false)] Unit
    rfl rfl (by decide) rfl rfl (by decide) (by decide) (by decide) (by decide)
  have hcooled : FailuresCooled (Duration.ofMillis 10).nanos 10000000
      [(5000000, .settle 0 false)] := by simp [FailuresCooled]
  exact ⟨hlook.mpr hcooled, (hrequest.mpr hcooled).2⟩

/-- A call that was let in before the opening fails during the cooldown. When the cooldown
is over the circuit is still open, and rejects. -/
theorem open_after_late_failure :
    ∃ l l' m, (blank { Config.default with failureThreshold := 1, cooldown := .ofMillis 10 }).run
        [(0, .request), (0, .request)] = some l ∧
      l.breaker.state = .closed ∧ l.step 0 (.settle 1 true) = some l' ∧
      l'.breaker.state = .opened ∧ l'.run [(5000000, .settle 0 true)] = some m ∧
      m.breaker.observe 10000000 = (m.breaker, none) ∧ m.breaker.metrics.state = .opened ∧
      (m.breaker.request 10000000).2 = (none, none) :=
  ⟨_, _, _, rfl, rfl, rfl, rfl, rfl, rfl, rfl, rfl⟩

end Ledger

end CircuitBreaker

end Safeguard
