import Safeguard.Proofs.CircuitBreaker.Ledger
import Safeguard.Scenario.Basic

/-!
# The cooldown of an open circuit

An open circuit lets no call pass before its cooldown is over. The cooldown starts when
the circuit opens, and again when it is forced open and with every failure that is
recorded while it is open; nothing but a reset ends it early. In particular it does not
matter what calls do that were let in before and end only now.

What is carried through a run is that the circuit is open and that its last failure is
not before the start of the cooldown. It may be later: whatever moves it only prolongs
the cooldown.

## Main definitions

* `CircuitBreaker.ShutSince`: the circuit is open, and its last failure is recent.
* `Ledger.Opens`: an act that starts a cooldown.

## Main results

* `Ledger.rejects_during_cooldown`: an open circuit rejects every call, and is seen to
  be open, until its cooldown is over.
-/

namespace Safeguard

/-! ## Rejections and looks in running traffic -/

section Traffic

variable {α : Type} {b b' : CircuitBreaker}

/-- A call that the breaker rejects leaves at once. -/
theorem Traffic.step_of_rejected {tr : Traffic α} {id : Nat} {call : Call α} {inner : List Stage}
    (hb : tr.layers.circuitBreaker = some b) (hrequest : b.request tr.now = (b', none, none))
    (hc : tr.calls[id]? = some call)
    (hactivity : call.activity = .entering (.layer .circuitBreaker :: inner)) :
    tr.step id =
      some (((tr.setBreaker b').note (.circuitRejected tr.attached.breakerName)).refuse id call
        .circuitOpen) := by
  simp only [Traffic.step, hc, hactivity, Option.bind_eq_bind, Option.bind_some,
    Traffic.enterNext, Traffic.passLayer, hb, Traffic.passBreaker, hrequest,
    Traffic.changeBreaker]
  rfl

/-- A look that changes nothing tells the state as it is stored. -/
theorem Session.apply_state_of_observe {s : Session α}
    (hb : s.traffic.layers.circuitBreaker = some b)
    (hobserve : b.observe s.traffic.now = (b, none)) :
    (s.apply .state).2 = .state b.state := by
  simp only [Session.apply, Session.onBreaker, hb, hobserve, Traffic.changeBreaker,
    Option.elim_none]

/-- A look that changes nothing tells the counters as they are stored. -/
theorem Session.apply_breakerMetrics_of_observe {s : Session α}
    (hb : s.traffic.layers.circuitBreaker = some b)
    (hobserve : b.observe s.traffic.now = (b, none)) :
    (s.apply .breakerMetrics).2 = .breaker b.metrics := by
  simp only [Session.apply, Session.onBreaker, hb, hobserve, Traffic.changeBreaker,
    Option.elim_none]

end Traffic

namespace CircuitBreaker

/-- The circuit is open, and its last failure is not before the given point of time. -/
def ShutSince (b : CircuitBreaker) (start : Instant) : Prop :=
  b.state = .opened ∧ ∃ failedAt, b.lastFailure = some failedAt ∧ start ≤ failedAt

namespace ShutSince

variable {b : CircuitBreaker} {start now : Instant} {p : Permit}

/-- Until the cooldown is over, time alone opens nothing. -/
theorem cooled_eq_false (h : b.ShutSince start) (hle : start ≤ now)
    (hnow : now < start + b.config.cooldown.nanos) : b.cooled now = false := by
  obtain ⟨-, failedAt, hlast, hfailed⟩ := h
  simp only [cooled, hlast, decide_eq_false_iff_not, Nat.not_le]
  calc now - failedAt ≤ now - start := Nat.sub_le_sub_left hfailed now
    _ < b.config.cooldown.nanos := Nat.sub_lt_left_of_lt_add hle hnow

theorem observe (h : b.ShutSince start) (hle : start ≤ now)
    (hnow : now < start + b.config.cooldown.nanos) : b.observe now = (b, none) :=
  refresh_of_hot (h.cooled_eq_false hle hnow)

/-- A call that asks for admission is rejected. -/
theorem request (h : b.ShutSince start) (hle : start ≤ now)
    (hnow : now < start + b.config.cooldown.nanos) :
    b.request now =
      ({ b with totalRequests := b.totalRequests + 1,
                rejectedRequests := b.rejectedRequests + 1 }, none, none) :=
  request_of_hot h.1 (h.cooled_eq_false hle hnow)

theorem freeProbe (h : b.ShutSince start) : (b.freeProbe p).ShutSince start := by
  obtain ⟨hs, failedAt, hlast, hle⟩ := h
  exact ⟨state_freeProbe.trans hs, failedAt, lastFailure_freeProbe.trans hlast, hle⟩

/-- A failure that opens the circuit, or is recorded while it is open, starts the
cooldown anew. -/
theorem settle_failure (h : (b.settle p true now).1.state = .opened) (hle : start ≤ now) :
    (b.settle p true now).1.ShutSince start := by
  refine ⟨h, now, ?_, hle⟩
  obtain ⟨-, hb⟩ | ⟨-, hb⟩ := b.settle_failure_cases p now
  · rw [hb]
  · rw [hb, lastFailure_enter]

/-- A failure does not end the cooldown. -/
theorem state_settle_failure (h : b.state = .opened) : (b.settle p true now).1.state = .opened := by
  obtain ⟨-, hb⟩ | ⟨-, hb⟩ := b.settle_failure_cases p now
  · rw [hb]; exact state_freeProbe.trans h
  · rw [hb, state_enter]

/-- A success comes too late to count. -/
theorem settle_success (h : b.ShutSince start) : (b.settle p false now).1.ShutSince start := by
  obtain ⟨hs, -⟩ | ⟨hs, -⟩ | ⟨hs, -⟩ | ⟨-, hb⟩ := b.settle_success_cases p now
  · exact absurd (h.1.symm.trans hs) (by decide)
  · exact absurd (h.1.symm.trans hs) (by decide)
  · exact absurd (h.1.symm.trans hs) (by decide)
  · rw [hb]
    exact h.freeProbe

theorem forceOpen (b : CircuitBreaker) (hnow : start ≤ now) :
    (b.forceOpen now).1.ShutSince start := by
  refine ⟨b.state_forceOpen now, now, ?_, hnow⟩
  obtain ⟨-, hb⟩ | ⟨-, hb⟩ := b.forceOpen_cases now
  · rw [hb]
  · rw [hb, lastFailure_enter]

end ShutSince

namespace Ledger

/-- An act starts a cooldown: it opens the circuit, forces it open, or is a failure
that is recorded while it is open. -/
def Opens (l : Ledger) (a : Act) (l' : Ledger) : Prop :=
  (l.breaker.state ≠ .opened ∧ l'.breaker.state = .opened) ∨ a = .forceOpen ∨
    l.breaker.state = .opened ∧ ∃ id, a = .settle id true

variable {c : Config} {l l' m : Ledger} {a : Act} {start now t : Instant}
  {before between : List (Instant × Act)}

/-- Only failures and force open a circuit, and they note when they do. -/
theorem shutSince_of_opens (hd : Dated c l) (hstep : l.step start a = some l')
    (h : Opens l a l') : l'.breaker.ShutSince start := by
  rcases h with ⟨hne, hs⟩ | rfl | ⟨hs, id, rfl⟩
  -- Of the acts that can enter a state, two enter this one.
  · have htarget := hd.state_step hstep (by rw [hs]; exact hne.symm)
    rw [hs] at htarget
    match a with
    | .settle id true =>
      obtain ⟨e, -, rfl⟩ := Option.map_eq_some_iff.mp hstep
      exact ShutSince.settle_failure hs (Nat.le_refl _)
    | .forceOpen =>
      obtain rfl := Option.some.inj hstep
      exact ShutSince.forceOpen _ (Nat.le_refl _)
    | .request | .observe | .settle _ false | .reset | .announced .. | .drop _ => cases htarget
  · obtain rfl := Option.some.inj hstep
    exact ShutSince.forceOpen _ (Nat.le_refl _)
  · obtain ⟨e, -, rfl⟩ := Option.map_eq_some_iff.mp hstep
    exact ShutSince.settle_failure (ShutSince.state_settle_failure hs) (Nat.le_refl _)

/-- Until the cooldown is over, no act but a reset ends it. -/
theorem shutSince_step (h : l.breaker.ShutSince start) (hle : start ≤ now)
    (hnow : now < start + l.breaker.config.cooldown.nanos) (hne : a ≠ .reset)
    (hstep : l.step now a = some l') : l'.breaker.ShutSince start := by
  cases a with
  | request =>
    rw [step_request_of_none (by rw [h.request hle hnow]), h.request hle hnow] at hstep
    obtain rfl := Option.some.inj hstep
    exact h
  | announced id panics =>
    obtain ⟨e, -, rfl⟩ := Option.map_eq_some_iff.mp hstep
    exact h
  | settle id failed =>
    obtain ⟨e, -, rfl⟩ := Option.map_eq_some_iff.mp hstep
    cases failed with
    | true => exact ShutSince.settle_failure (ShutSince.state_settle_failure h.1) hle
    | false => exact h.settle_success
  | drop id =>
    obtain ⟨e, -, rfl⟩ := Option.map_eq_some_iff.mp hstep
    exact h.freeProbe
  | observe =>
    obtain rfl := Option.some.inj hstep
    rw [h.observe hle hnow]
    exact h
  | reset => exact absurd rfl hne
  | forceOpen =>
    obtain rfl := Option.some.inj hstep
    exact ShutSince.forceOpen _ hle

/-- The circuit stays open for a whole run within the cooldown. -/
theorem shutSince_run (hd : Dated c l) (h : l.breaker.ShutSince start)
    (hbetween : ∀ x ∈ between, start ≤ x.1 ∧ x.1 < start + c.cooldown.nanos ∧ x.2 ≠ .reset)
    (hrun : l.run between = some m) : m.breaker.ShutSince start := by
  -- The configuration has to be carried along, since it says how long the cooldown is.
  refine (run_induction (P := fun l => Dated c l ∧ l.breaker.ShutSince start) ?_ ⟨hd, h⟩ hrun).2
  intro l now a l' ha h hstep
  obtain ⟨hle, hlt, hne⟩ := hbetween _ ha
  have hcooldown : l.breaker.config.cooldown = c.cooldown := by rw [h.1.config]; rfl
  exact ⟨h.1.step hstep, shutSince_step h.2 hle (hcooldown ▸ hlt) hne hstep⟩

/-- **Isolation.** From the moment at which the circuit opens, is forced open, or records
a failure while it is open, and until the cooldown is over, everybody who looks at it
sees it open, and every call that asks for admission is rejected and leaves with that
error, without an invocation of its operation. Whatever else happens in between makes no
difference, unless it is a reset. -/
theorem rejects_during_cooldown {α : Type} (hbefore : (blank c).run before = some l)
    (hstep : l.step start a = some l') (hopens : Opens l a l')
    (hbetween : l'.run between = some m) (hreset : ∀ x ∈ between, x.2 ≠ .reset)
    (htime : Spans start t between)
    (hcool : t < start + c.cooldown.nanos) :
    m.breaker.observe t = (m.breaker, none) ∧ m.breaker.metrics.state = .opened ∧
      (m.breaker.request t).2 = (none, none) ∧
      (∀ s : Session α, s.traffic.layers.circuitBreaker = some m.breaker → s.traffic.now = t →
        (s.apply .state).2 = .state .opened ∧
          (s.apply .breakerMetrics).2 = .breaker m.breaker.metrics) ∧
      ∀ (tr : Traffic α) id call inner, tr.layers.circuitBreaker = some m.breaker →
        tr.now = t → tr.calls[id]? = some call →
          call.activity = .entering (.layer .circuitBreaker :: inner) →
            ∃ tr', tr.step id = some tr' ∧
              tr'.calls[id]? =
                some { call with activity := .leaving (.error (.layer .circuitOpen)) } ∧
              tr'.trace.events = tr.trace.events := by
  have hd := (Dated.blank c).run hbefore
  -- What happens in between happens before the cooldown is over, as the last look does.
  have hwindow : ∀ x ∈ between, start ≤ x.1 ∧ x.1 < start + c.cooldown.nanos ∧ x.2 ≠ .reset := by
    intro x hx
    obtain ⟨hle, hlt⟩ := htime.le_of_mem hx
    exact ⟨hle, Nat.lt_of_le_of_lt hlt hcool, hreset x hx⟩
  have h := shutSince_run (hd.step hstep) (shutSince_of_opens hd hstep hopens) hwindow hbetween
  have hcooldown : m.breaker.config.cooldown = c.cooldown := by
    rw [((hd.step hstep).run hbetween).config]; rfl
  rw [← hcooldown] at hcool
  have hobserve := h.observe htime.le hcool
  have hrequest := h.request htime.le hcool
  refine ⟨hobserve, h.1, by rw [hrequest], ?_, ?_⟩
  · intro s hb ht
    subst ht
    exact ⟨(Session.apply_state_of_observe hb hobserve).trans (by rw [h.1]),
      Session.apply_breakerMetrics_of_observe hb hobserve⟩
  · intro tr id call inner hb ht hc hactivity
    subst ht
    refine ⟨_, Traffic.step_of_rejected hb hrequest hc hactivity, ?_, rfl⟩
    exact List.getElem?_set_self (List.getElem?_eq_some_iff.mp hc).1

/-- A failure opens the circuit while another call runs. The success of that call, half
the cooldown later, opens nothing. -/
theorem rejects_after_late_success :
    ∃ l l' m, (blank { Config.default with failureThreshold := 1, cooldown := .ofMillis 10 }).run
        [(0, .request), (0, .request)] = some l ∧
      l.step 0 (.settle 0 true) = some l' ∧ l'.run [(5000000, .settle 1 false)] = some m ∧
      m.breaker.observe 9999999 = (m.breaker, none) ∧ m.breaker.metrics.state = .opened ∧
      (m.breaker.request 9999999).2 = (none, none) := by
  refine ⟨_, _, _, rfl, rfl, rfl, ?_⟩
  obtain ⟨hobserve, hmetrics, hrequest, -⟩ := @rejects_during_cooldown
    { Config.default with failureThreshold := 1, cooldown := .ofMillis 10 } _ _ _
    (.settle 0 true) 0 9999999 [(0, .request), (0, .request)] [(5000000, .settle 1 false)] Unit
    rfl rfl (.inl ⟨by decide, rfl⟩) rfl (by decide) (by decide) (by decide)
  exact ⟨hobserve, hmetrics, hrequest⟩

end Ledger

end CircuitBreaker

end Safeguard
