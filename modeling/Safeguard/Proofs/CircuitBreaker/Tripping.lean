import Mathlib.Data.List.DropRight
import Safeguard.Proofs.CircuitBreaker.Ledger

/-!
# What opens a closed circuit

A closed circuit counts failures, and opens when there are enough of them in a row. The
counter is one number that many acts write: a failure adds to it whatever period its call
was let in in, a success and a reset set it back, and so does every way into the closed
state. While the circuit is open or half-open the counter goes on, and means nothing.

To say what the counter should be we keep the whole history of a run, and count in it the
failures since the last event that lets the count start anew.

## Main definitions

* `Ledger.Event`, `Ledger.history`: the acts of a run with what they led from and to.
* `Ledger.Event.clears`: what lets the count of failures start anew.
* `Ledger.streak`: the failures since then.

## Main results

* `Ledger.opens_iff_streak`: a closed circuit counts its streak, which is below the
  threshold, and the failure that completes it opens the circuit.
-/

namespace Safeguard.CircuitBreaker.Ledger

/-- An act of a run, with what it led from and to. -/
structure Event where
  source : Ledger
  act : Act
  target : Ledger

/-- Whether the circuit was closed that had been open or half-open. -/
def Event.closes (x : Event) : Bool :=
  x.source.breaker.state ≠ .closed && x.target.breaker.state = .closed

/-- Whether the count of failures starts anew: after a success, after a reset, and when the
circuit was closed. -/
def Event.clears (x : Event) : Bool := x.act.isSuccess || x.act = .reset || x.closes

/-- The acts of a run with what they led from and to, in order. -/
def history (l : Ledger) : List (Instant × Act) → List Event
  | [] => []
  | (now, a) :: acts => (l.step now a).elim [] fun l' => ⟨l, a, l'⟩ :: l'.history acts

/-- The number of failures since the count last started anew, or since the beginning. -/
def streak (xs : List Event) : Nat :=
  (xs.rtakeWhile fun x => !x.clears).countP fun x => x.act.isFailure

variable {c : Config} {l l' m : Ledger} {e : Entry} {id : Nat} {failed : Bool} {now : Instant}
  {a : Act} {acts : List (Instant × Act)} {x : Event} {xs : List Event}

/-! ## Histories and streaks -/

theorem history_concat (hrun : l.run acts = some m) (hstep : m.step now a = some l') :
    l.history (acts ++ [(now, a)]) = l.history acts ++ [⟨m, a, l'⟩] := by
  induction acts generalizing l with
  | nil =>
    obtain rfl := Option.some.inj hrun
    simp [history, hstep]
  | cons y acts ih =>
    obtain ⟨k, hk, hrest⟩ := run_cons_eq_some.mp hrun
    simp [history, hk, ih hrest]

@[simp] theorem streak_nil : streak [] = 0 := rfl

theorem streak_concat_of_clears (h : x.clears = true) : streak (xs ++ [x]) = 0 := by
  simp [streak, h]

theorem streak_concat_of_keeps (h : x.clears = false) :
    streak (xs ++ [x]) = streak xs + if x.act.isFailure then 1 else 0 := by
  simp [streak, h, List.countP_singleton]

/-! ## What acts do to the count -/

/-- The number of failures in a row that opens a circuit. -/
theorem threshold_eq (hd : Dated c l) :
    l.breaker.config.failureThreshold.toNat = max c.failureThreshold.toNat 1 := by
  rw [hd.config, c.clamp_failureThreshold_toNat]

/-- A circuit is closed by a success or a reset, or was closed before. -/
theorem closed_or_of_step (hd : Dated c l) (hstep : l.step now a = some l')
    (hclosed : l'.breaker.state = .closed) :
    l.breaker.state = .closed ∨ (∃ id, a = .settle id false) ∨ a = .reset := by
  by_cases hs : l.breaker.state = .closed
  · exact .inl hs
  have htarget := hd.state_step hstep (by rw [hclosed]; exact fun h => hs h.symm)
  rw [hclosed] at htarget
  match a with
  | .settle id false => exact .inr (.inl ⟨id, rfl⟩)
  | .reset => exact .inr (.inr rfl)
  | .request | .observe | .settle _ true | .forceOpen | .announced .. | .drop _ => cases htarget

/-- Only the end of a call and a reset touch the count of a closed circuit. -/
theorem failures_step_of_closed (hs : l.breaker.state = .closed) (hstep : l.step now a = some l')
    (hclosed : l'.breaker.state = .closed) (hsettle : ∀ id failed, a ≠ .settle id failed)
    (hreset : a ≠ .reset) : l'.breaker.failures = l.breaker.failures := by
  have hne : l.breaker.state ≠ .opened := by rw [hs]; decide
  cases a with
  | request => rw [breaker_of_step_request hstep, request_of_closed hs]
  | announced id panics =>
    obtain ⟨e, -, rfl⟩ := Option.map_eq_some_iff.mp hstep
    rfl
  | settle id failed => exact absurd rfl (hsettle id failed)
  | drop id =>
    obtain ⟨e, -, rfl⟩ := Option.map_eq_some_iff.mp hstep
    exact failures_freeProbe
  | observe =>
    obtain rfl := Option.some.inj hstep
    show (l.breaker.refresh now).1.failures = _
    rw [refresh_of_ne hne]
  | reset => exact absurd rfl hreset
  | forceOpen =>
    obtain rfl := Option.some.inj hstep
    exact absurd ((l.breaker.state_forceOpen now).symm.trans hclosed) (by decide)

/-- A success that leaves the circuit closed clears the count. -/
theorem failures_step_success (hstep : l.step now (.settle id false) = some l')
    (hclosed : l'.breaker.state = .closed) : l'.breaker.failures = 0 := by
  obtain ⟨e, -, rfl⟩ := Option.map_eq_some_iff.mp hstep
  have hclosed : (l.breaker.settle e.permit false now).1.state = .closed := hclosed
  show (l.breaker.settle e.permit false now).1.failures = 0
  obtain ⟨-, hb⟩ | ⟨hs, -, hb⟩ | ⟨-, -, hb⟩ | ⟨hs, hb⟩ :=
    l.breaker.settle_success_cases e.permit now <;> rw [hb] at hclosed ⊢
  · simp [hs] at hclosed
  · rfl
  · simp [hs] at hclosed

/-- A reset clears the count, whatever the state is. -/
theorem failures_reset (b : CircuitBreaker) : b.reset.1.failures = 0 := rfl

/-- The end of a call with a failure, on a closed circuit: it is counted, and opens the
circuit exactly if that completes the threshold. -/
theorem failures_step_failure (hs : l.breaker.state = .closed)
    (hlt : l.breaker.failures < l.breaker.config.failureThreshold.toNat)
    (hstep : l.step now (.settle id true) = some l') :
    l'.breaker.failures = l.breaker.failures + 1 ∧
      (l'.breaker.state = .opened ↔
        l.breaker.config.failureThreshold.toNat ≤ l.breaker.failures + 1) ∧
      (l'.breaker.state = .opened ∨ l'.breaker.state = .closed) := by
  obtain ⟨e, -, rfl⟩ := Option.map_eq_some_iff.mp hstep
  -- The counter is below a 32-bit threshold, and so does not saturate.
  have hcount : countUp l.breaker.failures = l.breaker.failures + 1 := countUp_eq_of_lt hlt
  show (l.breaker.settle e.permit true now).1.failures = _ ∧
    ((l.breaker.settle e.permit true now).1.state = .opened ↔ _) ∧
      ((l.breaker.settle e.permit true now).1.state = .opened ∨
        (l.breaker.settle e.permit true now).1.state = .closed)
  obtain ⟨h, hb⟩ | ⟨h, hb⟩ := l.breaker.settle_failure_cases e.permit now <;>
    simp only [hs, hcount, reduceCtorEq, false_or, true_and] at h
  · simp [hb, hs, hcount, h]
  · simp [hb, hcount, h, enter]

/-! ## Runs -/

/-- A closed circuit counts the failures of its history since the count last started anew,
and they are too few to open it. -/
def Counts (l : Ledger) (xs : List Event) : Prop :=
  l.breaker.state = .closed →
    l.breaker.failures = streak xs ∧
      l.breaker.failures < l.breaker.config.failureThreshold.toNat

/-- Every act keeps the count. -/
theorem Counts.step (hd : Dated c l) (h : Counts l xs) (hstep : l.step now a = some l') :
    Counts l' (xs ++ [⟨l, a, l'⟩]) := by
  intro hclosed
  have hd' := hd.step hstep
  have hpos : 0 < l'.breaker.config.failureThreshold.toNat := by rw [threshold_eq hd']; omega
  have hconfig : l'.breaker.config = l.breaker.config := hd'.config.trans hd.config.symm
  -- Either the count starts anew, or the circuit was closed all along.
  by_cases hclear : (⟨l, a, l'⟩ : Event).clears = true
  · rw [streak_concat_of_clears hclear]
    have hzero : l'.breaker.failures = 0 := by
      obtain hs | ⟨id, rfl⟩ | rfl := closed_or_of_step hd hstep hclosed
      · simp only [Event.clears, Event.closes, hs, ne_eq, not_true_eq_false,
          decide_false, Bool.false_and, Bool.or_false, Bool.or_eq_true, decide_eq_true_eq] at hclear
        rcases hclear with hsuccess | rfl
        · match a, hsuccess with
          | .settle id false, _ => exact failures_step_success hstep hclosed
        · obtain rfl := Option.some.inj hstep
          exact failures_reset _
      · exact failures_step_success hstep hclosed
      · obtain rfl := Option.some.inj hstep
        exact failures_reset _
    rw [hzero]
    exact ⟨rfl, hpos⟩
  · rw [streak_concat_of_keeps (Bool.eq_false_iff.mpr hclear)]
    simp only [Event.clears, Event.closes, Bool.or_eq_true, Bool.and_eq_true, decide_eq_true_eq,
      hclosed, and_true, not_or, ne_eq, not_not] at hclear
    obtain ⟨⟨hsuccess, hreset⟩, hs⟩ := hclear
    obtain ⟨heq, hlt⟩ := h hs
    match a with
    | .settle id true =>
      obtain ⟨hcount, hopens, -⟩ := failures_step_failure hs hlt hstep
      rw [hclosed] at hopens
      simp only [reduceCtorEq, false_iff, Nat.not_le] at hopens
      rw [hcount, heq] at *
      exact ⟨rfl, by rw [hconfig]; exact hopens⟩
    | .settle id false => exact absurd rfl hsuccess
    | .request | .announced .. | .drop _ | .observe | .reset | .forceOpen =>
      have hkeep := failures_step_of_closed hs hstep hclosed (by simp) hreset
      rw [hkeep, hconfig]
      exact ⟨heq, hlt⟩

theorem counts_run (hrun : (blank c).run acts = some l) :
    Dated c l ∧ Counts l ((blank c).history acts) := by
  induction acts using List.reverseRecOn generalizing l with
  | nil =>
    obtain rfl := Option.some.inj hrun
    refine ⟨.blank c, fun _ => ⟨rfl, ?_⟩⟩
    rw [threshold_eq (.blank c)]
    exact Nat.lt_of_lt_of_le Nat.zero_lt_one (Nat.le_max_right ..)
  | append_singleton acts y ih =>
    rw [run_append, Option.bind_eq_some_iff] at hrun
    obtain ⟨m, hm, hlast⟩ := hrun
    obtain ⟨l', hstep, hl⟩ := run_cons_eq_some.mp hlast
    obtain rfl := Option.some.inj hl
    obtain ⟨hd, h⟩ := ih hm
    rw [history_concat hm hstep]
    exact ⟨hd.step hstep, h.step hd hstep⟩

/-- **What opens a closed circuit.** After every run a closed circuit has counted exactly
the failures since it was made, closed, reset or saw a success, whichever came last, and they
are below the threshold. The end of a call opens it exactly if it is a failure, and the
threshold is reached with it. -/
theorem opens_iff_streak (hrun : (blank c).run acts = some l) (hs : l.breaker.state = .closed) :
    (l.breaker.failures = streak ((blank c).history acts) ∧
        l.breaker.failures < max c.failureThreshold.toNat 1) ∧
      ∀ now id failed l', l.step now (.settle id failed) = some l' →
        (l'.breaker.state = .opened ↔
          failed = true ∧
            streak ((blank c).history (acts ++ [(now, .settle id failed)])) =
              max c.failureThreshold.toNat 1) := by
  obtain ⟨hd, h⟩ := counts_run hrun
  obtain ⟨heq, hlt⟩ := h hs
  refine ⟨⟨heq, threshold_eq hd ▸ hlt⟩, fun now id failed l' hstep => ?_⟩
  rw [history_concat hrun hstep, ← threshold_eq hd]
  cases failed with
  | false =>
    simp only [Bool.false_eq_true, false_and, iff_false]
    intro hopen
    have htarget := hd.state_step hstep (by rw [hs, hopen]; decide)
    rw [hopen] at htarget
    cases htarget
  | true =>
    obtain ⟨-, hopens, -⟩ := failures_step_failure hs hlt hstep
    have hkeeps : (⟨l, .settle id true, l'⟩ : Event).clears = false := by
      simp [Event.clears, Act.isSuccess, Event.closes, hs]
    rw [streak_concat_of_keeps hkeeps, ← heq, hopens]
    simp only [Act.isFailure, if_true, true_and]
    omega

/-- Two failures open a circuit, a third one comes late and is counted while it is open. The
circuit is reset, and needs two failures again. -/
theorem opens_of_second_failure_since_reset :
    ∃ l l', (blank { Config.default with failureThreshold := 2 }).run
        [(0, .request), (0, .request), (0, .request), (0, .request), (0, .request),
          (1, .settle 0 true), (2, .settle 1 true), (3, .settle 2 true), (4, .reset),
          (5, .settle 3 true)] = some l ∧
      l.breaker.failures = 1 ∧ l.step 6 (.settle 4 true) = some l' ∧
      l'.breaker.state = .opened := by
  obtain ⟨⟨hcount, -⟩, hopens⟩ := @opens_iff_streak { Config.default with failureThreshold := 2 } _
    [(0, .request), (0, .request), (0, .request), (0, .request), (0, .request),
      (1, .settle 0 true), (2, .settle 1 true), (3, .settle 2 true), (4, .reset),
      (5, .settle 3 true)] rfl rfl
  exact ⟨_, _, rfl, hcount.trans rfl, rfl, (hopens 6 4 true _ rfl).mpr ⟨rfl, rfl⟩⟩

end Safeguard.CircuitBreaker.Ledger
