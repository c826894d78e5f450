import Safeguard.Proofs.CircuitBreaker.Ledger

/-!
# What closes a circuit

A half-open circuit counts successes and closes when there are enough of them. It
counts the success of every call that ends while it is half-open, though, and not only
of its probes: a call that was let in before the circuit opened, or as a probe of an
earlier half-open period, may end that late. So the calls that close a circuit are
probes of the half-open period exactly if no earlier call ends with a success in it.

## Main definitions

* `Ledger.successesDuring`: calls that ended with a success in an era.
* `Ledger.probeSuccesses`, `Ledger.straySuccesses`: those that were let in as probes of
  that era, and those that were let in earlier.
* `Ledger.Tallied`: a half-open circuit counts the successes of its era.

## Main results

* `Ledger.close_iff_probes`: which calls close a half-open circuit.
-/

namespace Safeguard.CircuitBreaker.Ledger

/-- Calls that ended with a success in an era. -/
def successesDuring (l : Ledger) (era : Nat) : Nat :=
  l.calls.countP fun e => e.progress = .settled false era

/-- Probes of a half-open era that ended with a success. -/
def probeSuccesses (l : Ledger) (era : Nat) : Nat :=
  l.calls.countP fun e => e.isProbeOf era && e.progress.succeeded

/-- Calls that were let in before an era and ended with a success in it. -/
def straySuccesses (l : Ledger) (era : Nat) : Nat :=
  l.calls.countP fun e => decide (e.era < era) && e.progress = .settled false era

/-- Calls end after they were let in. -/
def Ordered (l : Ledger) : Prop :=
  ∀ e ∈ l.calls, ∀ failed during, e.progress = .settled failed during →
    e.era ≤ during ∧ during ≤ l.era

/-- A half-open circuit counts the successes of its era, and has too few to close. -/
structure Tallied (l : Ledger) : Prop where
  ordered : Ordered l
  successes : l.breaker.state = .halfOpen → l.breaker.successes = l.successesDuring l.era
  successes_lt : l.breaker.state = .halfOpen →
    l.breaker.successes < l.breaker.config.successThreshold.toNat

variable {c : Config} {l l' : Ledger} {e : Entry} {p : Permit} {id : Nat} {now : Instant} {a : Act}
  {progress : Progress} {acts : List (Instant × Act)} {k : Nat}

theorem Progress.succeeded_iff :
    progress.succeeded = true ↔ ∃ k, progress = Progress.settled false k := by
  constructor
  · intro h
    match progress, h with
    | .settled false k, _ => exact ⟨k, rfl⟩
  · rintro ⟨k, rfl⟩
    rfl

theorem Ordered.mark (h : Ordered l) (hd : Dated c l) (he : e ∈ l.calls)
    (hduring : ∀ failed during, progress = .settled failed during → during = l.era) :
    Ordered (l.mark id e progress) := by
  intro x hx failed during hp
  rcases mem_mark hx with rfl | hx
  · obtain rfl := hduring failed during hp
    exact ⟨hd.era_le e he, Nat.le_refl _⟩
  · exact h x hx failed during hp

theorem Ordered.after (h : Ordered l) (r : CircuitBreaker × Option Transition) :
    Ordered (l.after r) := by
  intro x hx failed during hp
  obtain ⟨hle, hle'⟩ := h x hx failed during hp
  rw [era_after]
  exact ⟨hle, Nat.le_trans hle' (Nat.le_add_right ..)⟩

/-! ## Counting successes -/

theorem successesDuring_enrol (h : progress.succeeded = false) :
    (l.enrol p progress).successesDuring k = l.successesDuring k := by
  have hne : progress ≠ .settled false k := by rintro rfl; cases h
  show (l.calls ++ [_]).countP (fun e : Entry => decide (e.progress = Progress.settled false k)) = _
  simp [successesDuring, hne]

/-- A call that has not ended counts from now on if it ends with a success. -/
theorem successesDuring_mark (he : l.find? id progress = some e) (h : progress.succeeded = false)
    (progress' : Progress) :
    (l.mark id e progress').successesDuring k =
      l.successesDuring k + (if progress' = .settled false k then 1 else 0) := by
  obtain ⟨hget, hprogress⟩ := find?_eq_some_iff.mp he
  have hne : e.progress ≠ .settled false k := by
    rw [hprogress]; rintro rfl; cases h
  have hcount : (l.mark id e progress').successesDuring k + _ = _ :=
    countP_set_add (f := fun e => decide (e.progress = .settled false k))
      (y := { e with progress := progress' }) hget
  simpa [hne, successesDuring] using hcount

@[simp] theorem probeSuccesses_after {r : CircuitBreaker × Option Transition} :
    (l.after r).probeSuccesses k = l.probeSuccesses k := rfl

@[simp] theorem straySuccesses_after {r : CircuitBreaker × Option Transition} :
    (l.after r).straySuccesses k = l.straySuccesses k := rfl

/-- A call of an earlier era that ends with a success is a stray one. -/
theorem straySuccesses_mark_pos (he : l.calls[id]? = some e) (hera : e.era < k) :
    0 < (l.mark id e (.settled false k)).straySuccesses k := by
  have hlt := (List.getElem?_eq_some_iff.mp he).1
  refine List.countP_pos_iff.mpr ⟨{ e with progress := .settled false k }, ?_, ?_⟩
  · exact List.mem_of_getElem? (List.getElem?_set_self hlt)
  · simp [hera]

/-- The calls that ended with a success in a half-open era are its probes and calls of
earlier eras. -/
theorem successesDuring_eq (hd : Dated c l) (h : Ordered l) (hs : l.breaker.state = .halfOpen) :
    l.successesDuring l.era = l.probeSuccesses l.era + l.straySuccesses l.era := by
  have hsplit := List.countP_eq_countP_filter_add l.calls
    (fun e => decide (e.progress = .settled false l.era)) (fun e => decide (e.era = l.era))
  rw [List.countP_filter, List.countP_filter] at hsplit
  rw [successesDuring, hsplit, probeSuccesses, straySuccesses]
  congr 1
  -- A call of this era was let in half-open, and so is a probe.
  · refine List.countP_congr fun e he => ?_
    simp only [Entry.isProbeOf, Bool.and_eq_true, decide_eq_true_eq, Progress.succeeded_iff]
    constructor
    · rintro ⟨hp, hera⟩
      exact ⟨⟨(hd.state_eq e he hera).trans hs, hera⟩, _, hp⟩
    · rintro ⟨⟨-, hera⟩, during, hp⟩
      obtain ⟨hle, hle'⟩ := h e he _ _ hp
      obtain rfl : during = l.era := by omega
      exact ⟨hp, hera⟩
  -- A call of another era that ended in this one was let in before.
  · refine List.countP_congr fun e he => ?_
    simp only [Bool.and_eq_true, decide_eq_true_eq, Bool.not_eq_true', decide_eq_false_iff_not]
    constructor
    · rintro ⟨hp, hera⟩
      have hle := (h e he _ _ hp).1
      exact ⟨by omega, hp⟩
    · rintro ⟨hera, hp⟩
      exact ⟨hp, by omega⟩

namespace Tallied

theorem blank (c : Config) : Tallied (blank c) where
  ordered := by simp [Ordered, Ledger.blank]
  successes h := by cases h
  successes_lt h := by cases h

/-- An operation on the breaker keeps the tally if it leaves the successes as they are,
or starts a period without any. -/
theorem after {target : State} {r : CircuitBreaker × Option Transition} (hd : Dated c l)
    (h : Tallied l) (hr : l.breaker.Moves target r)
    (hsucc : r.1.state = .halfOpen →
      r.1.successes = if r.2.isSome then 0 else l.breaker.successes) : Tallied (l.after r) := by
  cases hr with
  | keep config state period =>
    rw [after_none]
    refine ⟨h.ordered, fun hs => ?_, fun hs => ?_⟩
    · exact (hsucc hs).trans (h.successes (state ▸ hs))
    · rw [hsucc hs, config]
      exact h.successes_lt (state ▸ hs)
  | @enter b config _ _ period =>
    have hera : (l.after (b, some ⟨l.breaker.state, target⟩)).era = l.era + 1 := era_after _
    have hzero : b.state = .halfOpen → b.successes = 0 := hsucc
    refine ⟨h.ordered.after _, fun hs => ?_, fun hs => ?_⟩
    · refine (hzero hs).trans (Eq.symm ?_)
      simp only [successesDuring, List.countP_eq_zero, decide_eq_true_eq]
      -- Nothing has ended in the era that only begins.
      intro e he hp
      have hle := (h.ordered e he _ _ hp).2
      omega
    · show b.successes < b.config.successThreshold.toNat
      rw [hzero hs, config, hd.config, c.clamp_successThreshold_toNat]
      omega

theorem enrol (h : Tallied l) (hp : ∀ failed during, progress ≠ .settled failed during) :
    Tallied (l.enrol p progress) where
  ordered x hx failed during hx' := by
    rcases List.mem_append.mp hx with hx | hx
    · exact h.ordered x hx failed during hx'
    · rw [List.mem_singleton.mp hx] at hx'
      exact absurd hx' (hp failed during)
  successes hs := by
    rw [successesDuring_enrol]
    · exact h.successes hs
    · refine Bool.eq_false_iff.mpr fun hsucc => ?_
      obtain ⟨k, rfl⟩ := Progress.succeeded_iff.mp hsucc
      exact hp _ _ rfl
  successes_lt := h.successes_lt

/-- A call that ends, or does not yet, but not with a success. -/
theorem mark (h : Tallied l) (hd : Dated c l) (he : l.find? id progress = some e)
    (hp : progress.succeeded = false) {progress' : Progress} (hp' : progress'.succeeded = false)
    (hduring : ∀ failed during, progress' = .settled failed during → during = l.era) :
    Tallied (l.mark id e progress') where
  ordered := h.ordered.mark hd (mem_of_find? he) hduring
  successes hs := by
    rw [successesDuring_mark he hp, if_neg, Nat.add_zero]
    · exact h.successes hs
    · intro heq
      rw [heq] at hp'
      cases hp'
  successes_lt := h.successes_lt

/-- A success that does not close a half-open circuit is counted. -/
theorem success (h : Tallied l) (hd : Dated c l) (he : l.find? id .running = some e) :
    Tallied ((l.mark id e (.settled false l.era)).after (l.breaker.settle e.permit false now)) := by
  have hmark : Ordered (l.mark id e (.settled false l.era)) :=
    h.ordered.mark hd (mem_of_find? he) fun _ _ hp => by cases hp; rfl
  have hordered := hmark.after (l.breaker.settle e.permit false now)
  obtain ⟨hs, hb⟩ | ⟨hs, hlt, hb⟩ | ⟨-, -, hb⟩ | ⟨hs, hb⟩ :=
    l.breaker.settle_success_cases e.permit now <;> rw [hb] at hordered ⊢
  · exact ⟨hordered, fun hs' => by simp [hs] at hs', fun hs' => by simp [hs] at hs'⟩
  · refine ⟨hordered, fun _ => ?_, fun _ => ?_⟩
    · have hcount : countUp l.breaker.successes = l.breaker.successes + 1 :=
        countUp_eq_of_lt (h.successes_lt hs)
      simp only [after_none]
      show countUp l.breaker.successes = (l.mark id e (.settled false l.era)).successesDuring l.era
      rw [hcount, h.successes hs, successesDuring_mark he rfl, if_pos rfl]
    · simpa using hlt
  · exact ⟨hordered, fun hs' => by simp at hs', fun hs' => by simp at hs'⟩
  · exact ⟨hordered, fun hs' => by simp [hs] at hs', fun hs' => by simp [hs] at hs'⟩

/-- Every act keeps the tally. -/
theorem step (hd : Dated c l) (h : Tallied l) (hstep : l.step now a = some l') : Tallied l' := by
  cases a with
  | request =>
    have hmax := hd.maxHalfOpenProbes_pos
    have hafter := h.after hd (moves_request hmax now) fun _ => successes_request hmax now
    obtain ⟨-, rfl⟩ | ⟨p, -, rfl⟩ := step_request_cases hstep
    · exact hafter
    · -- The call that is entered has not ended.
      refine hafter.enrol fun failed during => ?_
      split <;> simp
  | announced id panics =>
    obtain ⟨e, he, rfl⟩ := Option.map_eq_some_iff.mp hstep
    exact h.mark hd he rfl (by cases panics <;> rfl) fun _ _ hp => by cases panics <;> cases hp
  | settle id failed =>
    obtain ⟨e, he, rfl⟩ := Option.map_eq_some_iff.mp hstep
    cases failed with
    | true =>
      have hmark : Tallied (l.mark id e (.settled true l.era)) :=
        h.mark hd he rfl rfl fun _ _ hp => by cases hp; rfl
      refine hmark.after (hd.mark (mem_of_find? he)) (moves_settle_failure ..) fun hs => ?_
      exact absurd hs (l.breaker.state_settle_failure_ne_halfOpen e.permit now)
    | false => exact h.success hd he
  | drop id =>
    obtain ⟨e, he, rfl⟩ := Option.map_eq_some_iff.mp hstep
    have hmark : Tallied (l.mark id e .dropped) := h.mark hd he rfl rfl fun _ _ hp => by cases hp
    exact hmark.after (hd.mark (mem_of_find? he)) (moves_abandon _ _ .closed) fun _ =>
      successes_freeProbe
  | observe =>
    obtain rfl := Option.some.inj hstep
    exact h.after hd (moves_observe ..) fun _ => successes_observe ..
  | reset =>
    obtain rfl := Option.some.inj hstep
    refine h.after hd (moves_reset _) fun hs => ?_
    rw [state_reset] at hs
    cases hs
  | forceOpen =>
    obtain rfl := Option.some.inj hstep
    refine h.after hd (moves_forceOpen ..) fun hs => ?_
    rw [state_forceOpen] at hs
    cases hs

end Tallied

/-- After every run entries and permits agree, and the tally is right. -/
theorem tallied_run (hrun : (blank c).run acts = some l) : Dated c l ∧ Tallied l :=
  run_induction (P := fun l => Dated c l ∧ Tallied l)
    (fun _ _ _ _ _ h hstep => ⟨h.1.step hstep, h.2.step h.1 hstep⟩)
    ⟨.blank c, .blank c⟩ hrun

/-! ## Closing -/

/-- Only a success and a reset close a circuit. -/
theorem settle_of_close (hd : Dated c l) (hs : l.breaker.state = .halfOpen)
    (hstep : l.step now a = some l') (hclosed : l'.breaker.state = .closed) (hne : a ≠ .reset) :
    ∃ id e, a = .settle id false ∧ l.find? id .running = some e ∧
      l.breaker.config.successThreshold.toNat ≤ countUp l.breaker.successes := by
  have htarget := hd.state_step hstep (by rw [hs, hclosed]; decide)
  rw [hclosed] at htarget
  match a with
  | .settle id false =>
    obtain ⟨e, he, rfl⟩ := Option.map_eq_some_iff.mp hstep
    refine ⟨id, e, rfl, he, ?_⟩
    have hclosed : (l.breaker.settle e.permit false now).1.state = .closed := hclosed
    obtain ⟨hs', -⟩ | ⟨-, -, hb⟩ | ⟨-, hle, -⟩ | ⟨hs', -⟩ :=
      l.breaker.settle_success_cases e.permit now
    · rw [hs] at hs'; cases hs'
    · rw [hb] at hclosed; simp [hs] at hclosed
    · exact hle
    · rw [hs] at hs'; cases hs'
  | .reset => exact absurd rfl hne
  | .request | .observe | .settle _ true | .forceOpen | .announced .. | .drop _ => cases htarget

/-- **What closes a half-open circuit.** Unless it is reset, a half-open circuit closes
when a call ends with a success, and as many calls have then ended with a success in
this era as the threshold asks for. All of them, the last one included, were let in as
probes of this half-open period exactly if no call that was let in earlier has ended
with a success in it. -/
theorem close_iff_probes (hrun : (blank c).run acts = some l) (hs : l.breaker.state = .halfOpen)
    (hstep : l.step now a = some l') (hclosed : l'.breaker.state = .closed) (hne : a ≠ .reset) :
    ∃ id e, a = .settle id false ∧ l.calls[id]? = some e ∧ e.progress = .running ∧
      l'.probeSuccesses l.era + l'.straySuccesses l.era = max c.successThreshold.toNat 1 ∧
      (e.isProbeOf l.era = true ∧ l'.probeSuccesses l.era = max c.successThreshold.toNat 1 ↔
        l'.straySuccesses l.era = 0) := by
  obtain ⟨hd, h⟩ := tallied_run hrun
  obtain ⟨id, e, rfl, he, hle⟩ := settle_of_close hd hs hstep hclosed hne
  obtain ⟨hget, hprogress⟩ := find?_eq_some_iff.mp he
  have hmem := mem_of_find? he
  obtain ⟨x, hx, rfl⟩ := Option.map_eq_some_iff.mp hstep
  obtain rfl := Option.some.inj (he.symm.trans hx)
  have hordered : Ordered (l.mark id e (.settled false l.era)) :=
    h.ordered.mark hd hmem fun _ _ hp => by cases hp; rfl
  have hsplit := successesDuring_eq (hd.mark hmem) hordered hs
  have hsum : (l.mark id e (.settled false l.era)).successesDuring l.era =
      max c.successThreshold.toNat 1 := by
    -- Before the act the tally is below the threshold, and the act adds one to it.
    have hlt := h.successes_lt hs
    rw [countUp_eq_of_lt hlt] at hle
    rw [hd.config, c.clamp_successThreshold_toNat] at hle hlt
    rw [successesDuring_mark he rfl, if_pos rfl, ← h.successes hs]
    omega
  have hadd : (l.mark id e (.settled false l.era)).probeSuccesses l.era +
      (l.mark id e (.settled false l.era)).straySuccesses l.era = max c.successThreshold.toNat 1 :=
    hsplit.symm.trans hsum
  refine ⟨id, e, rfl, hget, hprogress, hadd, ?_⟩
  simp only [probeSuccesses_after, straySuccesses_after]
  constructor
  · rintro ⟨-, hall⟩
    omega
  · intro hnone
    refine ⟨?_, by omega⟩
    -- Were the closing call an earlier one, its own success would be a stray one.
    have hera : e.era = l.era := by
      refine Nat.le_antisymm (hd.era_le e hmem) (Nat.le_of_not_lt fun hlt => ?_)
      have hstray := straySuccesses_mark_pos hget hlt
      omega
    simp [Entry.isProbeOf, hera, (hd.state_eq e hmem hera).trans hs]

/-- Two probes close a circuit that asks for two. -/
theorem close_of_two_probes :
    ∃ l l', (blank { Config.strict with cooldown := .ofMillis 10 }).run
        [(0, .forceOpen), (10000000, .request), (10000000, .announced 0 false),
          (10000000, .settle 0 false), (10000000, .request)] = some l ∧
      l.breaker.state = .halfOpen ∧ l.step 10000000 (.settle 1 false) = some l' ∧
      l'.breaker.state = .closed ∧ l'.probeSuccesses l.era = 2 := by
  refine ⟨_, _, rfl, rfl, rfl, rfl, ?_⟩
  have hrun : (blank { Config.strict with cooldown := .ofMillis 10 }).run
      [(0, .forceOpen), (10000000, .request), (10000000, .announced 0 false),
        (10000000, .settle 0 false), (10000000, .request)] = some _ := rfl
  obtain ⟨_, _, -, -, -, -, hiff⟩ := close_iff_probes hrun rfl
    (show Ledger.step _ 10000000 (.settle 1 false) = some _ from rfl) rfl (by decide)
  exact (hiff.mpr rfl).2

/-- A call that was let in closed ends with a success when the circuit is half-open, and
closes it. No call was ever let in as a probe. -/
theorem close_of_stray :
    ∃ l l', (blank { Config.default with failureThreshold := 1, cooldown := .ofMillis 10 }).run
        [(0, .request), (0, .request), (0, .settle 1 true), (10000000, .observe)] = some l ∧
      l.breaker.state = .halfOpen ∧ l.step 50000000 (.settle 0 false) = some l' ∧
      l'.breaker.state = .closed ∧ l'.probeSuccesses l.era = 0 ∧
      ∀ e ∈ l'.calls, e.state = .closed :=
  ⟨_, _, rfl, rfl, rfl, rfl, rfl, by decide⟩

end Safeguard.CircuitBreaker.Ledger
