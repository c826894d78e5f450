import Safeguard.CircuitBreaker.Basic

/-!
# What each operation does to a breaker

Every operation on a breaker either keeps its state or enters another one, and
which of the two happens depends on little. This file says, once for each
operation, all that it can do; everything about runs of a breaker is derived from
these case distinctions, and nothing else opens the operations.

## Main results

* `CircuitBreaker.refresh_cases`, `CircuitBreaker.request_cases`: looking at a
  breaker, and asking it for admission.
* `CircuitBreaker.settle_failure_cases`, `CircuitBreaker.settle_success_cases`: the
  end of a call with a result.
* `CircuitBreaker.reset_cases`, `CircuitBreaker.forceOpen_cases`: taking a hand in
  the state.
* `CircuitBreaker.Moves`: what all of them have in common.
-/

namespace Safeguard.CircuitBreaker

/-! ## Configurations and counts -/

theorem toNat_max_one (n : UInt32) : (max n 1).toNat = max n.toNat 1 := by
  show (if n ≤ 1 then 1 else n).toNat = max n.toNat 1
  by_cases h : n ≤ 1
  · rw [if_pos h]; exact (Nat.max_eq_right (UInt32.le_iff_toNat_le.mp h)).symm
  · rw [if_neg h]
    exact (Nat.max_eq_left (Nat.le_of_not_le (mt UInt32.le_iff_toNat_le.mpr h))).symm

/-- A clamped configuration admits a probe. -/
theorem Config.clamp_maxHalfOpenProbes_toNat (c : Config) :
    c.clamp.maxHalfOpenProbes.toNat = max c.maxHalfOpenProbes.toNat 1 :=
  toNat_max_one _

/-- A clamped configuration asks for a failure. -/
theorem Config.clamp_failureThreshold_toNat (c : Config) :
    c.clamp.failureThreshold.toNat = max c.failureThreshold.toNat 1 :=
  toNat_max_one _

/-- A clamped configuration asks for a success. -/
theorem Config.clamp_successThreshold_toNat (c : Config) :
    c.clamp.successThreshold.toNat = max c.successThreshold.toNat 1 :=
  toNat_max_one _

theorem countUp_eq_of_lt {n : Nat} {w : UInt32} (h : n < w.toNat) : countUp n = n + 1 := by
  have hw : w.toNat < UInt32.size := w.toNat_lt_size
  unfold countUp largestCount
  omega

variable {b : CircuitBreaker} {p : Permit} {now : Instant}

theorem state_cases (b : CircuitBreaker) :
    b.state = .closed ∨ b.state = .halfOpen ∨ b.state = .opened := by
  cases b.state <;> simp

/-! ## Places of probes -/

@[simp] theorem state_freeProbe : (b.freeProbe p).state = b.state := by
  unfold freeProbe; split <;> rfl

@[simp] theorem period_freeProbe : (b.freeProbe p).period = b.period := by
  unfold freeProbe; split <;> rfl

@[simp] theorem config_freeProbe : (b.freeProbe p).config = b.config := by
  unfold freeProbe; split <;> rfl

@[simp] theorem failures_freeProbe : (b.freeProbe p).failures = b.failures := by
  unfold freeProbe; split <;> rfl

@[simp] theorem successes_freeProbe : (b.freeProbe p).successes = b.successes := by
  unfold freeProbe; split <;> rfl

@[simp] theorem lastFailure_freeProbe : (b.freeProbe p).lastFailure = b.lastFailure := by
  unfold freeProbe; split <;> rfl

/-- A permit of the current period gives its place back. -/
theorem probes_freeProbe_of_eq (h : p.probe = some b.period) :
    (b.freeProbe p).probes = b.probes - 1 := by
  simp only [freeProbe, if_pos h]

/-- A permit of another period, or of no probe, changes nothing. -/
theorem freeProbe_of_ne (h : p.probe ≠ some b.period) : b.freeProbe p = b :=
  if_neg h

@[simp] theorem lastFailure_enter (s : State) : (b.enter s).lastFailure = b.lastFailure := by
  cases s <;> rfl

theorem transition_of_eq {s : State} (h : b.state = s) : b.transition s = (b, none) :=
  if_pos h

theorem transition_of_ne {s : State} (h : b.state ≠ s) :
    b.transition s = (b.enter s, some ⟨b.state, s⟩) :=
  if_neg h

/-! ## Looking at a breaker -/

theorem refresh_of_cooled (hs : b.state = .opened) (hc : b.cooled now = true) :
    b.refresh now = (b.enter .halfOpen, some ⟨.opened, .halfOpen⟩) := by
  have hne : b.state ≠ .halfOpen := by rw [hs]; decide
  rw [refresh, if_pos ⟨hs, hc⟩, transition_of_ne hne, hs]

theorem refresh_of_not_cooled (h : ¬ (b.state = .opened ∧ b.cooled now = true)) :
    b.refresh now = (b, none) :=
  if_neg h

theorem refresh_of_ne (h : b.state ≠ .opened) : b.refresh now = (b, none) :=
  refresh_of_not_cooled fun hopen => h hopen.1

theorem refresh_of_hot (h : b.cooled now = false) : b.refresh now = (b, none) :=
  refresh_of_not_cooled fun hopen => Bool.eq_false_iff.mp h hopen.2

/-- A look turns an open circuit half-open once its cooldown has passed, and
changes nothing otherwise. -/
theorem refresh_cases (b : CircuitBreaker) (now : Instant) :
    (b.state = .opened ∧ b.cooled now = true ∧
        b.refresh now = (b.enter .halfOpen, some ⟨.opened, .halfOpen⟩)) ∨
      ¬ (b.state = .opened ∧ b.cooled now = true) ∧ b.refresh now = (b, none) := by
  by_cases h : b.state = .opened ∧ b.cooled now = true
  · exact .inl ⟨h.1, h.2, refresh_of_cooled h.1 h.2⟩
  · exact .inr ⟨h, refresh_of_not_cooled h⟩

/-! ## Asking for admission -/

theorem request_of_closed (h : b.state = .closed) :
    b.request now = ({ b with totalRequests := b.totalRequests + 1 }, none, some ⟨none⟩) := by
  have hr : b.refresh now = (b, none) := refresh_of_ne (by rw [h]; decide)
  simp only [request, hr, h]

/-- A half-open circuit with a place left admits a probe of the current period. -/
theorem request_of_room (h : b.state = .halfOpen)
    (hroom : b.probes < b.config.maxHalfOpenProbes.toNat) :
    b.request now =
      ({ b with totalRequests := b.totalRequests + 1, probes := b.probes + 1 }, none,
        some ⟨some b.period⟩) := by
  have hr : b.refresh now = (b, none) := refresh_of_ne (by rw [h]; decide)
  simp only [request, hr, h, if_pos hroom]

theorem request_of_full (h : b.state = .halfOpen)
    (hfull : ¬ b.probes < b.config.maxHalfOpenProbes.toNat) :
    b.request now =
      ({ b with totalRequests := b.totalRequests + 1,
                rejectedRequests := b.rejectedRequests + 1 }, none, none) := by
  have hr : b.refresh now = (b, none) := refresh_of_ne (by rw [h]; decide)
  simp only [request, hr, h, if_neg hfull]

theorem request_of_hot (h : b.state = .opened) (hhot : b.cooled now = false) :
    b.request now =
      ({ b with totalRequests := b.totalRequests + 1,
                rejectedRequests := b.rejectedRequests + 1 }, none, none) := by
  simp only [request, refresh_of_hot hhot, h]

/-- The first call after the cooldown starts the half-open period, and is its first
probe. -/
theorem request_of_cooled (hmax : 0 < b.config.maxHalfOpenProbes.toNat)
    (h : b.state = .opened) (hcool : b.cooled now = true) :
    b.request now =
      ({ b.enter .halfOpen with totalRequests := b.totalRequests + 1, probes := 1 },
        some ⟨.opened, .halfOpen⟩, some ⟨some (b.period + 1)⟩) := by
  simp only [request, refresh_of_cooled h hcool, enter]
  rw [if_pos hmax]

/-- All that can come of asking for admission. -/
theorem request_cases (hmax : 0 < b.config.maxHalfOpenProbes.toNat) (now : Instant) :
    (b.state = .closed ∧
        b.request now = ({ b with totalRequests := b.totalRequests + 1 }, none, some ⟨none⟩)) ∨
      (b.state = .halfOpen ∧ b.probes < b.config.maxHalfOpenProbes.toNat ∧
        b.request now =
          ({ b with totalRequests := b.totalRequests + 1, probes := b.probes + 1 }, none,
            some ⟨some b.period⟩)) ∨
      (b.state = .opened ∧ b.cooled now = true ∧
        b.request now =
          ({ b.enter .halfOpen with totalRequests := b.totalRequests + 1, probes := 1 },
            some ⟨.opened, .halfOpen⟩, some ⟨some (b.period + 1)⟩)) ∨
      ((b.state = .halfOpen ∧ ¬ b.probes < b.config.maxHalfOpenProbes.toNat ∨
          b.state = .opened ∧ b.cooled now = false) ∧
        b.request now =
          ({ b with totalRequests := b.totalRequests + 1,
                    rejectedRequests := b.rejectedRequests + 1 }, none, none)) := by
  obtain hs | hs | hs := b.state_cases
  · exact .inl ⟨hs, request_of_closed hs⟩
  · by_cases hroom : b.probes < b.config.maxHalfOpenProbes.toNat
    · exact .inr (.inl ⟨hs, hroom, request_of_room hs hroom⟩)
    · exact .inr (.inr (.inr ⟨.inl ⟨hs, hroom⟩, request_of_full hs hroom⟩))
  · by_cases hc : b.cooled now = true
    · exact .inr (.inr (.inl ⟨hs, hc, request_of_cooled hmax hs hc⟩))
    · have hhot : b.cooled now = false := Bool.eq_false_iff.mpr hc
      exact .inr (.inr (.inr ⟨.inr ⟨hs, hhot⟩, request_of_hot hs hhot⟩))

/-! ## The end of a call -/

/-- A failure keeps a closed circuit below its threshold and an open one, and opens
the circuit otherwise. Either way it is the last failure from now on. -/
theorem settle_failure_cases (b : CircuitBreaker) (p : Permit) (now : Instant) :
    ((b.state = .opened ∨
          b.state = .closed ∧ countUp b.failures < b.config.failureThreshold.toNat) ∧
        b.settle p true now =
          ({ b.freeProbe p with
              failures := countUp b.failures, successes := 0, lastFailure := some now }, none)) ∨
      (b.state = .halfOpen ∨
          b.state = .closed ∧ b.config.failureThreshold.toNat ≤ countUp b.failures) ∧
        b.settle p true now =
          ({ b.freeProbe p with
              failures := countUp b.failures, successes := 0,
              lastFailure := some now }.enter .opened, some ⟨b.state, .opened⟩) := by
  obtain hs | hs | hs := b.state_cases
  · by_cases ht : b.config.failureThreshold.toNat ≤ countUp b.failures
    · refine .inr ⟨.inr ⟨hs, ht⟩, ?_⟩
      simp [settle, recordFailure, hs, ht, transition]
    · refine .inl ⟨.inr ⟨hs, Nat.lt_of_not_le ht⟩, ?_⟩
      simp [settle, recordFailure, hs, ht]
  · refine .inr ⟨.inl hs, ?_⟩
    simp [settle, recordFailure, hs, transition]
  · refine .inl ⟨.inl hs, ?_⟩
    simp [settle, recordFailure, hs]

/-- A success ends a run of failures, counts towards closing a half-open circuit,
and is lost on an open one. -/
theorem settle_success_cases (b : CircuitBreaker) (p : Permit) (now : Instant) :
    (b.state = .closed ∧
        b.settle p false now =
          ({ b.freeProbe p with failures := 0, successes := countUp b.successes }, none)) ∨
      (b.state = .halfOpen ∧ countUp b.successes < b.config.successThreshold.toNat ∧
        b.settle p false now =
          ({ b.freeProbe p with successes := countUp b.successes }, none)) ∨
      (b.state = .halfOpen ∧ b.config.successThreshold.toNat ≤ countUp b.successes ∧
        b.settle p false now =
          ({ b.freeProbe p with successes := countUp b.successes }.enter .closed,
            some ⟨.halfOpen, .closed⟩)) ∨
      (b.state = .opened ∧ b.settle p false now = (b.freeProbe p, none)) := by
  obtain hs | hs | hs := b.state_cases
  · refine .inl ⟨hs, ?_⟩
    simp [settle, recordSuccess, hs]
  · by_cases ht : b.config.successThreshold.toNat ≤ countUp b.successes
    · refine .inr (.inr (.inl ⟨hs, ht, ?_⟩))
      simp [settle, recordSuccess, hs, ht, transition]
    · refine .inr (.inl ⟨hs, Nat.lt_of_not_le ht, ?_⟩)
      simp [settle, recordSuccess, hs, ht]
  · refine .inr (.inr (.inr ⟨hs, ?_⟩))
    simp [settle, recordSuccess, hs]

/-! ## Taking a hand in the state -/

/-- A reset closes the circuit unless it is closed, and clears the counts. -/
theorem reset_cases (b : CircuitBreaker) :
    (b.state = .closed ∧ b.reset = ({ b with failures := 0, successes := 0, probes := 0 }, none)) ∨
      b.state ≠ .closed ∧ b.reset = (b.enter .closed, some ⟨b.state, .closed⟩) := by
  by_cases hs : b.state = .closed
  · exact .inl ⟨hs, by simp only [reset, transition_of_eq hs]⟩
  · exact .inr ⟨hs, by simp only [reset, transition_of_ne hs, enter]⟩

/-- Forcing the circuit open starts a new cooldown, also if it is open already. -/
theorem forceOpen_cases (b : CircuitBreaker) (now : Instant) :
    (b.state = .opened ∧ b.forceOpen now = ({ b with lastFailure := some now }, none)) ∨
      b.state ≠ .opened ∧
        b.forceOpen now =
          ({ b with lastFailure := some now }.enter .opened, some ⟨b.state, .opened⟩) := by
  by_cases hs : b.state = .opened
  · exact .inl ⟨hs, transition_of_eq hs⟩
  · exact .inr ⟨hs, transition_of_ne hs⟩

/-! ## State and period -/

/-- What an operation does to state and period: it keeps both and reports nothing, or it
enters a state that depends on the operation alone, which starts a period, and reports
that. -/
inductive Moves (b : CircuitBreaker) (target : State) :
    CircuitBreaker × Option Transition → Prop where
  | keep {b' : CircuitBreaker} (config : b'.config = b.config) (state : b'.state = b.state)
      (period : b'.period = b.period) : Moves b target (b', none)
  | enter {b' : CircuitBreaker} (config : b'.config = b.config) (source : b.state ≠ target)
      (state : b'.state = target) (period : b'.period = b.period + 1) :
      Moves b target (b', some ⟨b.state, target⟩)

section Moves

variable {target : State} {r : CircuitBreaker × Option Transition}

theorem Moves.config_eq (h : b.Moves target r) : r.1.config = b.config := by
  cases h <;> assumption

theorem Moves.state_eq (h : b.Moves target r) :
    r.1.state = b.state ∧ r.2 = none ∨
      b.state ≠ target ∧ r.1.state = target ∧ r.2 = some ⟨b.state, target⟩ := by
  cases h with
  | keep _ state _ => exact .inl ⟨state, rfl⟩
  | enter _ source state _ => exact .inr ⟨source, state, rfl⟩

end Moves

theorem moves_observe (b : CircuitBreaker) (now : Instant) :
    b.Moves .halfOpen (b.observe now) := by
  unfold observe
  obtain ⟨hs, -, h⟩ | ⟨-, h⟩ := b.refresh_cases now
  · rw [h, ← hs]; exact .enter (by simp) (by simp [hs]) (by simp) (by simp)
  · rw [h]; exact .keep rfl rfl rfl

theorem moves_request (hmax : 0 < b.config.maxHalfOpenProbes.toNat) (now : Instant) :
    b.Moves .halfOpen ((b.request now).1, (b.request now).2.1) := by
  obtain ⟨-, h⟩ | ⟨-, -, h⟩ | ⟨hs, -, h⟩ | ⟨-, h⟩ := request_cases hmax now
  · rw [h]; exact .keep rfl rfl rfl
  · rw [h]; exact .keep rfl rfl rfl
  · rw [h, ← hs]; exact .enter rfl (by simp [hs]) rfl (by simp)
  · rw [h]; exact .keep rfl rfl rfl

/-- A failure can only open the circuit. -/
theorem moves_settle_failure (b : CircuitBreaker) (p : Permit) (now : Instant) :
    b.Moves .opened (b.settle p true now) := by
  obtain ⟨-, h⟩ | ⟨hs, h⟩ := b.settle_failure_cases p now
  · rw [h]; exact .keep (by simp) (by simp) (by simp)
  · have hne : b.state ≠ .opened := by rcases hs with hs | ⟨hs, -⟩ <;> simp [hs]
    rw [h]; exact .enter (by simp) hne (by simp) (by simp)

/-- A success can only close it. -/
theorem moves_settle_success (b : CircuitBreaker) (p : Permit) (now : Instant) :
    b.Moves .closed (b.settle p false now) := by
  obtain ⟨-, h⟩ | ⟨-, -, h⟩ | ⟨hs, -, h⟩ | ⟨-, h⟩ := b.settle_success_cases p now
  · rw [h]; exact .keep (by simp) (by simp) (by simp)
  · rw [h]; exact .keep (by simp) (by simp) (by simp)
  · rw [h, ← hs]; exact .enter (by simp) (by simp [hs]) (by simp) (by simp)
  · rw [h]; exact .keep (by simp) (by simp) (by simp)

/-- The end of a call never turns a circuit half-open. -/
theorem state_settle_ne_halfOpen {failed : Bool}
    (h : (b.settle p failed now).2.isSome = true) :
    (b.settle p failed now).1.state ≠ .halfOpen := by
  cases failed with
  | true =>
    obtain ⟨-, hnone⟩ | ⟨-, hs, -⟩ := (b.moves_settle_failure p now).state_eq
    · rw [hnone] at h; cases h
    · rw [hs]; decide
  | false =>
    obtain ⟨-, hnone⟩ | ⟨-, hs, -⟩ := (b.moves_settle_success p now).state_eq
    · rw [hnone] at h; cases h
    · rw [hs]; decide

theorem state_settle_failure_ne_halfOpen (b : CircuitBreaker) (p : Permit) (now : Instant) :
    (b.settle p true now).1.state ≠ .halfOpen := by
  obtain ⟨hs | ⟨hs, -⟩, h⟩ | ⟨-, h⟩ := b.settle_failure_cases p now
  · rw [h]; simp [hs]
  · rw [h]; simp [hs]
  · rw [h]; simp

theorem moves_abandon (b : CircuitBreaker) (p : Permit) (target : State) :
    b.Moves target (b.abandon p, none) :=
  .keep config_freeProbe state_freeProbe period_freeProbe

theorem state_reset (b : CircuitBreaker) : b.reset.1.state = .closed := by
  obtain ⟨hs, h⟩ | ⟨-, h⟩ := b.reset_cases
  · rw [h]; exact hs
  · rw [h, state_enter]

theorem state_forceOpen (b : CircuitBreaker) (now : Instant) :
    (b.forceOpen now).1.state = .opened := by
  obtain ⟨hs, h⟩ | ⟨-, h⟩ := b.forceOpen_cases now
  · rw [h]; exact hs
  · rw [h, state_enter]

theorem moves_reset (b : CircuitBreaker) : b.Moves .closed b.reset := by
  obtain ⟨-, h⟩ | ⟨hs, h⟩ := b.reset_cases
  · rw [h]; exact .keep rfl rfl rfl
  · rw [h]; exact .enter (by simp) hs (by simp) (by simp)

theorem moves_forceOpen (b : CircuitBreaker) (now : Instant) :
    b.Moves .opened (b.forceOpen now) := by
  obtain ⟨-, h⟩ | ⟨hs, h⟩ := b.forceOpen_cases now
  · rw [h]; exact .keep rfl rfl rfl
  · rw [h]; exact .enter (by simp) hs (by simp) (by simp)

/-! ## The number of probes

A new period has no probes; within a period admission adds one, and only the end of a
call and a reset take any away. -/

theorem probes_request (hmax : 0 < b.config.maxHalfOpenProbes.toNat) (now : Instant) :
    (b.request now).1.probes =
      (if (b.request now).2.1.isSome then 0 else b.probes) +
        (if (b.request now).1.state = .halfOpen ∧ (b.request now).2.2.isSome then 1 else 0) := by
  obtain ⟨hs, h⟩ | ⟨hs, -, h⟩ | ⟨-, -, h⟩ | ⟨-, h⟩ := request_cases hmax now
  · simp [h, hs]
  · simp [h, hs]
  · simp [h]
  · simp [h]

theorem probes_request_le (hmax : 0 < b.config.maxHalfOpenProbes.toNat)
    (h : b.probes ≤ b.config.maxHalfOpenProbes.toNat) (now : Instant) :
    (b.request now).1.probes ≤ b.config.maxHalfOpenProbes.toNat := by
  obtain ⟨-, hb⟩ | ⟨-, hroom, hb⟩ | ⟨-, -, hb⟩ | ⟨-, hb⟩ := request_cases hmax now
  · rw [hb]; exact h
  · rw [hb]; exact hroom
  · rw [hb]; exact hmax
  · rw [hb]; exact h

theorem probes_observe (b : CircuitBreaker) (now : Instant) :
    (b.observe now).1.probes = if (b.observe now).2.isSome then 0 else b.probes := by
  unfold observe
  obtain ⟨-, -, h⟩ | ⟨-, h⟩ := b.refresh_cases now <;> simp [h]

theorem probes_settle (b : CircuitBreaker) (p : Permit) (failed : Bool) (now : Instant) :
    (b.settle p failed now).1.probes =
      if (b.settle p failed now).2.isSome then 0 else (b.freeProbe p).probes := by
  cases failed with
  | true => obtain ⟨-, h⟩ | ⟨-, h⟩ := b.settle_failure_cases p now <;> simp [h]
  | false =>
    obtain ⟨-, h⟩ | ⟨-, -, h⟩ | ⟨-, -, h⟩ | ⟨-, h⟩ := b.settle_success_cases p now <;> simp [h]

theorem probes_forceOpen (b : CircuitBreaker) (now : Instant) :
    (b.forceOpen now).1.probes = if (b.forceOpen now).2.isSome then 0 else b.probes := by
  obtain ⟨-, h⟩ | ⟨-, h⟩ := b.forceOpen_cases now <;> simp [h]

/-! ## The number of successes

A half-open period starts without successes, and asking and looking add none. -/

theorem successes_request (hmax : 0 < b.config.maxHalfOpenProbes.toNat) (now : Instant) :
    (b.request now).1.successes = if (b.request now).2.1.isSome then 0 else b.successes := by
  obtain ⟨-, h⟩ | ⟨-, -, h⟩ | ⟨-, -, h⟩ | ⟨-, h⟩ := request_cases hmax now
  · rw [h]; rfl
  · rw [h]; rfl
  · rw [h]; rfl
  · rw [h]; rfl

theorem successes_observe (b : CircuitBreaker) (now : Instant) :
    (b.observe now).1.successes = if (b.observe now).2.isSome then 0 else b.successes := by
  unfold observe
  obtain ⟨-, -, h⟩ | ⟨-, h⟩ := b.refresh_cases now
  · rw [h]; rfl
  · rw [h]; rfl

end Safeguard.CircuitBreaker
