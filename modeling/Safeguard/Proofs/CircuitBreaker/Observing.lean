import Safeguard.Proofs.CircuitBreaker.Ledger

/-!
# What looking at a breaker changes

Whoever looks at a breaker may turn it half-open, if it is open and its cooldown is over. The
next request would do so anyway, so that a look should change nothing for anybody else: with
additional looks a run admits the same calls, and the other looks see the same states.

The two runs differ for a while in the state that is stored. Without the look the circuit is
still open, with it the circuit is half-open and waits for its first probe. Whatever happens
next brings them together again, except for one thing: a call that was let in earlier and
ends with a success then. An open circuit ignores it, and a half-open one counts it.

## Main definitions

* `Synced`, `Peers`: two breakers that answer alike.
* `Ledger.Item`, `Ledger.answers`: a run with additional looks, and what it is answered.
* `Ledger.Conceals`: a success ends while a circuit is open whose cooldown is over.
* `Ledger.Alike`: the runs with and without the looks.

## Main results

* `Ledger.answers_of_looks`: looks change no answer, unless a success is concealed without
  them.
-/

namespace Safeguard.CircuitBreaker

/-! ## Breakers that answer alike -/

/-- Two breakers that differ in the number of their period and in their statistics at most.
Probes and successes count only while they are half-open. -/
structure Synced (b b' : CircuitBreaker) : Prop where
  config : b'.config = b.config
  state : b'.state = b.state
  failures : b'.failures = b.failures
  lastFailure : b'.lastFailure = b.lastFailure
  probes : b.state = .halfOpen → b'.probes = b.probes
  successes : b.state = .halfOpen → b'.successes = b.successes

/-- Two permits that give a place back to their breakers, or both do not. -/
def Permit.Matches (b b' : CircuitBreaker) (p p' : Permit) : Prop :=
  p.probe = some b.period ↔ p'.probe = some b'.period

/-- The first breaker answers like the second one, since they are in step or will be as soon
as anybody looks at the first. -/
def Peers (b b' : CircuitBreaker) (now : Instant) : Prop :=
  Synced b b' ∨ b.state = .opened ∧ b.cooled now = true ∧ Synced (b.enter .halfOpen) b'

variable {b b' : CircuitBreaker} {p p' : Permit} {now t : Instant} {failed : Bool}

namespace Synced

theorem refl (b : CircuitBreaker) : Synced b b := ⟨rfl, rfl, rfl, rfl, fun _ => rfl, fun _ => rfl⟩

theorem enter (h : Synced b b') (s : State) : Synced (b.enter s) (b'.enter s) := by
  cases s with
  | closed => exact ⟨h.config, rfl, rfl, h.lastFailure, by simp, by simp⟩
  | opened => exact ⟨h.config, rfl, h.failures, h.lastFailure, by simp, by simp⟩
  | halfOpen =>
    exact ⟨h.config, rfl, h.failures, h.lastFailure, fun _ => rfl, fun _ => rfl⟩

theorem cooled (h : Synced b b') : b'.cooled now = b.cooled now := by
  simp only [CircuitBreaker.cooled, h.config, h.lastFailure]

theorem observe (h : Synced b b') (now : Instant) :
    Synced (b.observe now).1 (b'.observe now).1 ∧
      (b'.observe now).2.isSome = (b.observe now).2.isSome := by
  unfold CircuitBreaker.observe
  obtain ⟨hs, hc, hb⟩ | ⟨hn, hb⟩ := b.refresh_cases now
  · have hb' := refresh_of_cooled (h.state.trans hs) (h.cooled.trans hc)
    rw [hb, hb']
    exact ⟨h.enter .halfOpen, rfl⟩
  · have hb' : b'.refresh now = (b', none) := refresh_of_not_cooled (by rwa [h.state, h.cooled])
    rw [hb, hb']
    exact ⟨h, rfl⟩

/-- A request is answered alike, and what is given to it matches. -/
theorem request (h : Synced b b') (hmax : 0 < b.config.maxHalfOpenProbes.toNat) (now : Instant) :
    Synced (b.request now).1 (b'.request now).1 ∧
      (b'.request now).2.1.isSome = (b.request now).2.1.isSome ∧
      ((b.request now).2.2 = none ∧ (b'.request now).2.2 = none ∨
        ∃ p p', (b.request now).2.2 = some p ∧ (b'.request now).2.2 = some p' ∧
          p.Matches (b.request now).1 (b'.request now).1 p') := by
  obtain ⟨hs, hb⟩ | ⟨hs, hroom, hb⟩ | ⟨hs, hc, hb⟩ | ⟨hfull, hb⟩ := request_cases hmax now
  · rw [hb, request_of_closed (h.state.trans hs)]
    exact ⟨⟨h.config, h.state, h.failures, h.lastFailure, h.probes, h.successes⟩, rfl,
      .inr ⟨_, _, rfl, rfl, by simp [Permit.Matches]⟩⟩
  · have hroom' : b'.probes < b'.config.maxHalfOpenProbes.toNat := by
      rwa [h.config, h.probes hs]
    rw [hb, request_of_room (h.state.trans hs) hroom']
    refine ⟨⟨h.config, h.state, h.failures, h.lastFailure, fun hs => ?_, h.successes⟩, rfl,
      .inr ⟨_, _, rfl, rfl, by simp [Permit.Matches]⟩⟩
    exact congrArg (· + 1) (h.probes hs)
  · rw [hb, request_of_cooled (h.config ▸ hmax) (h.state.trans hs) (h.cooled.trans hc)]
    exact ⟨⟨h.config, rfl, h.failures, h.lastFailure, fun _ => rfl, fun _ => rfl⟩, rfl,
      .inr ⟨_, _, rfl, rfl, by simp [Permit.Matches]⟩⟩
  · have hb' : b'.request now =
        ({ b' with
            totalRequests := b'.totalRequests + 1
            rejectedRequests := b'.rejectedRequests + 1 }, none, none) := by
      rcases hfull with ⟨hs, hfull⟩ | ⟨hs, hhot⟩
      · exact request_of_full (h.state.trans hs) (by rwa [h.config, h.probes hs])
      · exact request_of_hot (h.state.trans hs) (h.cooled.trans hhot)
    rw [hb, hb']
    exact ⟨⟨h.config, h.state, h.failures, h.lastFailure, h.probes, h.successes⟩, rfl,
      .inl ⟨rfl, rfl⟩⟩

theorem freeProbe (h : Synced b b') (hp : p.Matches b b' p') :
    Synced (b.freeProbe p) (b'.freeProbe p') := by
  by_cases hcurrent : p.probe = some b.period
  · simp only [CircuitBreaker.freeProbe, if_pos hcurrent, if_pos (hp.mp hcurrent)]
    exact ⟨h.config, h.state, h.failures, h.lastFailure,
      fun hs => congrArg (· - 1) (h.probes hs), h.successes⟩
  · rw [freeProbe_of_ne hcurrent, freeProbe_of_ne (mt hp.mpr hcurrent)]
    exact h

theorem settle_failure (h : Synced b b') (hp : p.Matches b b' p') (now : Instant) :
    Synced (b.settle p true now).1 (b'.settle p' true now).1 ∧
      (b'.settle p' true now).2.isSome = (b.settle p true now).2.isSome := by
  have hfree := h.freeProbe hp
  have hrecord : Synced
      { b.freeProbe p with
          failures := countUp b.failures, successes := 0, lastFailure := some now }
      { b'.freeProbe p' with
          failures := countUp b'.failures, successes := 0, lastFailure := some now } :=
    ⟨hfree.config, hfree.state, congrArg countUp h.failures, rfl, hfree.probes, fun _ => rfl⟩
  obtain ⟨hkeep, hb⟩ | ⟨hopen, hb⟩ := b.settle_failure_cases p now <;>
    obtain ⟨hkeep', hb'⟩ | ⟨hopen', hb'⟩ := b'.settle_failure_cases p' now <;>
    rw [hb, hb']
  · exact ⟨hrecord, rfl⟩
  · rw [h.state, h.failures, h.config] at hopen'
    rcases hkeep with hs | ⟨hs, hlt⟩ <;> simp [hs] at hopen'
    omega
  · rw [h.state, h.failures, h.config] at hkeep'
    rcases hopen with hs | ⟨hs, hle⟩ <;> simp [hs] at hkeep'
    omega
  · exact ⟨hrecord.enter .opened, rfl⟩

theorem settle_success (h : Synced b b') (hp : p.Matches b b' p') (now : Instant) :
    Synced (b.settle p false now).1 (b'.settle p' false now).1 ∧
      (b'.settle p' false now).2.isSome = (b.settle p false now).2.isSome := by
  have hfree := h.freeProbe hp
  have hcount : b.state = .halfOpen → countUp b'.successes = countUp b.successes :=
    fun hs => congrArg countUp (h.successes hs)
  have hrecord : Synced { b.freeProbe p with successes := countUp b.successes }
      { b'.freeProbe p' with successes := countUp b'.successes } :=
    ⟨hfree.config, hfree.state, hfree.failures, hfree.lastFailure, hfree.probes,
      fun hs => hcount (state_freeProbe.symm.trans hs)⟩
  obtain ⟨hs, hb⟩ | ⟨hs, hlt, hb⟩ | ⟨hs, hle, hb⟩ | ⟨hs, hb⟩ := b.settle_success_cases p now <;>
    obtain ⟨hs', hb'⟩ | ⟨hs', hlt', hb'⟩ | ⟨hs', hle', hb'⟩ | ⟨hs', hb'⟩ :=
      b'.settle_success_cases p' now <;>
    rw [h.state, hs] at hs' <;> cases hs' <;> rw [hb, hb']
  · exact ⟨⟨hrecord.config, hrecord.state, rfl, hrecord.lastFailure, hrecord.probes,
      hrecord.successes⟩, rfl⟩
  · exact ⟨hrecord, rfl⟩
  · rw [hcount hs, h.config] at hle'
    exact absurd hlt (Nat.not_lt.mpr hle')
  · rw [hcount hs, h.config] at hlt'
    exact absurd hlt' (Nat.not_lt.mpr hle)
  · exact ⟨hrecord.enter .closed, rfl⟩
  · exact ⟨hfree, rfl⟩

theorem settle (h : Synced b b') (hp : p.Matches b b' p') (failed : Bool) (now : Instant) :
    Synced (b.settle p failed now).1 (b'.settle p' failed now).1 ∧
      (b'.settle p' failed now).2.isSome = (b.settle p failed now).2.isSome := by
  cases failed with
  | true => exact h.settle_failure hp now
  | false => exact h.settle_success hp now

theorem reset (h : Synced b b') :
    Synced b.reset.1 b'.reset.1 ∧ b'.reset.2.isSome = b.reset.2.isSome := by
  obtain ⟨hs, hb⟩ | ⟨hs, hb⟩ := b.reset_cases <;>
    obtain ⟨hs', hb'⟩ | ⟨hs', hb'⟩ := b'.reset_cases <;>
    rw [hb, hb']
  · exact ⟨⟨h.config, h.state, rfl, h.lastFailure, fun _ => rfl, fun _ => rfl⟩, rfl⟩
  · exact absurd (h.state.trans hs) hs'
  · exact absurd (h.state.symm.trans hs') hs
  · exact ⟨h.enter .closed, rfl⟩

theorem forceOpen (h : Synced b b') (now : Instant) :
    Synced (b.forceOpen now).1 (b'.forceOpen now).1 ∧
      (b'.forceOpen now).2.isSome = (b.forceOpen now).2.isSome := by
  have hfailed : Synced { b with lastFailure := some now } { b' with lastFailure := some now } :=
    ⟨h.config, h.state, h.failures, rfl, h.probes, h.successes⟩
  obtain ⟨hs, hb⟩ | ⟨hs, hb⟩ := b.forceOpen_cases now <;>
    obtain ⟨hs', hb'⟩ | ⟨hs', hb'⟩ := b'.forceOpen_cases now <;>
    rw [hb, hb']
  · exact ⟨hfailed, rfl⟩
  · exact absurd (h.state.trans hs) hs'
  · exact absurd (h.state.symm.trans hs') hs
  · exact ⟨hfailed.enter .opened, rfl⟩

end Synced

namespace Peers

/-- A cooldown that is over stays over. -/
theorem later (h : Peers b b' now) (hle : now ≤ t) : Peers b b' t := by
  rcases h with h | ⟨hs, hcool, h⟩
  · exact .inl h
  · refine .inr ⟨hs, ?_, h⟩
    unfold cooled at hcool ⊢
    split at hcool
    · rfl
    · simp only [decide_eq_true_eq] at hcool ⊢
      exact Nat.le_trans hcool (Nat.sub_le_sub_right hle _)

/-- A look at the second breaker. -/
theorem look (h : Peers b b' now) :
    Peers b (b'.observe now).1 now ∧
      ((b'.observe now).2.isSome = false ∨ b.state ≠ .halfOpen) := by
  unfold CircuitBreaker.observe
  rcases h with h | ⟨hs, hcool, h⟩
  · obtain ⟨hs, hc, hb⟩ | ⟨-, hb⟩ := b'.refresh_cases now
    · have hopen : b.state = .opened := h.state.symm.trans hs
      rw [hb]
      exact ⟨.inr ⟨hopen, h.cooled.symm.trans hc, h.enter .halfOpen⟩, .inr (by simp [hopen])⟩
    · rw [hb]
      exact ⟨.inl h, .inl rfl⟩
  · rw [refresh_of_ne (by rw [h.state]; simp)]
    exact ⟨.inr ⟨hs, hcool, h⟩, .inl rfl⟩

/-- Both breakers are looked at, and see the same state. -/
theorem observe (h : Peers b b' now) :
    Synced (b.observe now).1 (b'.observe now).1 ∧
      ((b.observe now).2.isSome = (b'.observe now).2.isSome ∨ b.state ≠ .halfOpen) := by
  rcases h with h | ⟨hs, hcool, h⟩
  · obtain ⟨hsynced, hchange⟩ := h.observe now
    exact ⟨hsynced, .inl hchange.symm⟩
  · unfold CircuitBreaker.observe
    rw [refresh_of_cooled hs hcool, refresh_of_ne (b := b') (by rw [h.state]; simp)]
    exact ⟨h, .inr (by simp [hs])⟩

/-- A request comes to both breakers, and is answered alike. -/
theorem request (h : Peers b b' now) (hmax : 0 < b.config.maxHalfOpenProbes.toNat) :
    Synced (b.request now).1 (b'.request now).1 ∧
      ((b.request now).2.1.isSome = (b'.request now).2.1.isSome ∨
        b.state ≠ .halfOpen ∧ (b.request now).2.1.isSome = true) ∧
      ((b.request now).2.2 = none ∧ (b'.request now).2.2 = none ∨
        ∃ p p', (b.request now).2.2 = some p ∧ (b'.request now).2.2 = some p' ∧
          p.Matches (b.request now).1 (b'.request now).1 p') := by
  rcases h with h | ⟨hs, hcool, h⟩
  · obtain ⟨hsynced, hchange, hverdict⟩ := h.request hmax now
    exact ⟨hsynced, .inl hchange.symm, hverdict⟩
  -- The request itself turns the first breaker half-open, and is its first probe.
  · have hroom :
        (b.enter .halfOpen).probes < (b.enter .halfOpen).config.maxHalfOpenProbes.toNat := by
      rwa [probes_enter, config_enter]
    have hfirst := request_of_cooled hmax hs hcool
    have hsecond := @request_of_room (b.enter .halfOpen) now (state_enter ..) hroom
    obtain ⟨hsynced, -, hverdict⟩ := h.request (by rwa [config_enter]) now
    rw [hsecond] at hsynced hverdict
    rw [hfirst]
    exact ⟨hsynced, .inr ⟨by simp [hs], rfl⟩, hverdict⟩

/-- A call that holds no place of an open circuit does not give one back. -/
theorem abandon (h : Peers b b' now) (hp : p.Matches b b' p')
    (hopen : b.state ≠ .halfOpen → p.probe ≠ some b.period) :
    Peers (b.abandon p) (b'.abandon p') now := by
  rcases h with h | ⟨hs, hcool, h⟩
  · exact .inl (h.freeProbe hp)
  · have hstale : p.probe ≠ some b.period := hopen (by simp [hs])
    rw [CircuitBreaker.abandon, CircuitBreaker.abandon, freeProbe_of_ne hstale,
      freeProbe_of_ne (mt hp.mpr hstale)]
    exact .inr ⟨hs, hcool, h⟩

/-- A call ends with a result on both breakers, but not with a success that only the second
one would count. -/
theorem settle (h : Peers b b' now) (hp : p.Matches b b' p')
    (hconcealed : ¬ (b.state = .opened ∧ b.cooled now = true ∧ failed = false)) :
    Synced (b.settle p failed now).1 (b'.settle p' failed now).1 ∧
      ((b.settle p failed now).2.isSome = (b'.settle p' failed now).2.isSome ∨
        b.state ≠ .halfOpen) := by
  rcases h with h | ⟨hs, hcool, h⟩
  · obtain ⟨hsynced, hchange⟩ := h.settle hp failed now
    exact ⟨hsynced, .inl hchange.symm⟩
  · cases failed with
    | false => exact absurd ⟨hs, hcool, rfl⟩ hconcealed
    | true =>
      -- The failure opens the second breaker again, and both start a new cooldown.
      have hs' : b'.state = .halfOpen := h.state.trans (state_enter ..)
      obtain ⟨-, hb⟩ | ⟨hs'', -⟩ := b.settle_failure_cases p now
      · obtain ⟨hs'', -⟩ | ⟨-, hb'⟩ := b'.settle_failure_cases p' now
        · simp [hs'] at hs''
        · rw [hb, hb']
          refine ⟨⟨?_, ?_, ?_, rfl, ?_, ?_⟩, .inr (by simp [hs])⟩
          · simpa using h.config
          · simp [hs]
          · exact congrArg countUp h.failures
          · simp [hs]
          · simp [hs]
      · simp [hs] at hs''

theorem reset (h : Peers b b' now) :
    Synced b.reset.1 b'.reset.1 ∧ (b.reset.2.isSome = b'.reset.2.isSome ∨ b.state ≠ .halfOpen) := by
  rcases h with h | ⟨hs, hcool, h⟩
  · exact ⟨h.reset.1, .inl h.reset.2.symm⟩
  · have hs' : b'.state = .halfOpen := h.state.trans (state_enter ..)
    obtain ⟨hs'', -⟩ | ⟨-, hb⟩ := b.reset_cases
    · simp [hs] at hs''
    · obtain ⟨hs'', -⟩ | ⟨-, hb'⟩ := b'.reset_cases
      · simp [hs'] at hs''
      · rw [hb, hb']
        exact ⟨⟨h.config, rfl, rfl, h.lastFailure, by simp, by simp⟩, .inl rfl⟩

theorem forceOpen (h : Peers b b' now) :
    Synced (b.forceOpen now).1 (b'.forceOpen now).1 ∧
      ((b.forceOpen now).2.isSome = (b'.forceOpen now).2.isSome ∨ b.state ≠ .halfOpen) := by
  rcases h with h | ⟨hs, hcool, h⟩
  · obtain ⟨hsynced, hchange⟩ := h.forceOpen now
    exact ⟨hsynced, .inl hchange.symm⟩
  · have hs' : b'.state = .halfOpen := h.state.trans (state_enter ..)
    obtain ⟨-, hb⟩ | ⟨hs'', -⟩ := b.forceOpen_cases now
    · obtain ⟨hs'', -⟩ | ⟨-, hb'⟩ := b'.forceOpen_cases now
      · simp [hs'] at hs''
      · rw [hb, hb']
        refine ⟨⟨?_, ?_, h.failures, rfl, ?_, ?_⟩, .inr (by simp [hs])⟩
        · simpa using h.config
        · simp [hs]
        · simp [hs]
        · simp [hs]
    · exact absurd hs hs''

end Peers

namespace Ledger

/-! ## Runs with additional looks -/

/-- What happens in a run, or an additional look at the breaker. -/
inductive Item where
  | own (now : Instant) (act : Act)
  | look (now : Instant)
deriving DecidableEq, Repr

/-- The act of an item, and when it happens. -/
def Item.timed : Item → Instant × Act
  | .own now a => (now, a)
  | .look now => (now, .observe)

/-- Whether an item belongs to the run itself. -/
def Item.isOwn : Item → Bool
  | .own .. => true
  | .look _ => false

/-- The acts of the run itself. -/
def ownActs (items : List Item) : List (Instant × Act) := (items.filter Item.isOwn).map Item.timed

/-- What an act is answered. -/
inductive Answer where
  /-- A call was let in, or turned away. -/
  | verdict (admitted : Bool)
  /-- The state that was seen. -/
  | saw (state : State)
deriving DecidableEq, Repr

/-- What an act is answered; most are not. -/
def answer (l : Ledger) (now : Instant) : Act → Option Answer
  | .request => some (.verdict (l.breaker.request now).2.2.isSome)
  | .observe => some (.saw (l.breaker.observe now).1.state)
  | _ => none

/-- One act, which is passed over if the call it is about is not that far. After an additional
look a call may have its permit before the hook returns that would have been told of it. -/
def attend (l : Ledger) (now : Instant) (a : Act) : Ledger := (l.step now a).getD l

/-- What the acts of a run are answered. The answers to additional looks are left out. -/
def answers (l : Ledger) : List Item → List (Option Answer)
  | [] => []
  | .own now a :: items => l.answer now a :: (l.attend now a).answers items
  | .look now :: items => (l.attend now .observe).answers items

/-- A call ends with a success while the circuit is open, although its cooldown is over:
nobody has looked. -/
def Conceals (l : Ledger) (now : Instant) (a : Act) : Prop :=
  l.breaker.state = .opened ∧ l.breaker.cooled now = true ∧ a.isSuccess = true

instance (l : Ledger) (now : Instant) (a : Act) : Decidable (l.Conceals now a) :=
  inferInstanceAs (Decidable (_ ∧ _ ∧ _))

/-- No act of a run is a concealed success. -/
def Unconcealed (l : Ledger) : List (Instant × Act) → Prop
  | [] => True
  | (now, a) :: acts => ¬ l.Conceals now a ∧ (l.attend now a).Unconcealed acts

instance decidableUnconcealed (l : Ledger) :
    (acts : List (Instant × Act)) → Decidable (l.Unconcealed acts)
  | [] => inferInstanceAs (Decidable True)
  | (now, a) :: acts =>
    have := decidableUnconcealed (l.attend now a) acts
    inferInstanceAs (Decidable (¬ l.Conceals now a ∧ (l.attend now a).Unconcealed acts))

/-- How far a call is in a run without the looks, and in the run with them. -/
inductive Progress.Trails : Progress → Progress → Prop where
  | announcing : Trails .announcing .announcing
  /-- The hook was told before, of the look. -/
  | early : Trails .announcing .running
  | running : Trails .running .running
  | lost : Trails .lost .running
  | ended {p p' : Progress} (ended : p.unfinished = false) (ended' : p'.unfinished = false) :
      Trails p p'

/-- The calls of two ledgers are equally far, and hold the same places. -/
structure Mirrored (l r : Ledger) : Prop where
  length : r.calls.length = l.calls.length
  calls : ∀ (id : Nat) (e e' : Entry), l.calls[id]? = some e → r.calls[id]? = some e' →
    e.progress.Trails e'.progress ∧ e.permit.Matches l.breaker r.breaker e'.permit

/-- A run without the looks and the run with them. -/
structure Alike (c : Config) (l r : Ledger) (now : Instant) : Prop where
  dated : Dated c l
  dated' : Dated c r
  breaker : l.breaker.Peers r.breaker now
  calls : Mirrored l r

variable {c : Config} {l l' r : Ledger} {a : Act} {e e' : Entry} {id : Nat}
  {progress progress' : Progress} {R R' : CircuitBreaker × Option Transition}
  {target target' : State}

/-- Only a half-open circuit has given away places. -/
theorem Dated.probe_ne (h : Dated c l) (he : e ∈ l.calls) (hs : l.breaker.state ≠ .halfOpen) :
    e.permit.probe ≠ some l.breaker.period := by
  intro hp
  have hprobe := (h.probe_eq_some_period_iff he).mp hp
  simp only [Entry.isProbeOf, Bool.and_eq_true, decide_eq_true_eq] at hprobe
  exact hs ((h.state_eq e he hprobe.2).symm.trans hprobe.1)

/-- A call holds the place that it held before, unless a new period has begun. -/
theorem Dated.probe_iff (h : Dated c l) (hmoves : l.breaker.Moves target R) (he : e ∈ l.calls) :
    e.permit.probe = some R.1.period ↔
      R.2.isSome = false ∧ e.permit.probe = some l.breaker.period := by
  cases hmoves with
  | keep _ _ period => simp [period]
  | enter _ _ _ period =>
    have hle := h.era_le e he
    simp only [Option.isSome_some, Bool.true_eq_false, false_and, iff_false, period, h.period,
      h.probe_eq e he]
    split
    · simp only [Option.some.injEq]
      omega
    · simp

namespace Mirrored

/-- A call of the one ledger is in the other one. -/
theorem exists_right (h : Mirrored l r) (he : l.calls[id]? = some e) :
    ∃ e', r.calls[id]? = some e' ∧ e.progress.Trails e'.progress ∧
      e.permit.Matches l.breaker r.breaker e'.permit := by
  have hlt := (List.getElem?_eq_some_iff.mp he).1
  have he' : r.calls[id]? = some _ := List.getElem?_eq_getElem (h.length ▸ hlt)
  exact ⟨_, he', h.calls id e _ he he'⟩

/-- The breakers change together, or no places are given away. -/
theorem after (h : Mirrored l r) (hd : Dated c l) (hd' : Dated c r)
    (hr : l.breaker.Moves target R) (hr' : r.breaker.Moves target' R')
    (hsame : R.2.isSome = R'.2.isSome ∨ l.breaker.state ≠ .halfOpen) :
    Mirrored (l.after R) (r.after R') where
  length := h.length
  calls id e e' he he' := by
    obtain ⟨hprogress, hpermit⟩ := h.calls id e e' he he'
    have hmem := List.mem_of_getElem? he
    have hiff : e.permit.probe = some l.breaker.period ↔ e'.permit.probe = some r.breaker.period :=
      hpermit
    refine ⟨hprogress, ?_⟩
    show e.permit.probe = some R.1.period ↔ e'.permit.probe = some R'.1.period
    rw [hd.probe_iff hr hmem, hd'.probe_iff hr' (List.mem_of_getElem? he'), ← hiff]
    rcases hsame with hsame | hs
    · rw [hsame]
    · simp [hd.probe_ne hmem hs]

/-- A call is let in on both sides. -/
theorem enrol (h : Mirrored l r) (hprogress : progress.Trails progress')
    (hp : p.Matches l.breaker r.breaker p') :
    Mirrored (l.enrol p progress) (r.enrol p' progress') where
  length := by simp [Ledger.enrol, h.length]
  calls id e e' he he' := by
    have he : (l.calls ++ [_])[id]? = some e := he
    have he' : (r.calls ++ [_])[id]? = some e' := he'
    rcases Nat.lt_or_ge id l.calls.length with hlt | hge
    · rw [List.getElem?_append_left hlt] at he
      rw [List.getElem?_append_left (h.length ▸ hlt)] at he'
      exact h.calls id e e' he he'
    · rw [List.getElem?_append_right hge] at he
      rw [List.getElem?_append_right (h.length ▸ hge), h.length] at he'
      obtain rfl := List.mem_singleton.mp (List.mem_of_getElem? he)
      obtain rfl := List.mem_singleton.mp (List.mem_of_getElem? he')
      exact ⟨hprogress, hp⟩

/-- A call gets further on both sides. -/
theorem mark (h : Mirrored l r) (he : l.calls[id]? = some e) (he' : r.calls[id]? = some e')
    (hprogress : progress.Trails progress') :
    Mirrored (l.mark id e progress) (r.mark id e' progress') where
  length := by simp [Ledger.mark, h.length]
  calls i x x' hx hx' := by
    have hx : (l.calls.set id _)[i]? = some x := hx
    have hx' : (r.calls.set id _)[i]? = some x' := hx'
    by_cases hi : id = i
    · subst hi
      rw [List.getElem?_set_self (List.getElem?_eq_some_iff.mp he).1] at hx
      rw [List.getElem?_set_self (List.getElem?_eq_some_iff.mp he').1] at hx'
      obtain rfl := Option.some.inj hx
      obtain rfl := Option.some.inj hx'
      exact ⟨hprogress, (h.calls id e e' he he').2⟩
    · rw [List.getElem?_set_ne hi] at hx hx'
      exact h.calls i x x' hx hx'

/-- A call gets further on the one side, where it had been behind. -/
theorem mark_left (h : Mirrored l r) (he : l.calls[id]? = some e) (he' : r.calls[id]? = some e')
    (hprogress : progress.Trails e'.progress) : Mirrored (l.mark id e progress) r := by
  have hsame : r.mark id e' e'.progress = r := by
    obtain ⟨hlt, rfl⟩ := List.getElem?_eq_some_iff.mp he'
    show { r with calls := r.calls.set id r.calls[id] } = r
    rw [List.set_getElem_self]
  exact hsame ▸ h.mark he he' hprogress

end Mirrored

namespace Alike

theorem later (h : Alike c l r now) (hle : now ≤ t) : Alike c l r t :=
  { h with breaker := h.breaker.later hle }

/-- Somebody looks in the second run. -/
theorem look (h : Alike c l r now) : Alike c l (r.attend now .observe) now := by
  obtain ⟨hpeers, hsame⟩ := h.breaker.look
  have hleft : l.after (l.breaker, none) = l := after_none
  have hkeep : l.breaker.Moves .halfOpen (l.breaker, none) := .keep rfl rfl rfl
  have hsame' : (none : Option Transition).isSome = (r.breaker.observe now).2.isSome ∨
      l.breaker.state ≠ .halfOpen := hsame.imp Eq.symm id
  exact
    { dated := h.dated
      dated' := h.dated'.after (moves_observe r.breaker now)
      breaker := hpeers
      calls := hleft ▸ h.calls.after h.dated h.dated' hkeep (moves_observe r.breaker now) hsame' }

/-- Both breakers do the same. -/
theorem after (h : Alike c l r now) (hr : l.breaker.Moves target R)
    (hr' : r.breaker.Moves target' R') (hpeers : R.1.Peers R'.1 now)
    (hsame : R.2.isSome = R'.2.isSome ∨ l.breaker.state ≠ .halfOpen) :
    Alike c (l.after R) (r.after R') now where
  dated := h.dated.after hr
  dated' := h.dated'.after hr'
  breaker := hpeers
  calls := h.calls.after h.dated h.dated' hr hr' hsame

theorem mark (h : Alike c l r now) (he : l.calls[id]? = some e) (he' : r.calls[id]? = some e')
    (hprogress : progress.Trails progress') :
    Alike c (l.mark id e progress) (r.mark id e' progress') now where
  dated := h.dated.mark (List.mem_of_getElem? he)
  dated' := h.dated'.mark (List.mem_of_getElem? he')
  breaker := h.breaker
  calls := h.calls.mark he he' hprogress

/-- A call that runs in the first run does so in the second. -/
theorem find?_running (h : Alike c l r now) (he : l.find? id .running = some e) :
    ∃ e', r.find? id .running = some e' ∧ l.calls[id]? = some e ∧ r.calls[id]? = some e' ∧
      e.permit.Matches l.breaker r.breaker e'.permit := by
  obtain ⟨hget, hrunning⟩ := find?_eq_some_iff.mp he
  obtain ⟨e', hget', htrails, hpermit⟩ := h.calls.exists_right hget
  have hrunning' : e'.progress = .running := by
    rw [hrunning] at htrails
    generalize e'.progress = p at htrails
    cases htrails with
    | running => rfl
    | ended hended => cases hended
  exact ⟨e', find?_eq_some_iff.mpr ⟨hget', hrunning'⟩, hget, hget', hpermit⟩

theorem request (h : Alike c l r now) (hstep : l.step now .request = some l') :
    l.answer now .request = r.answer now .request ∧ Alike c l' (r.attend now .request) now := by
  have hmax := h.dated.maxHalfOpenProbes_pos
  have hmax' := h.dated'.maxHalfOpenProbes_pos
  obtain ⟨hsynced, hsame, hverdict⟩ := h.breaker.request hmax
  have hafter := h.after (moves_request hmax now) (moves_request hmax' now) (.inl hsynced)
    (hsame.imp id And.left)
  obtain ⟨hnone, hnone'⟩ | ⟨p, p', hp, hp', hmatches⟩ := hverdict
  · obtain rfl := Option.some.inj (hstep.symm.trans (step_request_of_none hnone))
    refine ⟨by simp [answer, hnone, hnone'], ?_⟩
    rw [attend, step_request_of_none hnone']
    exact hafter
  · obtain rfl := Option.some.inj (hstep.symm.trans (step_request_of_some hp))
    refine ⟨by simp [answer, hp, hp'], ?_⟩
    rw [attend, step_request_of_some hp']
    have htrails : Progress.Trails
        (if (l.breaker.request now).2.1.isSome then .announcing else .running)
        (if (r.breaker.request now).2.1.isSome then .announcing else .running) := by
      rcases hsame with hsame | ⟨-, hchange⟩
      · rw [hsame]
        split
        · exact .announcing
        · exact .running
      · rw [if_pos hchange]
        split
        · exact .announcing
        · exact .early
    exact
      { dated := hafter.dated.enrol (h.dated.probe_request hp)
        dated' := hafter.dated'.enrol (h.dated'.probe_request hp')
        breaker := hafter.breaker
        calls := hafter.calls.enrol htrails hmatches }

/-- The hook returns that was told of an admission. In the second run it may have been told
before. -/
theorem announced (h : Alike c l r now) {panics : Bool}
    (hstep : l.step now (.announced id panics) = some l') :
    Alike c l' (r.attend now (.announced id panics)) now := by
  obtain ⟨e, he, rfl⟩ := Option.map_eq_some_iff.mp hstep
  obtain ⟨hget, hannouncing⟩ := find?_eq_some_iff.mp he
  obtain ⟨e', hget', htrails, -⟩ := h.calls.exists_right hget
  have hcases : e'.progress = .announcing ∨ e'.progress = .running := by
    rw [hannouncing] at htrails
    generalize e'.progress = p at htrails ⊢
    cases htrails with
    | announcing => exact .inl rfl
    | early => exact .inr rfl
    | ended hended => cases hended
  rcases hcases with hprogress' | hprogress'
  · have he' : r.find? id .announcing = some e' := find?_eq_some_iff.mpr ⟨hget', hprogress'⟩
    have hright : r.attend now (.announced id panics) =
        r.mark id e' (if panics then .lost else .running) := by simp [attend, Ledger.step, he']
    rw [hright]
    refine h.mark hget hget' ?_
    cases panics with
    | true => exact .ended rfl rfl
    | false => exact .running
  · have he' : r.find? id .announcing = none := by simp [find?, hget', hprogress']
    have hright : r.attend now (.announced id panics) = r := by simp [attend, Ledger.step, he']
    rw [hright]
    have htrails : Progress.Trails (if panics then .lost else .running) e'.progress := by
      rw [hprogress']
      cases panics with
      | true => exact .lost
      | false => exact .running
    exact
      { dated := h.dated.mark (List.mem_of_getElem? hget)
        dated' := h.dated'
        breaker := h.breaker
        calls := h.calls.mark_left hget hget' htrails }

/-- A call ends with a result in both runs. -/
theorem settle (h : Alike c l r now) {failed : Bool}
    (hstep : l.step now (.settle id failed) = some l')
    (hconcealed : ¬ l.Conceals now (.settle id failed)) :
    Alike c l' (r.attend now (.settle id failed)) now := by
  obtain ⟨e, he, rfl⟩ := Option.map_eq_some_iff.mp hstep
  obtain ⟨e', he', hget, hget', hpermit⟩ := h.find?_running he
  have hright : r.attend now (.settle id failed) =
      (r.mark id e' (.settled failed r.era)).after (r.breaker.settle e'.permit failed now) := by
    simp [attend, Ledger.step, he']
  rw [hright]
  have hmark : Alike c (l.mark id e (.settled failed l.era)) (r.mark id e' (.settled failed r.era))
      now := h.mark hget hget' (.ended rfl rfl)
  have hcounted : ¬ (l.breaker.state = .opened ∧ l.breaker.cooled now = true ∧ failed = false) := by
    rintro ⟨hs, hcool, rfl⟩
    exact hconcealed ⟨hs, hcool, rfl⟩
  obtain ⟨hsynced, hsame⟩ := h.breaker.settle hpermit hcounted
  cases failed with
  | true =>
    exact hmark.after (moves_settle_failure ..) (moves_settle_failure ..) (.inl hsynced) hsame
  | false =>
    exact hmark.after (moves_settle_success ..) (moves_settle_success ..) (.inl hsynced) hsame

/-- A call ends without a result in both runs. -/
theorem drop (h : Alike c l r now) (hstep : l.step now (.drop id) = some l') :
    Alike c l' (r.attend now (.drop id)) now := by
  obtain ⟨e, he, rfl⟩ := Option.map_eq_some_iff.mp hstep
  obtain ⟨e', he', hget, hget', hpermit⟩ := h.find?_running he
  have hright : r.attend now (.drop id) =
      (r.mark id e' .dropped).after (r.breaker.abandon e'.permit, none) := by
    simp [attend, Ledger.step, he']
  rw [hright]
  exact (h.mark hget hget' (.ended rfl rfl)).after (moves_abandon _ _ .closed)
    (moves_abandon _ _ .closed)
    (h.breaker.abandon hpermit (h.dated.probe_ne (List.mem_of_getElem? hget))) (.inl rfl)

/-- Every act is answered alike, unless it is a concealed success. -/
theorem step (h : Alike c l r now) (hstep : l.step now a = some l')
    (hconcealed : ¬ l.Conceals now a) :
    l.answer now a = r.answer now a ∧ Alike c l' (r.attend now a) now := by
  cases a with
  | request => exact h.request hstep
  | announced id panics => exact ⟨rfl, h.announced hstep⟩
  | settle id failed => exact ⟨rfl, h.settle hstep hconcealed⟩
  | drop id => exact ⟨rfl, h.drop hstep⟩
  | observe =>
    obtain rfl := Option.some.inj hstep
    obtain ⟨hsynced, hsame⟩ := h.breaker.observe
    refine ⟨by simp [answer, hsynced.state], ?_⟩
    exact h.after (moves_observe ..) (moves_observe ..) (.inl hsynced) hsame
  | reset =>
    obtain rfl := Option.some.inj hstep
    obtain ⟨hsynced, hsame⟩ := h.breaker.reset
    exact ⟨rfl, h.after (moves_reset _) (moves_reset _) (.inl hsynced) hsame⟩
  | forceOpen =>
    obtain rfl := Option.some.inj hstep
    obtain ⟨hsynced, hsame⟩ := h.breaker.forceOpen
    exact ⟨rfl, h.after (moves_forceOpen ..) (moves_forceOpen ..) (.inl hsynced) hsame⟩

end Alike

theorem attend_of_step (hstep : l.step now a = some l') : l.attend now a = l' := by
  rw [attend, hstep, Option.getD_some]

/-- Two runs that are alike are answered alike from now on. -/
theorem Alike.answers_eq {items : List Item} {start stop : Instant} (h : Alike c l r start)
    (htime : Spans start stop (items.map Item.timed))
    (hrun : l.run (ownActs items) = some l') (hconcealed : l.Unconcealed (ownActs items)) :
    r.answers items = l.answers (items.filter Item.isOwn) := by
  induction items generalizing l r start with
  | nil => rfl
  | cons item items ih =>
    obtain ⟨hle, htime⟩ := htime
    have hnow := h.later hle
    cases item with
    | look now => exact ih hnow.look htime hrun hconcealed
    | own now a =>
      obtain ⟨m, hstep, hrest⟩ := run_cons_eq_some.mp hrun
      obtain ⟨hfirst, hothers⟩ := hconcealed
      obtain ⟨hanswer, halike⟩ := hnow.step hstep hfirst
      rw [attend_of_step hstep] at hothers
      have hrec := ih halike htime hrest hothers
      show r.answer now a :: (r.attend now a).answers items =
        l.answer now a :: (l.attend now a).answers (items.filter Item.isOwn)
      rw [hanswer, hrec, attend_of_step hstep]

/-! ## Concealed successes -/

/-- Without a look an open circuit ignores the success, and the next look finds no success
counted. -/
theorem observe_of_concealed (hd : Dated c l) (hs : l.breaker.state = .opened)
    (hcool : l.breaker.cooled now = true) (hstep : l.step now (.settle id false) = some l')
    (hle : now ≤ t) :
    (l'.breaker.observe t).1.state = .halfOpen ∧ (l'.breaker.observe t).1.successes = 0 := by
  obtain ⟨e, he, rfl⟩ := Option.map_eq_some_iff.mp hstep
  have hstale : e.permit.probe ≠ some l.breaker.period :=
    hd.probe_ne (mem_of_find? he) (by simp [hs])
  have hpeers : l.breaker.Peers (l.breaker.enter .halfOpen) now := .inr ⟨hs, hcool, .refl _⟩
  have hcool' : l.breaker.cooled t = true := by
    obtain h | ⟨-, hcool', -⟩ := hpeers.later hle
    · exact absurd h.state (by simp [hs])
    · exact hcool'
  have hbreaker : (l.breaker.settle e.permit false now).1 = l.breaker := by
    obtain ⟨hs', -⟩ | ⟨hs', -⟩ | ⟨hs', -⟩ | ⟨-, hb⟩ := l.breaker.settle_success_cases e.permit now
    · simp [hs] at hs'
    · simp [hs] at hs'
    · simp [hs] at hs'
    · rw [hb, freeProbe_of_ne hstale]
  have hsame : ((l.mark id e (.settled false l.era)).after
      (l.breaker.settle e.permit false now)).breaker = l.breaker := hbreaker
  rw [hsame, CircuitBreaker.observe, refresh_of_cooled hs hcool']
  exact ⟨rfl, rfl⟩

/-- Somebody looks, a call ends with a success at once, and then somebody looks again. -/
def revealed (l : Ledger) (now : Instant) (id : Nat) (t : Instant) : CircuitBreaker :=
  (((l.attend now .observe).attend now (.settle id false)).breaker.observe t).1

/-- After a look a half-open circuit counts the success, which closes it if one is enough. -/
theorem revealed_of_concealed (hd : Dated c l) (hs : l.breaker.state = .opened)
    (hcool : l.breaker.cooled now = true) (he : l.find? id .running = some e) (t : Instant) :
    if c.successThreshold.toNat ≤ 1 then (l.revealed now id t).state = .closed
    else (l.revealed now id t).state = .halfOpen ∧ (l.revealed now id t).successes = 1 := by
  have hobserve : l.breaker.observe now = (l.breaker.enter .halfOpen, some ⟨.opened, .halfOpen⟩) :=
    refresh_of_cooled hs hcool
  have hthreshold : (l.breaker.enter .halfOpen).config.successThreshold.toNat =
      max c.successThreshold.toNat 1 := by
    rw [config_enter, hd.config, c.clamp_successThreshold_toNat]
  have hlook : l.attend now .observe =
      l.after (l.breaker.enter .halfOpen, some ⟨.opened, .halfOpen⟩) := by
    rw [attend, step, Option.getD_some, hobserve]
  have hsettle : ((l.attend now .observe).attend now (.settle id false)).breaker =
      ((l.breaker.enter .halfOpen).settle e.permit false now).1 := by
    have he' : (l.after (l.breaker.enter .halfOpen, some ⟨.opened, .halfOpen⟩)).find? id .running =
        some e := he
    rw [hlook]
    simp only [attend, step, he', Option.map_some, Option.getD_some]
    rfl
  have hcount : countUp (l.breaker.enter .halfOpen).successes = 1 := rfl
  rw [revealed, hsettle, CircuitBreaker.observe]
  obtain ⟨hs', -⟩ | ⟨-, hlt, hb⟩ | ⟨-, hle, hb⟩ | ⟨hs', -⟩ :=
    (l.breaker.enter .halfOpen).settle_success_cases e.permit now
  · simp at hs'
  · rw [hcount, hthreshold] at hlt
    rw [if_neg (by omega), hb, refresh_of_ne (by simp)]
    exact ⟨by simp, hcount⟩
  · rw [hcount, hthreshold] at hle
    rw [if_pos (by omega), hb, refresh_of_ne (by simp)]
    exact state_enter ..
  · simp at hs'

/-- **What looks change.** As long as no success is concealed in the run without them,
additional looks change no answer: every call is let in or turned away as without them, and
every other look sees the same state. A concealed success is lost without a look, and is
counted with one: then one run sees a half-open circuit without successes, and the other a
circuit that is closed or has one success. -/
theorem answers_of_looks (c : Config) :
    (∀ items l start stop, Spans start stop (items.map Item.timed) →
        (blank c).run (ownActs items) = some l → (blank c).Unconcealed (ownActs items) →
          (blank c).answers items = (blank c).answers (items.filter Item.isOwn)) ∧
      ∀ acts l id now l' t, (blank c).run acts = some l → l.Conceals now (.settle id false) →
        l.step now (.settle id false) = some l' → now ≤ t →
          ((l'.breaker.observe t).1.state = .halfOpen ∧ (l'.breaker.observe t).1.successes = 0) ∧
            if c.successThreshold.toNat ≤ 1 then (l.revealed now id t).state = .closed
            else (l.revealed now id t).state = .halfOpen ∧ (l.revealed now id t).successes = 1 := by
  constructor
  · intro items l start stop htime hrun hconcealed
    have halike : Alike c (blank c) (blank c) start :=
      { dated := .blank c
        dated' := .blank c
        breaker := .inl (.refl _)
        calls := ⟨rfl, fun id e e' he => by simp [blank] at he⟩ }
    exact halike.answers_eq htime hrun hconcealed
  · intro acts l id now l' t hrun hconceals hstep hle
    obtain ⟨hs, hcool, -⟩ := hconceals
    have hd := (Dated.blank c).run hrun
    obtain ⟨e, he, -⟩ := Option.map_eq_some_iff.mp hstep
    exact ⟨observe_of_concealed hd hs hcool hstep hle, revealed_of_concealed hd hs hcool he t⟩

/-- A call fails late, on an open circuit, and a probe closes the circuit after the next
cooldown: looks change nothing. Then a call succeeds late: the circuit would have been seen
half-open, and after a look it is closed. -/
theorem answers_of_looks_and_late_calls :
    (blank { Config.default with
        failureThreshold := 1, successThreshold := 1, cooldown := .ofMillis 10 }).answers
      [.own 0 .request, .own 0 .request, .own 0 (.settle 1 true), .look 10000000,
        .own 11000000 (.settle 0 true), .look 21000000, .own 22000000 .request,
        .own 22000000 (.announced 2 false), .own 23000000 (.settle 2 false),
        .own 24000000 .observe] =
      [some (.verdict true), some (.verdict true), none, none, some (.verdict true), none, none,
        some (.saw .closed)] ∧
    ∃ l l', (blank { Config.default with
        failureThreshold := 1, successThreshold := 1, cooldown := .ofMillis 10 }).run
          [(0, .request), (0, .request), (0, .settle 1 true)] = some l ∧
      l.step 15000000 (.settle 0 false) = some l' ∧
      (l'.breaker.observe 15000000).1.state = .halfOpen ∧
      (l.revealed 15000000 0 15000000).state = .closed := by
  obtain ⟨hlooks, hconcealed⟩ := answers_of_looks
    { Config.default with failureThreshold := 1, successThreshold := 1, cooldown := .ofMillis 10 }
  refine ⟨(hlooks _ _ 0 24000000 (by decide) rfl (by decide)).trans rfl, _, _, rfl, rfl, ?_⟩
  obtain ⟨⟨hstate, -⟩, hseen⟩ := hconcealed [(0, .request), (0, .request), (0, .settle 1 true)] _
    0 15000000 _ 15000000 rfl (by decide) rfl (by decide)
  exact ⟨hstate, hseen⟩

/-- Two calls are let in, the second one fails and opens the circuit, and after the cooldown
the first one succeeds. If nobody has looked before, the circuit is seen half-open, and
otherwise closed. -/
theorem look_closes :
    Spans 0 15000000 ([.own 0 .request, .own 0 .request, .own 0 (.settle 1 true), .look 10000000,
      .own 15000000 (.settle 0 false), .own 15000000 .observe].map Item.timed) ∧
    ((blank { Config.default with
        failureThreshold := 1, successThreshold := 1, cooldown := .ofMillis 10 }).run
      [(0, .request), (0, .request), (0, .settle 1 true), (15000000, .settle 0 false),
        (15000000, .observe)]).isSome = true ∧
    (blank { Config.default with
        failureThreshold := 1, successThreshold := 1, cooldown := .ofMillis 10 }).answers
      [.own 0 .request, .own 0 .request, .own 0 (.settle 1 true),
        .own 15000000 (.settle 0 false), .own 15000000 .observe] =
      [some (.verdict true), some (.verdict true), none, none, some (.saw .halfOpen)] ∧
    (blank { Config.default with
        failureThreshold := 1, successThreshold := 1, cooldown := .ofMillis 10 }).answers
      [.own 0 .request, .own 0 .request, .own 0 (.settle 1 true), .look 10000000,
        .own 15000000 (.settle 0 false), .own 15000000 .observe] =
      [some (.verdict true), some (.verdict true), none, none, some (.saw .closed)] :=
  ⟨by decide, rfl, rfl, rfl⟩

end Ledger

end Safeguard.CircuitBreaker
