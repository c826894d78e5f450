import Safeguard.Proofs.CircuitBreaker.Observing
import Safeguard.Proofs.CircuitBreaker.Slots

/-!
# A breaker that serves one call at a time

A breaker counts its probes and numbers its periods because calls overlap. If they do not, and
each of them has ended before the next one asks for admission, then all of this bookkeeping goes
unnoticed, and so do the counters that a change of state leaves behind: the breaker answers like
an automaton with three states, which remembers the failures in a row while it is closed, the time
at which it was opened while it is open, and the successes so far while it is half-open.

A half-open automaton admits every call. A half-open breaker does so because the only probe that
could take a place has ended by then, and has given its place back however it ended.

## Main definitions

* `Automaton`: the states of the automaton.
* `Automaton.step`, `Automaton.answers`: what it does, and what it answers.
* `Ledger.Sequential`: calls do not overlap.
* `Shows`: which state of the automaton a breaker is in.

## Main results

* `Ledger.Orderly.answer_and_step`: one act is answered alike, and leads to states that correspond.
* `Ledger.answers_eq_automaton`: whole runs are answered alike.
-/

namespace Safeguard.CircuitBreaker

/-- A circuit breaker for one call at a time. -/
inductive Automaton where
  | closed (failures : Nat)
  | opened (since : Instant)
  | halfOpen (successes : Nat)
deriving DecidableEq, Repr

namespace Automaton

/-- What is seen of the automaton. -/
def state : Automaton → State
  | .closed _ => .closed
  | .opened _ => .opened
  | .halfOpen _ => .halfOpen

/-- The automaton as of a point of time: the cooldown ends by itself. -/
def asOf (c : Config) (now : Instant) : Automaton → Automaton
  | .opened since => if c.cooldown.nanos ≤ now - since then .halfOpen 0 else .opened since
  | s => s

/-- A failure starts a cooldown, unless the automaton is closed and may fail once more. -/
def fail (c : Config) (now : Instant) : Automaton → Automaton
  | .closed failures =>
    if failures + 1 < c.failureThreshold.toNat then .closed (failures + 1) else .opened now
  | .opened _ | .halfOpen _ => .opened now

/-- A success ends a run of failures, and enough of them close a half-open automaton. -/
def succeed (c : Config) : Automaton → Automaton
  | .closed _ => .closed 0
  | .opened since => .opened since
  | .halfOpen successes =>
    if successes + 1 < c.successThreshold.toNat then .halfOpen (successes + 1) else .closed 0

/-- What an act does. A call that ends without a result does nothing. -/
def step (c : Config) (s : Automaton) (now : Instant) : Ledger.Act → Automaton
  | .request | .observe => s.asOf c now
  | .settle _ true => s.fail c now
  | .settle _ false => s.succeed c
  | .announced .. | .drop _ => s
  | .reset => .closed 0
  | .forceOpen => .opened now

/-- What an act is answered: every call is let in, unless the automaton is open. -/
def answer (c : Config) (s : Automaton) (now : Instant) : Ledger.Act → Option Ledger.Answer
  | .request => some (.verdict ((s.asOf c now).state ≠ .opened))
  | .observe => some (.saw (s.asOf c now).state)
  | _ => none

/-- What the acts of a run are answered. -/
def answers (c : Config) (s : Automaton) : List (Instant × Ledger.Act) →
    List (Option Ledger.Answer)
  | [] => []
  | (now, a) :: acts => s.answer c now a :: (s.step c now a).answers c acts

end Automaton

/-! ## The breaker and the automaton -/

/-- The state of the automaton that a breaker is in. Counters of other states may hold anything,
and the number of the period does not matter. -/
inductive Shows (c : Config) (b : CircuitBreaker) : Automaton → Prop where
  | closed {failures : Nat} (state : b.state = .closed) (failures_eq : b.failures = failures)
      (lt : failures < max c.failureThreshold.toNat 1) : Shows c b (.closed failures)
  | opened {since : Instant} (state : b.state = .opened) (since_eq : b.lastFailure = some since) :
      Shows c b (.opened since)
  | halfOpen {successes : Nat} (state : b.state = .halfOpen)
      (successes_eq : b.successes = successes) (lt : successes < max c.successThreshold.toNat 1) :
      Shows c b (.halfOpen successes)

namespace Shows

variable {c : Config} {b b' : CircuitBreaker} {s : Automaton} {p : Permit} {now : Instant}

theorem new (c : Config) : Shows c (new c) (.closed 0) := by
  apply closed
  · rfl
  · rfl
  · omega

theorem of_closed (h : Shows c b s) (hs : b.state = .closed) :
    s = .closed b.failures ∧ b.failures < max c.failureThreshold.toNat 1 := by
  cases h with
  | closed _ failures_eq lt => exact ⟨by rw [failures_eq], failures_eq ▸ lt⟩
  | opened state => cases hs.symm.trans state
  | halfOpen state => cases hs.symm.trans state

theorem of_opened (h : Shows c b s) (hs : b.state = .opened) :
    ∃ since, s = .opened since ∧ b.lastFailure = some since := by
  cases h with
  | closed state => cases hs.symm.trans state
  | opened _ since_eq => exact ⟨_, rfl, since_eq⟩
  | halfOpen state => cases hs.symm.trans state

theorem of_halfOpen (h : Shows c b s) (hs : b.state = .halfOpen) :
    s = .halfOpen b.successes ∧ b.successes < max c.successThreshold.toNat 1 := by
  cases h with
  | closed state => cases hs.symm.trans state
  | opened state => cases hs.symm.trans state
  | halfOpen _ successes_eq lt => exact ⟨by rw [successes_eq], successes_eq ▸ lt⟩

theorem state_eq (h : Shows c b s) : b.state = s.state := by
  cases h <;> assumption

/-- What is shown does not depend on probes and statistics. -/
theorem congr (h : Shows c b s) (hstate : b'.state = b.state) (hfailures : b'.failures = b.failures)
    (hsuccesses : b'.successes = b.successes) (hlast : b'.lastFailure = b.lastFailure) :
    Shows c b' s := by
  cases h with
  | closed state failures_eq lt =>
    exact .closed (hstate.trans state) (hfailures.trans failures_eq) lt
  | opened state since_eq => exact .opened (hstate.trans state) (hlast.trans since_eq)
  | halfOpen state successes_eq lt =>
    exact .halfOpen (hstate.trans state) (hsuccesses.trans successes_eq) lt

/-- A half-open period starts without successes. -/
theorem enter_halfOpen (c : Config) (b : CircuitBreaker) :
    Shows c (b.enter .halfOpen) (.halfOpen 0) := by
  apply halfOpen
  · exact state_enter ..
  · rfl
  · omega

theorem cooled_iff {since : Instant} (hconfig : b.config = c.clamp)
    (h : b.lastFailure = some since) : b.cooled now = true ↔ c.cooldown.nanos ≤ now - since := by
  simp [cooled, h, hconfig, Config.clamp]

/-- A look finds the automaton as of now. -/
theorem observe (h : Shows c b s) (hconfig : b.config = c.clamp) (now : Instant) :
    Shows c (b.observe now).1 (s.asOf c now) := by
  unfold CircuitBreaker.observe
  obtain ⟨hs, hcool, hb⟩ | ⟨hkeep, hb⟩ := b.refresh_cases now
  · obtain ⟨since, rfl, hsince⟩ := h.of_opened hs
    rw [hb]
    simp only [Automaton.asOf, if_pos ((cooled_iff hconfig hsince).mp hcool)]
    exact enter_halfOpen c b
  · rw [hb]
    cases h with
    | closed state failures_eq lt => exact .closed state failures_eq lt
    | halfOpen state successes_eq lt => exact .halfOpen state successes_eq lt
    | opened state since_eq =>
      have hhot : ¬b.cooled now = true := fun hcool => hkeep ⟨state, hcool⟩
      simp only [Automaton.asOf, if_neg (mt (cooled_iff hconfig since_eq).mpr hhot)]
      exact .opened state since_eq

/-- A call finds the automaton as of now. If no probe takes a place, it is let in unless the
automaton is open. -/
theorem request (h : Shows c b s) (hconfig : b.config = c.clamp)
    (hfree : b.state = .halfOpen → b.probes = 0) (now : Instant) :
    Shows c (b.request now).1 (s.asOf c now) ∧
      (b.request now).2.2.isSome = decide ((s.asOf c now).state ≠ .opened) := by
  have hmax : 0 < b.config.maxHalfOpenProbes.toNat := by
    rw [hconfig, c.clamp_maxHalfOpenProbes_toNat]
    omega
  -- Like a look, a request brings the circuit up to date first.
  have hseen := h.observe hconfig now
  have hstate := hseen.state_eq
  unfold CircuitBreaker.observe at hseen hstate
  rw [← hstate]
  obtain ⟨hs, hb⟩ | ⟨hs, -, hb⟩ | ⟨hs, hcool, hb⟩ | ⟨hfull, hb⟩ := request_cases hmax now
  · rw [refresh_of_ne (by simp [hs])] at hseen ⊢
    rw [hb]
    exact ⟨hseen.congr rfl rfl rfl rfl, by simp [hs]⟩
  · rw [refresh_of_ne (by simp [hs])] at hseen ⊢
    rw [hb]
    exact ⟨hseen.congr rfl rfl rfl rfl, by simp [hs]⟩
  · rw [refresh_of_cooled hs hcool] at hseen ⊢
    rw [hb]
    exact ⟨hseen.congr rfl rfl rfl rfl, by simp⟩
  · obtain ⟨hs, hfull⟩ | ⟨hs, hhot⟩ := hfull
    · exact absurd (hfree hs ▸ hmax) hfull
    · rw [refresh_of_hot hhot] at hseen ⊢
      rw [hb]
      exact ⟨hseen.congr rfl rfl rfl rfl, by simp [hs]⟩

/-- Any permit will do: whether a place is given back is not shown. -/
theorem abandon (h : Shows c b s) (p : Permit) : Shows c (b.abandon p) s :=
  h.congr state_freeProbe failures_freeProbe successes_freeProbe lastFailure_freeProbe

/-- A failure on an open circuit comes if the circuit was forced open during the call. It starts a
new cooldown as well. -/
theorem settle_failure (h : Shows c b s) (hconfig : b.config = c.clamp) (p : Permit)
    (now : Instant) : Shows c (b.settle p true now).1 (s.fail c now) := by
  have hthreshold : b.config.failureThreshold.toNat = max c.failureThreshold.toNat 1 := by
    rw [hconfig, c.clamp_failureThreshold_toNat]
  obtain ⟨hs | ⟨hs, hlt⟩, hb⟩ | ⟨hs | ⟨hs, hle⟩, hb⟩ := b.settle_failure_cases p now
  all_goals rw [hb]
  · obtain ⟨since, rfl, -⟩ := h.of_opened hs
    exact .opened (by simpa using hs) rfl
  · obtain ⟨rfl, hbelow⟩ := h.of_closed hs
    have hcount : countUp b.failures = b.failures + 1 := countUp_eq_of_lt (hthreshold ▸ hbelow)
    rw [hcount, hthreshold] at hlt
    have hmore : b.failures + 1 < c.failureThreshold.toNat := by omega
    simp only [Automaton.fail, if_pos hmore]
    exact .closed (by simpa using hs) hcount hlt
  · obtain ⟨rfl, -⟩ := h.of_halfOpen hs
    exact .opened (state_enter ..) (lastFailure_enter _)
  · obtain ⟨rfl, hbelow⟩ := h.of_closed hs
    have hcount : countUp b.failures = b.failures + 1 := countUp_eq_of_lt (hthreshold ▸ hbelow)
    rw [hcount, hthreshold] at hle
    have henough : ¬b.failures + 1 < c.failureThreshold.toNat := by omega
    simp only [Automaton.fail, if_neg henough]
    exact .opened (state_enter ..) (lastFailure_enter _)

theorem settle_success (h : Shows c b s) (hconfig : b.config = c.clamp) (p : Permit)
    (now : Instant) : Shows c (b.settle p false now).1 (s.succeed c) := by
  have hthreshold : b.config.successThreshold.toNat = max c.successThreshold.toNat 1 := by
    rw [hconfig, c.clamp_successThreshold_toNat]
  obtain ⟨hs, hb⟩ | ⟨hs, hlt, hb⟩ | ⟨hs, hle, hb⟩ | ⟨hs, hb⟩ := b.settle_success_cases p now
  all_goals rw [hb]
  · obtain ⟨rfl, -⟩ := h.of_closed hs
    exact .closed (by simpa using hs) rfl (by omega)
  · obtain ⟨rfl, hbelow⟩ := h.of_halfOpen hs
    have hcount : countUp b.successes = b.successes + 1 := countUp_eq_of_lt (hthreshold ▸ hbelow)
    rw [hcount, hthreshold] at hlt
    have hmore : b.successes + 1 < c.successThreshold.toNat := by omega
    simp only [Automaton.succeed, if_pos hmore]
    exact .halfOpen (by simpa using hs) hcount hlt
  · obtain ⟨rfl, hbelow⟩ := h.of_halfOpen hs
    have hcount : countUp b.successes = b.successes + 1 := countUp_eq_of_lt (hthreshold ▸ hbelow)
    rw [hcount, hthreshold] at hle
    have henough : ¬b.successes + 1 < c.successThreshold.toNat := by omega
    simp only [Automaton.succeed, if_neg henough]
    exact .closed (state_enter ..) rfl (by omega)
  · obtain ⟨since, rfl, -⟩ := h.of_opened hs
    exact h.abandon p

theorem reset (c : Config) (b : CircuitBreaker) : Shows c b.reset.1 (.closed 0) := by
  obtain ⟨hs, hb⟩ | ⟨-, hb⟩ := b.reset_cases
  · rw [hb]
    exact .closed hs rfl (by omega)
  · rw [hb]
    exact .closed (state_enter ..) rfl (by omega)

theorem forceOpen (c : Config) (b : CircuitBreaker) (now : Instant) :
    Shows c (b.forceOpen now).1 (.opened now) := by
  obtain ⟨hs, hb⟩ | ⟨-, hb⟩ := b.forceOpen_cases now
  · rw [hb]
    exact .opened hs rfl
  · rw [hb]
    exact .opened (state_enter ..) (lastFailure_enter _)

end Shows

namespace Ledger

/-! ## One call at a time -/

/-- No call is on its way. -/
def Idle (l : Ledger) : Prop := ∀ e ∈ l.calls, e.progress.unfinished = false

instance (l : Ledger) : Decidable l.Idle :=
  inferInstanceAs (Decidable (∀ e ∈ l.calls, e.progress.unfinished = false))

/-- Whenever a call asks for admission, all calls before it have ended. Everything else may happen
at any time. -/
def Sequential (l : Ledger) : List (Instant × Act) → Prop
  | [] => True
  | (now, a) :: acts => (a = .request → l.Idle) ∧ (l.attend now a).Sequential acts

instance decidableSequential (l : Ledger) :
    (acts : List (Instant × Act)) → Decidable (l.Sequential acts)
  | [] => inferInstanceAs (Decidable True)
  | (now, a) :: acts =>
    have := decidableSequential (l.attend now a) acts
    inferInstanceAs (Decidable ((a = .request → l.Idle) ∧ (l.attend now a).Sequential acts))

/-- The books are in order: entries and permits agree, the count of places is exact, and no place
was lost to a panic. -/
structure Orderly (c : Config) (l : Ledger) : Prop where
  dated : Dated c l
  counted : Counted l
  kept : ∀ e ∈ l.calls, e.progress ≠ .lost

variable {c : Config} {l l' : Ledger} {s : Automaton} {now : Instant} {a : Act}
  {acts : List (Instant × Act)}

namespace Orderly

theorem blank (c : Config) : Orderly c (blank c) where
  dated := .blank c
  counted := .blank c
  kept := by simp [Ledger.blank]

theorem step (h : Orderly c l) (hquiet : ∀ id, a ≠ .announced id true)
    (hstep : l.step now a = some l') : Orderly c l' where
  dated := h.dated.step hstep
  counted := h.counted.step h.dated hstep
  kept := by
    intro e he hlost
    rcases lost_of_step hstep he hlost with he | ⟨id, ha⟩
    · exact h.kept e he hlost
    · exact hquiet id ha

/-- Once all calls have ended, no place is taken. -/
theorem probes_of_idle (h : Orderly c l) (hidle : l.Idle) : l.breaker.probes = 0 := by
  have hunfinished : l.unfinishedProbes = 0 := by
    simp only [unfinishedProbes, probesThat, List.countP_eq_zero]
    intro e he hq
    simp [hidle e he] at hq
  have hlost : l.lostProbes = 0 := lostProbes_of_kept h.kept
  rw [h.counted.probes, hunfinished, hlost]

/-- Breaker and automaton do the same at every act, and answer it alike. -/
theorem answer_and_step (h : Orderly c l) (hshows : Shows c l.breaker s)
    (hidle : a = .request → l.Idle) (hstep : l.step now a = some l') :
    l.answer now a = s.answer c now a ∧ Shows c l'.breaker (s.step c now a) := by
  have hconfig := h.dated.config
  cases a with
  | request =>
    have hfree := h.probes_of_idle (hidle rfl)
    obtain ⟨hnext, hverdict⟩ := hshows.request hconfig (fun _ => hfree) now
    rw [breaker_of_step_request hstep]
    exact ⟨congrArg (some ∘ Answer.verdict) hverdict, hnext⟩
  | announced id panics =>
    obtain ⟨e, -, rfl⟩ := Option.map_eq_some_iff.mp hstep
    exact ⟨rfl, hshows⟩
  | settle id failed =>
    obtain ⟨e, -, rfl⟩ := Option.map_eq_some_iff.mp hstep
    refine ⟨rfl, ?_⟩
    cases failed with
    | true => exact hshows.settle_failure hconfig e.permit now
    | false => exact hshows.settle_success hconfig e.permit now
  | drop id =>
    obtain ⟨e, -, rfl⟩ := Option.map_eq_some_iff.mp hstep
    exact ⟨rfl, hshows.abandon e.permit⟩
  | observe =>
    obtain rfl := Option.some.inj hstep
    have hseen := hshows.observe hconfig now
    exact ⟨congrArg (some ∘ Answer.saw) hseen.state_eq, hseen⟩
  | reset =>
    obtain rfl := Option.some.inj hstep
    exact ⟨rfl, .reset c l.breaker⟩
  | forceOpen =>
    obtain rfl := Option.some.inj hstep
    exact ⟨rfl, .forceOpen c l.breaker now⟩

/-- A run is answered like the automaton that the breaker shows at its start. -/
theorem answers_eq (h : Orderly c l) (hshows : Shows c l.breaker s) (hrun : l.run acts = some l')
    (hquiet : ∀ x ∈ acts, ∀ id, x.2 ≠ .announced id true) (hsequential : l.Sequential acts) :
    l.answers (acts.map fun x => .own x.1 x.2) = s.answers c acts := by
  -- By induction on the run: the books stay in order, and the breaker shows what the automaton is.
  induction acts generalizing l s with
  | nil => rfl
  | cons x acts ih =>
    obtain ⟨now, a⟩ := x
    obtain ⟨m, hstep, hrest⟩ := run_cons_eq_some.mp hrun
    obtain ⟨hidle, hsequential⟩ := hsequential
    obtain ⟨hquiet, hquiet'⟩ := List.forall_mem_cons.mp hquiet
    obtain ⟨hanswer, hnext⟩ := h.answer_and_step hshows hidle hstep
    rw [attend_of_step hstep] at hsequential
    have htail := ih (h.step hquiet hstep) hnext hrest hquiet' hsequential
    show l.answer now a :: (l.attend now a).answers _ = s.answer c now a :: _
    rw [hanswer, attend_of_step hstep, htail]

end Orderly

/-- **One call at a time.** In a run in which every call has ended before the next one asks for
admission, and no hook panics, all verdicts and all states that are seen are those of the automaton,
for every configuration, and whenever calls end, the circuit is looked at, reset or forced open. -/
theorem answers_eq_automaton (hrun : (Ledger.blank c).run acts = some l)
    (hquiet : ∀ x ∈ acts, ∀ id, x.2 ≠ .announced id true)
    (hsequential : (Ledger.blank c).Sequential acts) :
    (Ledger.blank c).answers (acts.map fun x => .own x.1 x.2) =
      (Automaton.closed 0).answers c acts :=
  (Orderly.blank c).answers_eq (.new c) hrun hquiet hsequential

/-- Two failures open the circuit for ten milliseconds, and two successes close it again. -/
def cautious : Config where
  failureThreshold := 2
  successThreshold := 2
  cooldown := .ofMillis 10
  maxHalfOpenProbes := 1

/-- After a failure the circuit is forced open. The first probe is abandoned, the second one
succeeds and the third one fails. After another cooldown two probes close the circuit, and the next
failure is the first one again. -/
def recovery : List (Instant × Act) :=
  [(0, .request), (1000000, .settle 0 true), (1000000, .forceOpen), (5000000, .request),
    (11000000, .request), (11000000, .announced 1 false), (12000000, .drop 1),
    (12000000, .request), (13000000, .settle 2 false), (14000000, .request),
    (15000000, .settle 3 true), (24000000, .observe), (25000000, .observe), (25000000, .request),
    (26000000, .settle 4 false), (27000000, .request), (28000000, .settle 5 false),
    (28000000, .observe), (29000000, .request), (30000000, .settle 6 true), (30000000, .observe)]

theorem answers_eq_automaton_recovery :
    ((Ledger.blank cautious).run recovery).isSome = true ∧
      (∀ x ∈ recovery, ∀ id, x.2 ≠ .announced id true) ∧
      (Ledger.blank cautious).Sequential recovery ∧
      ((Ledger.blank cautious).answers (recovery.map fun x => .own x.1 x.2)).filterMap id =
        [.verdict true, .verdict false, .verdict true, .verdict true, .verdict true,
          .saw .opened, .saw .halfOpen, .verdict true, .verdict true, .saw .closed,
          .verdict true, .saw .closed] := by
  have hrun : (Ledger.blank cautious).run recovery = some _ := rfl
  have hquiet : ∀ x ∈ recovery, ∀ id, x.2 ≠ .announced id true := by simp [recovery]
  have hsequential : (Ledger.blank cautious).Sequential recovery := by decide
  refine ⟨rfl, hquiet, hsequential, ?_⟩
  rw [answers_eq_automaton hrun hquiet hsequential]
  rfl

end Ledger

end Safeguard.CircuitBreaker
