import Safeguard.Proofs.CircuitBreaker.Ledger

/-!
# The history of a breaker and its counters

The changes of state of a breaker follow one another without a gap, from the closed state in
which it was made to the present one, and only five kinds of them occur. The counters are
what this history says: the period is its length, and the numbers of times that the circuit
opened and closed are how often it enters the two states. A circuit that reopens from
half-open opens once more without having closed, so that the two numbers do not only differ
by what is open now.

Calls are counted when they ask. Those that were let in have settled, have ended without a
result, or have not ended.

## Main definitions

* `Transition.isLawful`: the kinds of changes that occur.
* `Unbroken`: changes that lead from one state to another.
* `Ledger.Chronicle`: the counters agree with the history.
* `Ledger.Accounts`: all that the counters say of a run.

## Main results

* `Unbroken.balance`: how often a history opens, closes and reopens.
* `Ledger.accounts_run`: the counters agree with the history after every run.
* `Ledger.reopened_then_closed`: a closed circuit that opened more often than it closed.
-/

namespace Safeguard.CircuitBreaker

/-- The kinds of changes that occur: a circuit turns half-open only when it is open. -/
def Transition.isLawful : Transition → Bool
  | ⟨.closed, .opened⟩ | ⟨.opened, .halfOpen⟩ | ⟨.halfOpen, .opened⟩ | ⟨.halfOpen, .closed⟩
  | ⟨.opened, .closed⟩ => true
  | _ => false

/-- Whether a half-open circuit opens again. -/
def Transition.reopens (t : Transition) : Bool := t.source = .halfOpen && t.target = .opened

/-- Changes that lead from one state to another without a gap. -/
def Unbroken (start : State) : List Transition → State → Prop
  | [], stop => start = stop
  | t :: ts, stop => t.source = start ∧ Unbroken t.target ts stop

instance decidableUnbroken (start : State) :
    (ts : List Transition) → (stop : State) → Decidable (Unbroken start ts stop)
  | [], stop => inferInstanceAs (Decidable (start = stop))
  | t :: ts, stop =>
    have := decidableUnbroken t.target ts stop
    inferInstanceAs (Decidable (t.source = start ∧ Unbroken t.target ts stop))

namespace Unbroken

variable {start stop : State} {ts : List Transition} {t : Transition}

/-- A history that goes on from where it had led to. -/
theorem concat (h : Unbroken start ts stop) (ht : t.source = stop) :
    Unbroken start (ts ++ [t]) t.target := by
  induction ts generalizing start with
  | nil => exact ⟨ht.trans h.symm, rfl⟩
  | cons x ts ih => exact ⟨h.1, ih h.2⟩

/-- Every opening is followed by a closing or is the last one, or the circuit reopened. -/
theorem balance (h : Unbroken start ts stop) (hlawful : ∀ t ∈ ts, t.isLawful = true) :
    ts.countP (·.target = .opened) + (if start = .closed then 0 else 1) =
      ts.countP (·.target = .closed) + ts.countP (·.reopens) +
        (if stop = .closed then 0 else 1) := by
  induction ts generalizing start with
  | nil =>
    obtain rfl : start = stop := h
    simp
  | cons t ts ih =>
    obtain ⟨rfl, hrest⟩ := h
    obtain ⟨ht, hlawful⟩ := List.forall_mem_cons.mp hlawful
    have hrest := ih hrest hlawful
    simp only [List.countP_cons]
    -- Each of the five kinds adds the same on both sides.
    obtain ⟨source, target⟩ := t
    cases source <;> cases target <;>
      simp_all [Transition.isLawful, Transition.reopens] <;> omega

end Unbroken

/-! ## What operations count -/

/-- An operation counts the change of state that it reports. -/
structure Tallies (b : CircuitBreaker) (r : CircuitBreaker × Option Transition) : Prop where
  lawful : ∀ t ∈ r.2.toList, t.isLawful = true
  timesOpened : r.1.timesOpened = b.timesOpened + r.2.toList.countP (·.target = .opened)
  timesClosed : r.1.timesClosed = b.timesClosed + r.2.toList.countP (·.target = .closed)

/-- An operation that no call asks for admission with counts no call. -/
structure Serves (b : CircuitBreaker) (r : CircuitBreaker × Option Transition) : Prop extends
    Tallies b r where
  totalRequests : r.1.totalRequests = b.totalRequests
  rejectedRequests : r.1.rejectedRequests = b.rejectedRequests

section Tallies

variable {b b' : CircuitBreaker} {p : Permit} {now : Instant}

@[simp] theorem timesOpened_freeProbe : (b.freeProbe p).timesOpened = b.timesOpened := by
  unfold freeProbe; split <;> rfl

@[simp] theorem timesClosed_freeProbe : (b.freeProbe p).timesClosed = b.timesClosed := by
  unfold freeProbe; split <;> rfl

@[simp] theorem totalRequests_freeProbe : (b.freeProbe p).totalRequests = b.totalRequests := by
  unfold freeProbe; split <;> rfl

@[simp] theorem rejectedRequests_freeProbe :
    (b.freeProbe p).rejectedRequests = b.rejectedRequests := by
  unfold freeProbe; split <;> rfl

/-- An operation that keeps the state touches no counter. -/
theorem serves_keep (hopened : b'.timesOpened = b.timesOpened)
    (hclosed : b'.timesClosed = b.timesClosed) (htotal : b'.totalRequests = b.totalRequests)
    (hrejected : b'.rejectedRequests = b.rejectedRequests) : b.Serves (b', none) where
  lawful := by simp
  timesOpened := hopened
  timesClosed := hclosed
  totalRequests := htotal
  rejectedRequests := hrejected

/-- An operation that enters another state counts that. -/
theorem serves_enter {target : State} (hne : b.state ≠ target)
    (hopen : target = .halfOpen → b.state = .opened)
    (hopened : b'.timesOpened = b.timesOpened) (hclosed : b'.timesClosed = b.timesClosed)
    (htotal : b'.totalRequests = b.totalRequests)
    (hrejected : b'.rejectedRequests = b.rejectedRequests) :
    b.Serves (b'.enter target, some ⟨b.state, target⟩) where
  lawful := by cases hs : b.state <;> cases target <;> simp_all [Transition.isLawful]
  timesOpened := by cases target <;> simp [enter, hopened]
  timesClosed := by cases target <;> simp [enter, hclosed]
  totalRequests := by cases target <;> exact htotal
  rejectedRequests := by cases target <;> exact hrejected

theorem serves_abandon (b : CircuitBreaker) (p : Permit) : b.Serves (b.abandon p, none) :=
  serves_keep timesOpened_freeProbe timesClosed_freeProbe totalRequests_freeProbe
    rejectedRequests_freeProbe

theorem serves_observe (b : CircuitBreaker) (now : Instant) : b.Serves (b.observe now) := by
  unfold observe
  obtain ⟨hs, -, h⟩ | ⟨-, h⟩ := b.refresh_cases now
  · rw [h, ← hs]
    exact serves_enter (by simp [hs]) (fun _ => hs) rfl rfl rfl rfl
  · rw [h]
    exact serves_keep rfl rfl rfl rfl

theorem serves_reset (b : CircuitBreaker) : b.Serves b.reset := by
  obtain ⟨-, h⟩ | ⟨hs, h⟩ := b.reset_cases
  · rw [h]
    exact serves_keep rfl rfl rfl rfl
  · rw [h]
    exact serves_enter hs nofun rfl rfl rfl rfl

theorem serves_forceOpen (b : CircuitBreaker) (now : Instant) : b.Serves (b.forceOpen now) := by
  obtain ⟨-, h⟩ | ⟨hs, h⟩ := b.forceOpen_cases now
  · rw [h]
    exact serves_keep rfl rfl rfl rfl
  · rw [h]
    exact serves_enter hs nofun rfl rfl rfl rfl

theorem serves_settle (b : CircuitBreaker) (p : Permit) (failed : Bool) (now : Instant) :
    b.Serves (b.settle p failed now) := by
  cases failed with
  | true =>
    obtain ⟨-, h⟩ | ⟨hs, h⟩ := b.settle_failure_cases p now
    · rw [h]
      exact serves_keep (by simp) (by simp) (by simp) (by simp)
    · have hne : b.state ≠ .opened := by rcases hs with hs | ⟨hs, -⟩ <;> simp [hs]
      rw [h]
      exact serves_enter hne nofun (by simp) (by simp) (by simp) (by simp)
  | false =>
    obtain ⟨-, h⟩ | ⟨-, -, h⟩ | ⟨hs, -, h⟩ | ⟨-, h⟩ := b.settle_success_cases p now
    · rw [h]
      exact serves_keep (by simp) (by simp) (by simp) (by simp)
    · rw [h]
      exact serves_keep (by simp) (by simp) (by simp) (by simp)
    · rw [h, ← hs]
      exact serves_enter (by simp [hs]) nofun (by simp) (by simp) (by simp) (by simp)
    · rw [h]
      exact serves_keep (by simp) (by simp) (by simp) (by simp)

/-- A call that asks is counted, and once more if it is turned away. -/
theorem tallies_request (hmax : 0 < b.config.maxHalfOpenProbes.toNat) (now : Instant) :
    b.Tallies ((b.request now).1, (b.request now).2.1) ∧
      (b.request now).1.totalRequests = b.totalRequests + 1 ∧
      (b.request now).1.rejectedRequests =
        b.rejectedRequests + if (b.request now).2.2.isSome then 0 else 1 := by
  obtain ⟨-, h⟩ | ⟨-, -, h⟩ | ⟨-, -, h⟩ | ⟨-, h⟩ := request_cases hmax now
  · rw [h]
    exact ⟨⟨by simp, rfl, rfl⟩, rfl, rfl⟩
  · rw [h]
    exact ⟨⟨by simp, rfl, rfl⟩, rfl, rfl⟩
  · rw [h]
    exact ⟨⟨by simp [Transition.isLawful], rfl, rfl⟩, rfl, rfl⟩
  · rw [h]
    exact ⟨⟨by simp, rfl, rfl⟩, rfl, rfl⟩

end Tallies

namespace Ledger

/-! ## How far calls are -/

/-- Whether the call ended with a result. -/
def Progress.isSettled : Progress → Bool
  | .settled .. => true
  | _ => false

/-- Whether the call ended without a result. -/
def Progress.isForgone : Progress → Bool
  | .dropped | .lost => true
  | _ => false

/-- The number of calls that are so far. -/
def callsThat (l : Ledger) (q : Progress → Bool) : Nat := l.calls.countP fun e => q e.progress

/-- Every call that was let in settled, ended without a result, or has not ended. -/
theorem length_calls (l : Ledger) :
    l.calls.length =
      l.callsThat Progress.isSettled + l.callsThat Progress.isForgone +
        l.callsThat Progress.unfinished := by
  unfold callsThat
  induction l.calls with
  | nil => rfl
  | cons e calls ih =>
    simp only [List.length_cons, List.countP_cons, ih]
    cases e.progress <;>
      simp [Progress.isSettled, Progress.isForgone, Progress.unfinished] <;> omega

/-- Whether a call asks for admission. -/
def Act.isRequest : Act → Bool
  | .request => true
  | _ => false

/-! ## Runs -/

/-- The counters of openings and closings agree with the history. -/
structure History (b : CircuitBreaker) (changes : List Transition) : Prop where
  unbroken : Unbroken .closed changes b.state
  lawful : ∀ t ∈ changes, t.isLawful = true
  timesOpened : b.timesOpened = changes.countP (·.target = .opened)
  timesClosed : b.timesClosed = changes.countP (·.target = .closed)

/-- A change of state is entered into the history. -/
theorem History.append {b : CircuitBreaker} {changes : List Transition} {target : State}
    {r : CircuitBreaker × Option Transition} (h : History b changes) (hmoves : b.Moves target r)
    (htallies : b.Tallies r) : History r.1 (changes ++ r.2.toList) where
  unbroken := by
    cases hmoves with
    | keep _ state _ =>
      rw [Option.toList_none, List.append_nil, state]
      exact h.unbroken
    | enter _ _ state _ =>
      rw [state]
      exact h.unbroken.concat rfl
  lawful t ht := (List.mem_append.mp ht).elim (h.lawful t) (htallies.lawful t)
  timesOpened := by rw [htallies.timesOpened, h.timesOpened, List.countP_append]
  timesClosed := by rw [htallies.timesClosed, h.timesClosed, List.countP_append]

/-- The counters agree with the history and with the calls. -/
structure Chronicle (l : Ledger) : Prop where
  history : History l.breaker l.changes
  requests : l.breaker.totalRequests = l.breaker.rejectedRequests + l.calls.length

variable {c : Config} {l l' : Ledger} {now : Instant} {a : Act} {id : Nat} {e : Entry}
  {progress : Progress} {acts : List (Instant × Act)}

namespace Chronicle

theorem blank (c : Config) : Chronicle (blank c) where
  history := ⟨rfl, by simp [Ledger.blank], rfl, rfl⟩
  requests := rfl

theorem after {target : State} {r : CircuitBreaker × Option Transition} (h : Chronicle l)
    (hmoves : l.breaker.Moves target r) (hserves : l.breaker.Serves r) :
    Chronicle (l.after r) where
  history := h.history.append hmoves hserves.toTallies
  requests := by
    show r.1.totalRequests = r.1.rejectedRequests + l.calls.length
    rw [hserves.totalRequests, hserves.rejectedRequests, h.requests]

theorem mark (h : Chronicle l) (id : Nat) (e : Entry) (progress : Progress) :
    Chronicle (l.mark id e progress) where
  history := h.history
  requests := by
    show _ = _ + (l.calls.set id _).length
    rw [List.length_set]
    exact h.requests

/-- A call that asks is turned away and counted, or is entered. -/
theorem request (hd : Dated c l) (h : Chronicle l) (hstep : l.step now .request = some l') :
    Chronicle l' := by
  obtain ⟨htallies, htotal, hrejected⟩ := tallies_request hd.maxHalfOpenProbes_pos now
  have hhistory := h.history.append (moves_request hd.maxHalfOpenProbes_pos now) htallies
  have hrequests := h.requests
  obtain ⟨hp, rfl⟩ | ⟨p, hp, rfl⟩ := step_request_cases hstep
  · refine ⟨hhistory, ?_⟩
    show (l.breaker.request now).1.totalRequests =
      (l.breaker.request now).1.rejectedRequests + l.calls.length
    simp only [hp, Option.isSome_none, Bool.false_eq_true, if_false] at hrejected
    omega
  · refine ⟨hhistory, ?_⟩
    show (l.breaker.request now).1.totalRequests =
      (l.breaker.request now).1.rejectedRequests + (l.calls ++ [_]).length
    simp only [hp, Option.isSome_some, if_true] at hrejected
    rw [List.length_append, List.length_singleton]
    omega

/-- Every act keeps the agreement. -/
theorem step (hd : Dated c l) (h : Chronicle l) (hstep : l.step now a = some l') :
    Chronicle l' := by
  cases a with
  | request => exact h.request hd hstep
  | announced id panics =>
    obtain ⟨e, -, rfl⟩ := Option.map_eq_some_iff.mp hstep
    exact h.mark id e _
  | settle id failed =>
    obtain ⟨e, -, rfl⟩ := Option.map_eq_some_iff.mp hstep
    have hmark := h.mark id e (.settled failed l.era)
    cases failed with
    | true => exact hmark.after (moves_settle_failure ..) (serves_settle ..)
    | false => exact hmark.after (moves_settle_success ..) (serves_settle ..)
  | drop id =>
    obtain ⟨e, -, rfl⟩ := Option.map_eq_some_iff.mp hstep
    exact (h.mark id e .dropped).after (moves_abandon _ _ .closed) (serves_abandon ..)
  | observe =>
    obtain rfl := Option.some.inj hstep
    exact h.after (moves_observe ..) (serves_observe ..)
  | reset =>
    obtain rfl := Option.some.inj hstep
    exact h.after (moves_reset _) (serves_reset _)
  | forceOpen =>
    obtain rfl := Option.some.inj hstep
    exact h.after (moves_forceOpen ..) (serves_forceOpen ..)

end Chronicle

theorem chronicle_run (hrun : (blank c).run acts = some l) : Dated c l ∧ Chronicle l :=
  run_induction (P := fun l => Dated c l ∧ Chronicle l)
    (fun _ _ _ _ _ h hstep => ⟨h.1.step hstep, h.2.step h.1 hstep⟩)
    ⟨.blank c, .blank c⟩ hrun

/-- Every request is counted, and nothing else is. -/
theorem totalRequests_step (hd : Dated c l) (hstep : l.step now a = some l') :
    l'.breaker.totalRequests = l.breaker.totalRequests + if a.isRequest then 1 else 0 := by
  cases a with
  | request =>
    rw [breaker_of_step_request hstep]
    exact (tallies_request hd.maxHalfOpenProbes_pos now).2.1
  | announced id panics =>
    obtain ⟨e, -, rfl⟩ := Option.map_eq_some_iff.mp hstep
    rfl
  | settle id failed =>
    obtain ⟨e, -, rfl⟩ := Option.map_eq_some_iff.mp hstep
    exact (serves_settle l.breaker e.permit failed now).totalRequests
  | drop id =>
    obtain ⟨e, -, rfl⟩ := Option.map_eq_some_iff.mp hstep
    exact (serves_abandon l.breaker e.permit).totalRequests
  | observe =>
    obtain rfl := Option.some.inj hstep
    exact (serves_observe l.breaker now).totalRequests
  | reset =>
    obtain rfl := Option.some.inj hstep
    exact (serves_reset l.breaker).totalRequests
  | forceOpen =>
    obtain rfl := Option.some.inj hstep
    exact (serves_forceOpen l.breaker now).totalRequests

theorem totalRequests_run (hd : Dated c l) (hrun : l.run acts = some l') :
    l'.breaker.totalRequests = l.breaker.totalRequests + acts.countP (·.2.isRequest) := by
  induction acts generalizing l with
  | nil =>
    cases hrun
    rfl
  | cons x acts ih =>
    obtain ⟨m, hm, hrest⟩ := run_cons_eq_some.mp hrun
    rw [ih (hd.step hm) hrest, totalRequests_step hd hm, List.countP_cons]
    omega

/-- All that the counters of a breaker say of its run: of the changes of state since it was
made, of the requests, and of what became of the calls. -/
structure Accounts (acts : List (Instant × Act)) (l : Ledger) : Prop where
  unbroken : Unbroken .closed l.changes l.breaker.state
  lawful : ∀ t ∈ l.changes, t.isLawful = true
  period : l.breaker.period = l.changes.length
  timesOpened : l.breaker.timesOpened = l.changes.countP (·.target = .opened)
  timesClosed : l.breaker.timesClosed = l.changes.countP (·.target = .closed)
  balance : l.breaker.timesOpened = l.breaker.timesClosed + l.changes.countP (·.reopens) +
    if l.breaker.state = .closed then 0 else 1
  asked : l.breaker.totalRequests = acts.countP (·.2.isRequest)
  requests : l.breaker.totalRequests = l.breaker.rejectedRequests +
    l.callsThat Progress.isSettled + l.callsThat Progress.isForgone +
      l.callsThat Progress.unfinished

theorem accounts_run (hrun : (blank c).run acts = some l) : Accounts acts l := by
  obtain ⟨hd, hhistory, hrequests⟩ := chronicle_run hrun
  have hbalance := hhistory.unbroken.balance hhistory.lawful
  have hcalls := l.length_calls
  refine ⟨hhistory.unbroken, hhistory.lawful, hd.period, hhistory.timesOpened,
    hhistory.timesClosed, ?_, ?_, ?_⟩
  · rw [hhistory.timesOpened, hhistory.timesClosed]
    simpa using hbalance
  · have htotal := totalRequests_run (.blank c) hrun
    simpa [blank, CircuitBreaker.new] using htotal
  · omega

/-- A circuit is forced open, reopens when its probe fails, and is closed by the next one. It is
closed now, and has opened twice and closed once. -/
theorem reopened_then_closed :
    ∃ l, (blank ⟨1, 1, .ofMillis 10, 1⟩).run
        [(0, .forceOpen), (10000000, .request), (10000000, .announced 0 false),
          (10000000, .settle 0 true), (20000000, .request), (20000000, .announced 1 false),
          (20000000, .settle 1 false)] = some l ∧
      l.breaker.state = .closed ∧ l.breaker.timesOpened = 2 ∧ l.breaker.timesClosed = 1 :=
  ⟨_, rfl, rfl, rfl, rfl⟩

end Ledger

end Safeguard.CircuitBreaker
