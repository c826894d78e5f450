import Safeguard.Proofs.CircuitBreaker.Operations

/-!
# Runs of a breaker

A breaker is shared by calls that overlap in any way, and each of them touches it at
most twice under its lock: when it asks for admission, and when it ends. Between the
two, and while the hook is told of a change of state, anybody else may have their
turn. A run is therefore a list of acts at points of time, in the order in which
they hold the lock, and a ledger is what a run leads to: the breaker, the changes of
state so far, and what became of every call that was let in.

The ledger takes nothing from the bookkeeping of the breaker. An entry notes the
state in which the call was let in and the *era* it was let in, which is the number
of changes of state before; a call was let in as a probe of the current half-open
period if it was let in half-open and in the current era. How this agrees with the
period that a permit carries is a theorem, not a definition.

## Main definitions

* `Ledger`, `Ledger.Entry`, `Ledger.Progress`: a breaker, its calls, and how far they
  are.
* `Ledger.Act`, `Ledger.step`, `Ledger.run`: what can happen to a breaker.
* `Ledger.Spans`: acts follow the clock.
* `Ledger.probesThat`: how many probes of the current half-open period are so far.
* `Ledger.Dated`: entries and permits agree about eras.

## Main results

* `Ledger.run_induction`: what every act keeps holds after every run.
* `Ledger.Dated.run`: entries and permits agree about eras after every run.
-/

namespace Safeguard.CircuitBreaker

/-- How far a call is that was let in. -/
inductive Ledger.Progress where
  /-- Its admission changed the state, and the hook is being told. -/
  | announcing
  /-- It holds its permit. -/
  | running
  /-- It ended with a result, after that many changes of state. -/
  | settled (failed : Bool) (during : Nat)
  /-- It ended without a result: it was abandoned, or its operation or the failure
  predicate panicked. -/
  | dropped
  /-- The hook panicked before the call had its permit. -/
  | lost
deriving DecidableEq, Repr

namespace Ledger.Progress

/-- Whether the call has not ended. -/
def unfinished : Progress → Bool
  | .announcing | .running => true
  | _ => false

/-- Whether the hook panicked before the call had its permit. -/
def isLost : Progress → Bool
  | .lost => true
  | _ => false

/-- Whether the call was let in by a change of state and has no permit. -/
def withoutPermit : Progress → Bool
  | .announcing | .lost => true
  | _ => false

/-- Whether the call ended with a success. -/
def succeeded : Progress → Bool
  | .settled false _ => true
  | _ => false

end Ledger.Progress

/-- A call that was let in. -/
structure Ledger.Entry where
  /-- What the breaker gave it. -/
  permit : Permit
  /-- The state in which it was let in. -/
  state : State
  /-- The number of changes of state before it was let in. -/
  era : Nat
  progress : Progress
deriving DecidableEq, Repr

/-- Whether the call was let in as a probe of the half-open period that is the given
era. -/
def Ledger.Entry.isProbeOf (e : Entry) (era : Nat) : Bool := e.state = .halfOpen && e.era = era

/-- What happens to a breaker. -/
inductive Ledger.Act where
  /-- A call asks for admission. -/
  | request
  /-- The hook was told of the change that let a call in, and returns or panics. -/
  | announced (call : Nat) (panics : Bool)
  /-- A call ends with a result. What the hook does that is told of a change then, the
  call has ended. -/
  | settle (call : Nat) (failed : Bool)
  /-- A call ends without a result. -/
  | drop (call : Nat)
  /-- Somebody looks at the state or at the counters. -/
  | observe
  | reset
  | forceOpen
deriving DecidableEq, Repr

/-- Whether a call ends with a failure. -/
def Ledger.Act.isFailure : Act → Bool
  | .settle _ true => true
  | _ => false

/-- Whether a call ends with a success. -/
def Ledger.Act.isSuccess : Act → Bool
  | .settle _ false => true
  | _ => false

/-- The state that an act enters if it changes the state. -/
def Ledger.Act.target? : Act → Option State
  | .request | .observe => some .halfOpen
  | .settle _ true | .forceOpen => some .opened
  | .settle _ false | .reset => some .closed
  | .announced .. | .drop _ => none

/-- A breaker and what became of its calls. -/
structure Ledger where
  breaker : CircuitBreaker
  /-- All changes of state, in order. -/
  changes : List Transition
  /-- All calls that were let in, by number. -/
  calls : List Ledger.Entry

namespace Ledger

/-- A new breaker, without calls. -/
def blank (c : Config) : Ledger := ⟨.new c, [], []⟩

/-- The number of changes of state. -/
def era (l : Ledger) : Nat := l.changes.length

/-- Takes over the result of an operation on the breaker. -/
def after (l : Ledger) (result : CircuitBreaker × Option Transition) : Ledger :=
  { l with breaker := result.1, changes := l.changes ++ result.2.toList }

/-- Enters a call that has just been let in. -/
def enrol (l : Ledger) (p : Permit) (progress : Progress) : Ledger :=
  { l with calls := l.calls ++ [⟨p, l.breaker.state, l.era, progress⟩] }

/-- A call that is that far. -/
def find? (l : Ledger) (id : Nat) (progress : Progress) : Option Entry :=
  l.calls[id]?.filter (·.progress = progress)

/-- Notes how far a call is. -/
def mark (l : Ledger) (id : Nat) (e : Entry) (progress : Progress) : Ledger :=
  { l with calls := l.calls.set id { e with progress := progress } }

/-- One act; none if the call it is about is not that far. -/
def step (l : Ledger) (now : Instant) : Act → Option Ledger
  | .request =>
    let r := l.breaker.request now
    let l := l.after (r.1, r.2.1)
    -- The hook is told of a change before the permit exists.
    some (r.2.2.elim l fun p => l.enrol p (if r.2.1.isSome then .announcing else .running))
  | .announced id panics =>
    (l.find? id .announcing).map fun e => l.mark id e (if panics then .lost else .running)
  | .settle id failed =>
    (l.find? id .running).map fun e =>
      (l.mark id e (.settled failed l.era)).after (l.breaker.settle e.permit failed now)
  | .drop id =>
    (l.find? id .running).map fun e =>
      (l.mark id e .dropped).after (l.breaker.abandon e.permit, none)
  | .observe => some (l.after (l.breaker.observe now))
  | .reset => some (l.after l.breaker.reset)
  | .forceOpen => some (l.after (l.breaker.forceOpen now))

/-- Acts one after the other. -/
def run (l : Ledger) : List (Instant × Act) → Option Ledger
  | [] => some l
  | (now, a) :: acts => (l.step now a).bind (·.run acts)

/-- The acts happen between two points of time, one after the other. -/
def Spans (start stop : Instant) : List (Instant × Act) → Prop
  | [] => start ≤ stop
  | (now, _) :: acts => start ≤ now ∧ Spans now stop acts

instance decidableSpans (start stop : Instant) :
    (acts : List (Instant × Act)) → Decidable (Spans start stop acts)
  | [] => inferInstanceAs (Decidable (start ≤ stop))
  | (now, _) :: acts =>
    have := decidableSpans now stop acts
    inferInstanceAs (Decidable (start ≤ now ∧ Spans now stop acts))

/-- How many probes of the current half-open period are as far as is asked for. -/
def probesThat (l : Ledger) (q : Progress → Bool) : Nat :=
  l.calls.countP fun e => e.isProbeOf l.era && q e.progress

variable {l l' : Ledger} {b : CircuitBreaker} {t : Transition} {p : Permit} {e : Entry} {id : Nat}
  {now : Instant} {a : Act} {q : Progress → Bool} {progress : Progress}

/-! ## Runs -/

theorem run_cons_eq_some {acts : List (Instant × Act)} :
    l.run ((now, a) :: acts) = some l' ↔ ∃ m, l.step now a = some m ∧ m.run acts = some l' :=
  Option.bind_eq_some_iff

/-- What a run does, its parts do one after the other. -/
theorem run_append (acts acts' : List (Instant × Act)) :
    l.run (acts ++ acts') = (l.run acts).bind (·.run acts') := by
  induction acts generalizing l with
  | nil => rfl
  | cons x acts ih =>
    simp only [List.cons_append, run, ih, Option.bind_assoc]

/-- What every act of a run keeps, the run keeps. -/
theorem run_induction {P : Ledger → Prop} {acts : List (Instant × Act)}
    (hstep : ∀ l now a l', (now, a) ∈ acts → P l → l.step now a = some l' → P l')
    (h : P l) (hrun : l.run acts = some l') : P l' := by
  induction acts generalizing l with
  | nil => cases hrun; exact h
  | cons x acts ih =>
    obtain ⟨m, hm, hrest⟩ := run_cons_eq_some.mp hrun
    exact ih (fun l now a l' ha => hstep l now a l' (.tail _ ha))
      (hstep _ _ _ _ (.head _) h hm) hrest

/-! ## The clock -/

section Spans

variable {start stop later : Instant} {acts acts' : List (Instant × Act)}

theorem Spans.le (h : Spans start stop acts) : start ≤ stop := by
  induction acts generalizing start with
  | nil => exact h
  | cons x acts ih => exact Nat.le_trans h.1 (ih h.2)

theorem Spans.le_of_mem (h : Spans start stop acts) {x : Instant × Act} (hx : x ∈ acts) :
    start ≤ x.1 ∧ x.1 ≤ stop := by
  induction acts generalizing start with
  | nil => cases hx
  | cons y acts ih =>
    obtain ⟨hle, hrest⟩ := h
    rcases List.mem_cons.mp hx with rfl | hx
    · exact ⟨hle, hrest.le⟩
    · exact ⟨Nat.le_trans hle (ih hrest hx).1, (ih hrest hx).2⟩

/-- Acts that happen at once. -/
theorem spans_of_now (h : ∀ x ∈ acts, x.1 = start) : Spans start start acts := by
  induction acts with
  | nil => exact Nat.le_refl _
  | cons x acts ih =>
    obtain ⟨hx, hrest⟩ := List.forall_mem_cons.mp h
    exact ⟨Nat.le_of_eq hx.symm, hx ▸ ih hrest⟩

theorem Spans.of_le (h : Spans later stop acts) (hle : start ≤ later) : Spans start stop acts := by
  cases acts with
  | nil => exact Nat.le_trans hle h
  | cons x acts => exact ⟨Nat.le_trans hle h.1, h.2⟩

theorem Spans.append (h : Spans start stop acts) (h' : Spans stop later acts') :
    Spans start later (acts ++ acts') := by
  induction acts generalizing start with
  | nil => exact h'.of_le h
  | cons x acts ih => exact ⟨h.1, ih h.2⟩

end Spans

/-! ## Parts of a step -/

theorem step_request_of_none (h : (l.breaker.request now).2.2 = none) :
    l.step now .request =
      some (l.after ((l.breaker.request now).1, (l.breaker.request now).2.1)) := by
  simp only [step, h, Option.elim_none]

theorem step_request_of_some (h : (l.breaker.request now).2.2 = some p) :
    l.step now .request =
      some ((l.after ((l.breaker.request now).1, (l.breaker.request now).2.1)).enrol p
        (if (l.breaker.request now).2.1.isSome then .announcing else .running)) := by
  simp only [step, h, Option.elim_some]

/-- A request is turned away, or enters a call. -/
theorem step_request_cases (h : l.step now .request = some l') :
    ((l.breaker.request now).2.2 = none ∧
        l' = l.after ((l.breaker.request now).1, (l.breaker.request now).2.1)) ∨
      ∃ p, (l.breaker.request now).2.2 = some p ∧
        l' = (l.after ((l.breaker.request now).1, (l.breaker.request now).2.1)).enrol p
          (if (l.breaker.request now).2.1.isSome then .announcing else .running) := by
  cases hp : (l.breaker.request now).2.2 with
  | none => exact .inl ⟨rfl, Option.some.inj (h.symm.trans (step_request_of_none hp))⟩
  | some p => exact .inr ⟨p, rfl, Option.some.inj (h.symm.trans (step_request_of_some hp))⟩

theorem breaker_of_step_request (h : l.step now .request = some l') :
    l'.breaker = (l.breaker.request now).1 := by
  obtain ⟨-, rfl⟩ | ⟨p, -, rfl⟩ := step_request_cases h
  · rfl
  · rfl

theorem era_after (r : CircuitBreaker × Option Transition) :
    (l.after r).era = l.era + (if r.2.isSome then 1 else 0) := by
  obtain ⟨b, _ | t⟩ := r <;> simp [after, era]

@[simp] theorem after_none : l.after (b, none) = { l with breaker := b } := by
  simp [after]

@[simp] theorem after_some :
    l.after (b, some t) = { l with breaker := b, changes := l.changes ++ [t] } := rfl

theorem find?_eq_some_iff :
    l.find? id progress = some e ↔ l.calls[id]? = some e ∧ e.progress = progress := by
  simp [find?, Option.filter_eq_some_iff]

theorem mem_of_find? (h : l.find? id progress = some e) : e ∈ l.calls :=
  List.mem_of_getElem? (find?_eq_some_iff.mp h).1

/-- The entries after one of them was marked. -/
theorem mem_mark {x : Entry} (hx : x ∈ (l.mark id e progress).calls) :
    x = { e with progress := progress } ∨ x ∈ l.calls :=
  (List.mem_or_eq_of_mem_set hx).symm

/-! ## Counting probes -/

theorem countP_set_add {α : Type} {f : α → Bool} {xs : List α} {i : Nat} {x y : α}
    (h : xs[i]? = some x) :
    (xs.set i y).countP f + (if f x then 1 else 0) = xs.countP f + (if f y then 1 else 0) := by
  obtain ⟨hi, rfl⟩ := List.getElem?_eq_some_iff.mp h
  have hle : (if f xs[i] then 1 else 0) ≤ xs.countP f := List.boole_getElem_le_countP hi
  rw [List.countP_set hi]
  omega

@[simp] theorem probesThat_keep : { l with breaker := b }.probesThat q = l.probesThat q := rfl

/-- A call that is let in is a probe of the current period if the circuit is half-open. -/
theorem probesThat_enrol :
    (l.enrol p progress).probesThat q =
      l.probesThat q + (if l.breaker.state = .halfOpen ∧ q progress = true then 1 else 0) := by
  show (l.calls ++ [_]).countP (fun e : Entry => e.isProbeOf l.era && q e.progress) = _
  rw [List.countP_append, List.countP_singleton]
  simp [Entry.isProbeOf, probesThat]

theorem probesThat_mark (h : l.calls[id]? = some e) (q : Progress → Bool) (progress : Progress) :
    (l.mark id e progress).probesThat q + (if e.isProbeOf l.era && q e.progress then 1 else 0) =
      l.probesThat q + (if e.isProbeOf l.era && q progress then 1 else 0) :=
  countP_set_add h

theorem probesThat_mark_of_eq (h : l.calls[id]? = some e) (hq : q progress = q e.progress) :
    (l.mark id e progress).probesThat q = l.probesThat q := by
  have hcount := probesThat_mark h q progress
  rw [hq] at hcount
  omega

/-- A probe of the current period that is no longer counted. -/
theorem probesThat_mark_of_leave (h : l.calls[id]? = some e) (hq : q e.progress = true)
    (hq' : q progress = false) :
    (l.mark id e progress).probesThat q + (if e.isProbeOf l.era then 1 else 0) =
      l.probesThat q := by
  simpa [hq, hq'] using probesThat_mark h q progress

/-- A probe of the current period that is counted from now on. -/
theorem probesThat_mark_of_join (h : l.calls[id]? = some e) (hq : q e.progress = false)
    (hq' : q progress = true) :
    (l.mark id e progress).probesThat q =
      l.probesThat q + (if e.isProbeOf l.era then 1 else 0) := by
  simpa [hq, hq'] using probesThat_mark h q progress

/-! ## Eras and permits -/

/-- Entries and permits agree about eras, and the configuration is the one that the
breaker was made with. -/
structure Dated (c : Config) (l : Ledger) : Prop where
  config : l.breaker.config = c.clamp
  /-- The period of the breaker counts its changes of state. -/
  period : l.breaker.period = l.era
  era_le : ∀ e ∈ l.calls, e.era ≤ l.era
  /-- Calls of the current era were let in in the present state. -/
  state_eq : ∀ e ∈ l.calls, e.era = l.era → e.state = l.breaker.state
  /-- A permit names the era exactly if it was given to a probe. -/
  probe_eq : ∀ e ∈ l.calls, e.permit.probe = if e.state = .halfOpen then some e.era else none

namespace Dated

variable {c : Config}

theorem blank (c : Config) : Dated c (blank c) where
  config := rfl
  period := rfl
  era_le := by simp [Ledger.blank]
  state_eq := by simp [Ledger.blank]
  probe_eq := by simp [Ledger.blank]

/-- There is always room for a first probe. -/
theorem maxHalfOpenProbes_pos (h : Dated c l) :
    0 < l.breaker.config.maxHalfOpenProbes.toNat := by
  rw [h.config, c.clamp_maxHalfOpenProbes_toNat]
  omega

/-- A permit is one of the current period exactly if its call is a probe of it. -/
theorem probe_eq_some_period_iff (h : Dated c l) (he : e ∈ l.calls) :
    e.permit.probe = some l.breaker.period ↔ e.isProbeOf l.era = true := by
  rw [h.probe_eq e he, h.period]
  simp [Entry.isProbeOf]

/-- An operation on the breaker keeps the agreement: if it changes the state, all
entries are left in the past. -/
theorem after {target : State} {r : CircuitBreaker × Option Transition} (h : Dated c l)
    (hr : l.breaker.Moves target r) : Dated c (l.after r) := by
  cases hr with
  | keep config state period =>
    rw [after_none]
    exact
      { config := config.trans h.config
        period := period.trans h.period
        era_le := h.era_le
        state_eq := fun e he hera => (h.state_eq e he hera).trans state.symm
        probe_eq := h.probe_eq }
  | @enter b config _ _ period =>
    have hera : (l.after (b, some ⟨l.breaker.state, target⟩)).era = l.era + 1 := era_after _
    exact
      { config := config.trans h.config
        period := by rw [hera, ← h.period]; exact period
        era_le := fun e he => by rw [hera]; exact Nat.le_succ_of_le (h.era_le e he)
        -- No call is of the era that only begins.
        state_eq := fun e he heq => by
          have := h.era_le e he
          omega
        probe_eq := h.probe_eq }

theorem enrol (h : Dated c l)
    (hp : p.probe = if l.breaker.state = .halfOpen then some l.breaker.period else none) :
    Dated c (l.enrol p progress) where
  config := h.config
  period := h.period
  era_le x hx := by
    rcases List.mem_append.mp hx with hx | hx
    · exact h.era_le x hx
    · rw [List.mem_singleton.mp hx]; exact Nat.le_refl _
  state_eq x hx hera := by
    rcases List.mem_append.mp hx with hx | hx
    · exact h.state_eq x hx hera
    · rw [List.mem_singleton.mp hx]; rfl
  probe_eq x hx := by
    rcases List.mem_append.mp hx with hx | hx
    · exact h.probe_eq x hx
    · rw [List.mem_singleton.mp hx, hp, h.period]

theorem mark (h : Dated c l) (he : e ∈ l.calls) : Dated c (l.mark id e progress) where
  config := h.config
  period := h.period
  era_le x hx := by
    rcases mem_mark hx with rfl | hx
    · exact h.era_le e he
    · exact h.era_le x hx
  state_eq x hx hera := by
    rcases mem_mark hx with rfl | hx
    · exact h.state_eq e he hera
    · exact h.state_eq x hx hera
  probe_eq x hx := by
    rcases mem_mark hx with rfl | hx
    · exact h.probe_eq e he
    · exact h.probe_eq x hx

/-- An operation on the breaker keeps the count of probes, unless it changes the state
and leaves all probes in the past. -/
theorem probesThat_after (h : Dated c l) (r : CircuitBreaker × Option Transition) :
    (l.after r).probesThat q = if r.2.isSome then 0 else l.probesThat q := by
  obtain ⟨b, _ | t⟩ := r
  · simp
  · have hera : (l.after (b, some t)).era = l.era + 1 := era_after _
    simp only [probesThat, hera, Option.isSome_some, if_true, List.countP_eq_zero]
    intro e he hq
    have hle := h.era_le e he
    simp only [Entry.isProbeOf, Bool.and_eq_true, decide_eq_true_eq] at hq
    omega

/-- Only a half-open circuit has probes of the current period. -/
theorem probesThat_of_not_halfOpen (h : Dated c l) (hs : l.breaker.state ≠ .halfOpen) :
    l.probesThat q = 0 := by
  simp only [probesThat, List.countP_eq_zero]
  intro e he hq
  simp only [Entry.isProbeOf, Bool.and_eq_true, decide_eq_true_eq] at hq
  obtain ⟨⟨hstate, hera⟩, -⟩ := hq
  exact hs ((h.state_eq e he hera).symm.trans hstate)

/-- What a call is given that asks for admission agrees with the ledger. -/
theorem probe_request (h : Dated c l) (hp : (l.breaker.request now).2.2 = some p) :
    p.probe = if (l.breaker.request now).1.state = .halfOpen then
      some (l.breaker.request now).1.period else none := by
  obtain ⟨hs, hb⟩ | ⟨hs, -, hb⟩ | ⟨-, -, hb⟩ | ⟨-, hb⟩ :=
    request_cases h.maxHalfOpenProbes_pos now <;> rw [hb] at hp ⊢
  · obtain rfl := Option.some.inj hp
    simp [hs]
  · obtain rfl := Option.some.inj hp
    simp [hs]
  · obtain rfl := Option.some.inj hp
    simp
  · cases hp

/-- Every act keeps entries and permits in agreement. -/
theorem step (h : Dated c l) (hstep : l.step now a = some l') : Dated c l' := by
  cases a with
  | request =>
    -- The breaker changes first, and the call is entered under its new state.
    have hafter := h.after (moves_request h.maxHalfOpenProbes_pos now)
    obtain ⟨-, rfl⟩ | ⟨p, hp, rfl⟩ := step_request_cases hstep
    · exact hafter
    · exact hafter.enrol (h.probe_request hp)
  | announced id panics =>
    obtain ⟨e, he, rfl⟩ := Option.map_eq_some_iff.mp hstep
    exact h.mark (mem_of_find? he)
  | settle id failed =>
    obtain ⟨e, he, rfl⟩ := Option.map_eq_some_iff.mp hstep
    have hmark : Dated c (l.mark id e (.settled failed l.era)) := h.mark (mem_of_find? he)
    cases failed with
    | true => exact hmark.after (moves_settle_failure ..)
    | false => exact hmark.after (moves_settle_success ..)
  | drop id =>
    obtain ⟨e, he, rfl⟩ := Option.map_eq_some_iff.mp hstep
    exact (h.mark (mem_of_find? he)).after (moves_abandon _ _ .closed)
  | observe =>
    obtain rfl := Option.some.inj hstep
    exact h.after (moves_observe ..)
  | reset =>
    obtain rfl := Option.some.inj hstep
    exact h.after (moves_reset _)
  | forceOpen =>
    obtain rfl := Option.some.inj hstep
    exact h.after (moves_forceOpen ..)

/-- An act changes the state only to the one that it enters. -/
theorem state_step (h : Dated c l) (hstep : l.step now a = some l')
    (hne : l'.breaker.state ≠ l.breaker.state) : a.target? = some l'.breaker.state := by
  have hmoves : ∀ {target : State} {r : CircuitBreaker × Option Transition},
      l.breaker.Moves target r → r.1.state = l'.breaker.state →
        some target = some l'.breaker.state := by
    intro target r hr hstate
    obtain ⟨hsame, -⟩ | ⟨-, hnew, -⟩ := hr.state_eq
    · exact absurd (hstate.symm.trans hsame) hne
    · rw [← hstate, hnew]
  cases a with
  | request =>
    refine hmoves (moves_request h.maxHalfOpenProbes_pos now) ?_
    rw [breaker_of_step_request hstep]
  | announced id panics =>
    obtain ⟨e, -, rfl⟩ := Option.map_eq_some_iff.mp hstep
    exact absurd rfl hne
  | settle id failed =>
    obtain ⟨e, -, rfl⟩ := Option.map_eq_some_iff.mp hstep
    cases failed with
    | true => exact hmoves (moves_settle_failure _ e.permit now) rfl
    | false => exact hmoves (moves_settle_success _ e.permit now) rfl
  | drop id =>
    obtain ⟨e, -, rfl⟩ := Option.map_eq_some_iff.mp hstep
    exact absurd state_freeProbe hne
  | observe =>
    obtain rfl := Option.some.inj hstep
    exact hmoves (moves_observe _ now) rfl
  | reset =>
    obtain rfl := Option.some.inj hstep
    exact hmoves (moves_reset _) rfl
  | forceOpen =>
    obtain rfl := Option.some.inj hstep
    exact hmoves (moves_forceOpen _ now) rfl

theorem run {acts : List (Instant × Act)} (h : Dated c l) (hrun : l.run acts = some l') :
    Dated c l' :=
  run_induction (P := Dated c) (fun _ _ _ _ _ h hstep => h.step hstep) h hrun

end Dated

end Ledger

end Safeguard.CircuitBreaker
