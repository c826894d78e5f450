import Mathlib.Data.List.Perm.Basic
import Safeguard.Proofs.CircuitBreaker.Ledger
import Safeguard.Proofs.Traffic.Announcing
import Safeguard.Traffic.Schedule

/-!
# Permits in running traffic

A ledger says what may happen to a breaker, in any order and at any time. Running
traffic is one way in which it does happen. This file says when a ledger describes the
breaker of running traffic: the breaker is the same, and the permits that calls hold in
their frames are those of the calls that the ledger takes for running. It also says what
traffic has to do with the changes of state that the ledger takes down: the hook is told of
them.

Most of what traffic does has nothing to do with the breaker. Such a part of a step is
said to be *still*; and a part that leaves the permits of every call with it is *quiet*.

## Main definitions

* `Ledger.permits`, `Traffic.permits`: permits that are held.
* `Ledger.Follows`: a ledger describes the breaker of running traffic.
* `Traffic.Leads`: what happens between two states of traffic is a run of every ledger
  that describes the first.
* `Traffic.Reports`: the hook was told of what the ledger took down.
* `Traffic.Recounts`: a run of every ledger, and a report of it.
* `Traffic.Still`, `Traffic.Quiet`: parts of a step without a run.
-/

namespace Safeguard

open CircuitBreaker (Permit Transition Ledger)
open CircuitBreaker.Ledger (Act Entry Progress)

/-- The permits that frames hold. -/
def Frame.permits : List Frame → List Permit
  | [] => []
  | .permit p :: outside => p :: permits outside
  | _ :: outside => permits outside

/-- The permits that a call holds, innermost first. -/
def Call.permits {α : Type} (c : Call α) : List Permit := Frame.permits c.frames

/-- The permits that are held by calls. -/
def Traffic.permits {α : Type} (tr : Traffic α) : List Permit := tr.calls.flatMap Call.permits

/-- The permit of a call that runs. -/
def CircuitBreaker.Ledger.Entry.permit? (e : Entry) : Option Permit :=
  if e.progress = .running then some e.permit else none

/-- The permits of calls that run. -/
def CircuitBreaker.Ledger.permits (l : Ledger) : List Permit := l.calls.filterMap Entry.permit?

/-! ## Permits of a ledger -/

namespace CircuitBreaker.Ledger

variable {l : Ledger} {e : Entry} {id : Nat} {p : Permit} {progress : Progress}

theorem permits_enrol (progress : Progress) :
    (l.enrol p progress).permits = l.permits ++ if progress = .running then [p] else [] := by
  show (l.calls ++ [_]).filterMap Entry.permit? = _
  rw [List.filterMap_append]
  by_cases h : progress = .running <;> simp [Entry.permit?, permits, h]

theorem find?_enrol (progress : Progress) :
    (l.enrol p progress).find? l.calls.length progress =
      some ⟨p, l.breaker.state, l.era, progress⟩ :=
  find?_eq_some_iff.mpr ⟨List.getElem?_concat_length, rfl⟩

/-- One entry of a ledger after the other entries. -/
theorem permits_perm (h : l.calls[id]? = some e) :
    l.permits.Perm (e.permit?.toList ++ (l.calls.eraseIdx id).filterMap Entry.permit?) := by
  obtain ⟨hlt, rfl⟩ := List.getElem?_eq_some_iff.mp h
  have hperm := (List.getElem_cons_eraseIdx_perm hlt).symm.filterMap Entry.permit?
  rw [List.filterMap_cons] at hperm
  cases hp : l.calls[id].permit? <;> simpa [hp, permits] using hperm

theorem permits_mark_perm (h : l.calls[id]? = some e) (progress : Progress) :
    (l.mark id e progress).permits.Perm
      ((if progress = .running then [e.permit] else []) ++
        (l.calls.eraseIdx id).filterMap Entry.permit?) := by
  have hlt := (List.getElem?_eq_some_iff.mp h).1
  have hperm := (List.set_perm_cons_eraseIdx hlt { e with progress := progress }).filterMap
    Entry.permit?
  rw [List.filterMap_cons] at hperm
  by_cases hp : progress = .running <;> simpa [hp, Entry.permit?, permits, mark] using hperm

/-- A call that ends gives its permit back. -/
theorem permits_mark_of_running (h : l.find? id .running = some e) (hne : progress ≠ .running) :
    l.permits.Perm (e.permit :: (l.mark id e progress).permits) := by
  obtain ⟨hget, hprogress⟩ := find?_eq_some_iff.mp h
  have hperm := permits_perm hget
  have hmark := permits_mark_perm hget progress
  simp only [Entry.permit?, hprogress, if_true, Option.toList_some] at hperm
  rw [if_neg hne] at hmark
  exact hperm.trans (hmark.symm.cons _)

/-- A call of which the hook was told gets its permit, or nothing. -/
theorem permits_mark_of_announcing (h : l.find? id .announcing = some e) (progress : Progress) :
    (l.mark id e progress).permits.Perm
      ((if progress = .running then [e.permit] else []) ++ l.permits) := by
  obtain ⟨hget, hprogress⟩ := find?_eq_some_iff.mp h
  have hperm := permits_perm hget
  have hmark := permits_mark_perm hget progress
  have hne : e.progress ≠ .running := by rw [hprogress]; decide
  simp only [Entry.permit?, if_neg hne, Option.toList_none, List.nil_append] at hperm
  exact hmark.trans (hperm.symm.append_left _)

/-- Whoever holds a permit runs. -/
theorem find?_of_mem_permits (h : p ∈ l.permits) :
    ∃ id e, l.find? id .running = some e ∧ e.permit = p := by
  obtain ⟨e, he, hp⟩ := List.mem_filterMap.mp h
  obtain ⟨id, hid⟩ := List.mem_iff_getElem?.mp he
  by_cases hrun : e.progress = .running
  · rw [Entry.permit?, if_pos hrun] at hp
    exact ⟨id, e, find?_eq_some_iff.mpr ⟨hid, hrun⟩, Option.some.inj hp⟩
  · rw [Entry.permit?, if_neg hrun] at hp
    cases hp

variable {rest : List Permit}

/-- The holder of a permit can hand it back. -/
theorem exists_drop (h : l.permits.Perm (p :: rest)) (now : Instant) :
    ∃ id l', l.step now (.drop id) = some l' ∧ l'.breaker = l.breaker.abandon p ∧
      l'.changes = l.changes ++ [] ∧ l'.permits.Perm rest := by
  obtain ⟨id, e, he, rfl⟩ := find?_of_mem_permits (h.mem_iff.mpr (.head _))
  refine ⟨id, (l.mark id e .dropped).after (l.breaker.abandon e.permit, none), ?_, rfl, rfl,
    ?_⟩
  · simp only [step, he, Option.map_some]
  · have hmark := permits_mark_of_running he (show Progress.dropped ≠ .running by decide)
    exact (hmark.symm.trans h).cons_inv

/-- The holder of a permit can end with a result. -/
theorem exists_settle (h : l.permits.Perm (p :: rest)) (failed : Bool) (now : Instant) :
    ∃ id l', l.step now (.settle id failed) = some l' ∧
      l'.breaker = (l.breaker.settle p failed now).1 ∧
      l'.changes = l.changes ++ (l.breaker.settle p failed now).2.toList ∧
      l'.permits.Perm rest := by
  obtain ⟨id, e, he, rfl⟩ := find?_of_mem_permits (h.mem_iff.mpr (.head _))
  refine ⟨id, (l.mark id e (.settled failed l.era)).after (l.breaker.settle e.permit failed now),
    ?_, rfl, rfl, ?_⟩
  · simp only [step, he, Option.map_some]
  · have hmark := permits_mark_of_running he (show Progress.settled failed l.era ≠ .running by simp)
    exact (hmark.symm.trans h).cons_inv

end CircuitBreaker.Ledger

/-! ## Ledgers of running traffic -/

namespace Traffic

variable {α : Type} {tr tr' tr'' : Traffic α} {l : Ledger} {id : Nat} {c c' : Call α} {p : Permit}

/-- A ledger describes the breaker of running traffic: it is the same breaker, and who
holds a permit runs. -/
structure DescribedBy (tr : Traffic α) (l : Ledger) : Prop where
  breaker : tr.layers.circuitBreaker = some l.breaker
  permits : tr.permits.Perm l.permits

/-- Whatever ledger describes the first traffic, a run of it describes the second, with
acts at the time at which traffic takes them. -/
def Leads (tr tr' : Traffic α) : Prop :=
  ∀ l, tr.DescribedBy l → ∃ acts l', l.run acts = some l' ∧ tr'.DescribedBy l' ∧
    Ledger.Spans tr.now tr'.now acts

/-- The changes of state that the hook was told of. -/
def told (tr : Traffic α) : List Transition := tr.trace.transitions.map (·.transition)

/-- A hook that never panics was told, once, of each change of state that the ledger took down
in between, and of the pending ones that it had taken down before. -/
structure Reports (tr tr' : Traffic α) (pending : List Transition) (l l' : Ledger) : Prop where
  attached : tr'.attached = tr.attached
  told : ∃ new changes, tr'.told = tr.told ++ new ∧ l'.changes = l.changes ++ changes ∧
    (tr.attached.HookListens → new.Perm (pending ++ changes))

/-- Whatever ledger describes the first traffic, a run of it describes the second, and the
hook was told of the changes of this run. -/
def Recounts (tr tr' : Traffic α) : Prop :=
  ∀ l, tr.DescribedBy l → ∃ acts l', l.run acts = some l' ∧ tr'.DescribedBy l' ∧
    Ledger.Spans tr.now tr'.now acts ∧ Reports tr tr' [] l l'

theorem Recounts.leads (h : Recounts tr tr') : Leads tr tr' := by
  intro l hl
  obtain ⟨acts, l', hrun, hl', hspan, -⟩ := h l hl
  exact ⟨acts, l', hrun, hl', hspan⟩

theorem reports_same (hattached : tr'.attached = tr.attached)
    (htransitions : tr'.trace.transitions = tr.trace.transitions) : Reports tr tr' [] l l where
  attached := hattached
  told := ⟨[], [], by simp [Traffic.told, htransitions], by simp, fun _ => .refl _⟩

/-- What was told before something else was told. -/
theorem Reports.trans {pending : List Transition} {m l' : Ledger}
    (h : Reports tr tr' pending l m) (h' : Reports tr' tr'' [] m l') :
    Reports tr tr'' pending l l' where
  attached := h'.attached.trans h.attached
  told := by
    obtain ⟨new, changes, htold, hchanges, hperm⟩ := h.told
    obtain ⟨new', changes', htold', hchanges', hperm'⟩ := h'.told
    refine ⟨new ++ new', changes ++ changes', ?_, ?_, fun hlistens => ?_⟩
    · rw [htold', htold, List.append_assoc]
    · rw [hchanges', hchanges, List.append_assoc]
    · rw [h.attached] at hperm'
      rw [← List.append_assoc]
      exact (hperm hlistens).append (hperm' hlistens)

theorem Leads.trans (h : Leads tr tr') (h' : Leads tr' tr'') : Leads tr tr'' := by
  intro l hl
  obtain ⟨acts, m, hrun, hm, hspan⟩ := h l hl
  obtain ⟨acts', l', hrun', hl', hspan'⟩ := h' m hm
  refine ⟨acts ++ acts', l', ?_, hl', hspan.append hspan'⟩
  rw [Ledger.run_append, hrun]
  exact hrun'

theorem Recounts.trans (h : Recounts tr tr') (h' : Recounts tr' tr'') : Recounts tr tr'' := by
  intro l hl
  obtain ⟨acts, m, hrun, hm, hspan, hreports⟩ := h l hl
  obtain ⟨acts', l', hrun', hl', hspan', hreports'⟩ := h' m hm
  refine ⟨acts ++ acts', l', ?_, hl', hspan.append hspan', hreports.trans hreports'⟩
  rw [Ledger.run_append, hrun]
  exact hrun'

/-- Nothing that a ledger looks at has changed, nor has any call, and no hook was told of
anything. -/
structure Still (tr tr' : Traffic α) : Prop where
  clock : tr'.clock = tr.clock
  breaker : tr'.layers.circuitBreaker = tr.layers.circuitBreaker
  calls : tr'.calls = tr.calls
  attached : tr'.attached = tr.attached
  transitions : tr'.trace.transitions = tr.trace.transitions

/-- Nothing that a ledger looks at has changed, and no hook was told of anything. -/
structure Quiet (tr tr' : Traffic α) : Prop where
  clock : tr'.clock = tr.clock
  breaker : tr'.layers.circuitBreaker = tr.layers.circuitBreaker
  permits : tr'.permits.Perm tr.permits
  attached : tr'.attached = tr.attached
  transitions : tr'.trace.transitions = tr.trace.transitions

theorem Still.refl (tr : Traffic α) : Still tr tr := ⟨rfl, rfl, rfl, rfl, rfl⟩

theorem Still.trans (h : Still tr tr') (h' : Still tr' tr'') : Still tr tr'' :=
  ⟨h'.clock.trans h.clock, h'.breaker.trans h.breaker, h'.calls.trans h.calls,
    h'.attached.trans h.attached, h'.transitions.trans h.transitions⟩

theorem Still.now (h : Still tr tr') : tr'.now = tr.now := by
  simp only [Traffic.now, h.clock]

theorem Still.quiet (h : Still tr tr') : Quiet tr tr' where
  clock := h.clock
  breaker := h.breaker
  permits := by rw [Traffic.permits, h.calls]; exact .refl _
  attached := h.attached
  transitions := h.transitions

theorem Quiet.trans (h : Quiet tr tr') (h' : Quiet tr' tr'') : Quiet tr tr'' :=
  ⟨h'.clock.trans h.clock, h'.breaker.trans h.breaker, h'.permits.trans h.permits,
    h'.attached.trans h.attached, h'.transitions.trans h.transitions⟩

theorem Quiet.now (h : Quiet tr tr') : tr'.now = tr.now := by
  simp only [Traffic.now, h.clock]

theorem Quiet.recounts (h : Quiet tr tr') : Recounts tr tr' := by
  intro l hl
  refine ⟨[], l, rfl, ⟨h.breaker.trans hl.breaker, h.permits.trans hl.permits⟩, ?_,
    reports_same h.attached h.transitions⟩
  simp only [Traffic.now, h.clock]
  exact Nat.le_refl _

/-! ### Calls -/

/-- The permits of one call after those of the others. -/
theorem permits_perm (hc : tr.calls[id]? = some c) :
    tr.permits.Perm (c.permits ++ (tr.calls.eraseIdx id).flatMap Call.permits) := by
  obtain ⟨hlt, rfl⟩ := List.getElem?_eq_some_iff.mp hc
  exact (List.getElem_cons_eraseIdx_perm hlt).symm.flatMap_right Call.permits

theorem permits_setCall_perm (hc : tr.calls[id]? = some c) (c' : Call α) :
    (tr.setCall id c').permits.Perm
      (c'.permits ++ (tr.calls.eraseIdx id).flatMap Call.permits) :=
  (List.set_perm_cons_eraseIdx (List.getElem?_eq_some_iff.mp hc).1 c').flatMap_right Call.permits

/-- A call that is given a permit. -/
theorem permits_setCall_of_gain (hc : tr.calls[id]? = some c) (hp : c'.permits = p :: c.permits) :
    (tr.setCall id c').permits.Perm (p :: tr.permits) := by
  have hset := permits_setCall_perm hc c'
  rw [hp] at hset
  exact hset.trans ((permits_perm hc).symm.cons p)

/-- A call that goes on without the innermost of its permits. -/
theorem permits_setCall_of_loss (hc : tr.calls[id]? = some c) (hp : c.permits = p :: c'.permits) :
    tr.permits.Perm (p :: (tr.setCall id c').permits) := by
  have hperm := permits_perm hc
  rw [hp] at hperm
  exact hperm.trans ((permits_setCall_perm hc c').symm.cons p)

/-- What a call does besides makes no difference to what it holds. -/
theorem permits_become (hcalls : tr'.calls = tr.calls) (hc : tr.calls[id]? = some c)
    (activity : Activity α) :
    (tr'.become id c' activity).permits.Perm (tr.setCall id c').permits := by
  have hbecome := permits_setCall_perm (hcalls ▸ hc) { c' with activity := activity }
  rw [hcalls] at hbecome
  exact hbecome.trans (permits_setCall_perm hc c').symm

/-- A call that goes on with the same permits. -/
theorem Still.setCall (h : Still tr tr') (hc : tr.calls[id]? = some c)
    (hp : c'.permits = c.permits) : Quiet tr (tr'.setCall id c') where
  clock := h.clock
  breaker := h.breaker
  permits := by
    have hset := permits_setCall_perm (h.calls ▸ hc) c'
    rw [hp, h.calls] at hset
    exact hset.trans (permits_perm hc).symm
  attached := h.attached
  transitions := h.transitions

theorem Still.become (h : Still tr tr') (hc : tr.calls[id]? = some c)
    (hp : c'.permits = c.permits) (activity : Activity α) :
    Quiet tr (tr'.become id c' activity) :=
  h.setCall hc hp

/-- A call that leaves a layer without a permit. -/
theorem Still.leave (h : Still tr tr') (hc : tr.calls[id]? = some c) {outside : List Frame}
    (hp : Frame.permits outside = c.permits) (activity : Activity α) :
    Quiet tr (tr'.become id { c with frames := outside } activity) := by
  refine h.setCall hc ?_
  exact hp

theorem Still.refuse (h : Still tr tr') (hc : tr.calls[id]? = some c)
    (hp : c'.permits = c.permits) (e : LayerError) : Quiet tr (tr'.refuse id c' e) :=
  h.setCall hc hp

theorem Still.sleep (h : Still tr tr') (hc : tr.calls[id]? = some c)
    (hp : c'.permits = c.permits) (activity : Activity α) :
    Quiet tr (tr'.sleep id c' activity) := by
  have hstamped : Still tr { tr' with stamps := tr'.stamps + 1 } :=
    ⟨h.clock, h.breaker, h.calls, h.attached, h.transitions⟩
  refine hstamped.setCall hc ?_
  exact hp

/-! ### Still parts -/

theorem still_note (tr : Traffic α) (n : Notice) : Still tr (tr.note n) := ⟨rfl, rfl, rfl, rfl, rfl⟩

theorem still_record (tr : Traffic α) (id : Nat) (event : Event α) :
    Still tr (tr.record id event) := ⟨rfl, rfl, rfl, rfl, rfl⟩

theorem still_recordRun (tr : Traffic α) (id number : Nat) (ending : RunEnd) :
    Still tr (tr.recordRun id number ending) := ⟨rfl, rfl, rfl, rfl, rfl⟩

theorem still_setLimiter (tr : Traffic α) (l : RateLimiter Float) :
    Still tr (tr.setLimiter l) := ⟨rfl, rfl, rfl, rfl, rfl⟩

theorem still_setBulkhead (tr : Traffic α) (b : Bulkhead Nat) :
    Still tr (tr.setBulkhead b) := ⟨rfl, rfl, rfl, rfl, rfl⟩

theorem still_dropToken (tr : Traffic α) (token : TokenId) : Still tr (tr.dropToken token) :=
  ⟨rfl, rfl, rfl, rfl, rfl⟩

theorem still_wake (tr : Traffic α) (t : Task) : Still tr (tr.wake t) := by
  unfold wake
  split
  · exact .refl tr
  · exact ⟨rfl, rfl, rfl, rfl, rfl⟩

theorem still_wakeCall (tr : Traffic α) (next : Option Nat) : Still tr (tr.wakeCall next) := by
  cases next with
  | none => exact .refl tr
  | some id => exact still_wake tr _

theorem Still.foldl {β : Type} {f : Traffic α → β → Traffic α} (hf : ∀ tr x, Still tr (f tr x))
    (xs : List β) (tr : Traffic α) : Still tr (xs.foldl f tr) := by
  induction xs generalizing tr with
  | nil => exact .refl tr
  | cons x xs ih => exact (hf tr x).trans (ih (f tr x))

theorem still_cancelToken (tr : Traffic α) (token : TokenId) : Still tr (tr.cancelToken token) := by
  have hwatchers : ∀ (tr : Traffic α) token, Still tr (tr.wakeWatchers token) :=
    fun tr token => Still.foldl still_wake _ tr
  have htokens : Still tr { tr with tokens := (tr.tokens.cancel token).1 } :=
    ⟨rfl, rfl, rfl, rfl, rfl⟩
  exact htokens.trans (Still.foldl hwatchers (tr.tokens.cancel token).2 _)

theorem still_endRace (tr : Traffic α) (deadline : TokenId) : Still tr (tr.endRace deadline) :=
  (still_cancelToken tr deadline).trans (still_dropToken _ deadline)

theorem still_releaseSlot (tr : Traffic α) : Still tr tr.releaseSlot := by
  unfold releaseSlot
  split
  · exact .refl tr
  · exact (still_setBulkhead tr _).trans (still_wakeCall _ _)

theorem still_leaveQueue (tr : Traffic α) (id : Nat) : Still tr (tr.leaveQueue id) := by
  unfold leaveQueue
  split
  · exact .refl tr
  · exact (still_setBulkhead tr _).trans (still_wakeCall _ _)

theorem still_abandonActivity (tr : Traffic α) (id : Nat) (activity : Activity α) :
    Still tr (tr.abandonActivity id activity) := by
  unfold abandonActivity
  split
  · exact still_leaveQueue tr id
  · exact still_recordRun ..
  · exact still_endRace ..
  · exact .refl tr

end Traffic

end Safeguard
