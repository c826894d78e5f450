import Safeguard.Proofs.Executor.Polling
import Safeguard.Proofs.Traffic.Turns

/-!
# One layer alone

An executor with a single layer adds nothing to the component of that layer: whether callers execute
their operations by the one or by the other makes no difference to anybody. The component may be in
any state and may be shared with calls that go through it in other ways, with callers that use it
directly, and with executions that are dropped or given up at any time. An executor without layers
is the bare operation, with its error wrapped.

A schedule says what happens, one thing after the other. Any task may get a turn at any time, also
when nothing woke it, and any number of things may happen between two turns, but a turn is not
interrupted. What the scheduler does is such a schedule.

## Main definitions

* `Occurrence`: what can happen next.
* `Alone.viaExecutor`, `Alone.viaComponent`: what comes of it if operations are executed by an
  executor, and by the component itself.

## Main results

* `Executor.alone_eq_component`: both come to the same traffic in every schedule: results, records
  of invocations, predicates and hooks, components and their counters.
* `Alone.exists_settle`, `Alone.exists_advance`: the scheduler follows such schedules.
-/

namespace Safeguard

open Scenario (Target)
open Traffic (Effect Reaches proceed)

variable {α : Type} {tr tr' : Traffic α} {id i : Nat} {c : Call α} {m : Move α} {l : Option Layer}
  {target : Target} {own own' : List Nat}

/-- What can happen next: a caller executes an operation, a task gets its turn, or anything else
happens that is no part of a turn. -/
inductive Occurrence (α : Type) where
  | execute (token : TokenId) (script : List (Operation α))
  | turn (t : Task)
  | move (m : Move α) (whole : ∀ id, m ≠ .step id)

namespace Alone

/-- What comes of it if operations are executed by an executor. -/
def viaExecutor (target : Target) (tr : Traffic α) : Occurrence α → Traffic α
  | .execute token script =>
    tr.begin token (target.stages tr.layers.present) (.operation script)
  | .turn t => tr.turn t
  | .move m _ => (tr.move m).getD tr

/-- What comes of it if operations are executed by the component itself, or are bare if there is
none. The calls that execute them are listed; all others are as ever. -/
def viaComponent (l : Option Layer) : Traffic α × List Nat → Occurrence α → Traffic α × List Nat
  | (tr, own), .execute token script =>
    (tr.begin token (l.toList.map .layer) (.operation script), tr.calls.length :: own)
  | (tr, own), .turn (.call id) =>
    (if id ∈ own then poll l tr id else tr.turn (.call id), own)
  | (tr, own), .turn (.run id) => (tr.turn (.run id), own)
  | (tr, own), .move (.drop id) _ => (if id ∈ own then drop l tr id else tr.abort id, own)
  | (tr, own), .move m _ => ((tr.move m).getD tr, own)

/-! ## What happens to an execution -/

/-- Outside its own turns, an execution stays where it is until it is dropped. -/
theorem executes_of_effect {attempts : Nat} (h : Effect tr m tr') (hc : tr.calls[id]? = some c)
    (hexecutes : Executes l attempts c) (hstep : m ≠ .step id) :
    ∃ c', tr'.calls[id]? = some c' ∧ Executes l attempts c' := by
  have hlt := (List.getElem?_eq_some_iff.mp hc).1
  have hkept (h : tr'.calls[id]? = tr.calls[id]?) :
      ∃ c', tr'.calls[id]? = some c' ∧ Executes l attempts c' := ⟨c, h.trans hc, hexecutes⟩
  obtain ⟨script, hwork⟩ := hexecutes.work
  cases h with
  | stepped _ hstepped =>
    refine hkept ?_
    rw [hstepped.calls, List.getElem?_set_ne fun h => hstep (congrArg Move.step h)]
  | begun => exact hkept (List.getElem?_append_left hlt)
  | @dropped j d _ hd _ hdropped =>
    by_cases hj : j = id
    · subst hj
      obtain rfl := Option.some.inj (hc.symm.trans hd)
      refine ⟨{ c with frames := [], activity := .ended }, ?_, ⟨⟨script, hwork⟩, .ended l⟩⟩
      rw [hdropped.calls, List.getElem?_set_self hlt]
    · exact hkept (by rw [hdropped.calls, List.getElem?_set_ne hj])
  | @told j d hd hhold =>
    -- Only calls that hold on to something can be told to let go.
    refine hkept (List.getElem?_set_ne ?_)
    rintro rfl
    obtain rfl := Option.some.inj (hc.symm.trans hd)
    cases hwork.symm.trans hhold
  | aside _ haside => exact hkept (by rw [haside.calls])
  | _ => exact hkept rfl

theorem call_proceed (fuel : Nat) (tr : Traffic α) (hi : i ≠ id) :
    (proceed fuel tr i).calls[id]? = tr.calls[id]? := by
  induction fuel generalizing tr with
  | zero => rfl
  | succ fuel ih =>
    unfold proceed
    split
    · rfl
    · rename_i tr' hstep
      have hmove : tr.move (.step i) = some tr' := hstep
      rw [ih]
      cases Traffic.effect_of_move hmove with
      | stepped _ hstepped => rw [hstepped.calls, List.getElem?_set_ne hi]
      | aside kind => cases kind

/-- The traffic has only the given component, or none, to offer to executions, and the listed
calls are executions. -/
structure Hosts (l : Option Layer) (target : Target) (own : List Nat) (tr : Traffic α) : Prop where
  stages : target.stages tr.layers.present = l.toList.map .layer
  present : ∀ k ∈ l, tr.layers.has k = true
  calls : ∀ id ∈ own, ∃ c, tr.calls[id]? = some c ∧ Executes l tr.attempts c

theorem Hosts.of_reaches (h : Hosts l target own tr) (hreaches : Reaches tr tr')
    (hcalls : ∀ id ∈ own', ∃ c, tr'.calls[id]? = some c ∧ Executes l tr.attempts c) :
    Hosts l target own' tr' := by
  obtain ⟨log, hcourse⟩ := hreaches
  have hhas : tr'.layers.has = tr.layers.has :=
    funext fun k => hcourse.keeps (f := fun tr => tr.layers.has k) fun h => h.has_eq k
  refine ⟨?_, fun k hk => hhas ▸ h.present k hk, ?_⟩
  · rw [Resilience.Layers.present, hhas]
    exact h.stages
  · rw [hcourse.attempts_eq]
    exact hcalls

theorem Hosts.move (h : Hosts l target own tr) (hm : tr.move m = some tr')
    (hwhole : ∀ id, m ≠ .step id) : Hosts l target own tr' := by
  refine h.of_reaches (.of_move m hm) fun id hid => ?_
  obtain ⟨c, hc, hexecutes⟩ := h.calls id hid
  exact executes_of_effect (Traffic.effect_of_move hm) hc hexecutes (hwhole id)

theorem Hosts.execute (h : Hosts l target own tr) (token : TokenId) (script : List (Operation α)) :
    Hosts l target (tr.calls.length :: own)
      (tr.begin token (l.toList.map .layer) (.operation script)) := by
  have hm : tr.move (.begin token (l.toList.map .layer) (.operation script)) = some _ := rfl
  have hothers := h.move hm nofun
  refine ⟨hothers.stages, hothers.present, fun id hid => ?_⟩
  obtain rfl | hid := List.mem_cons.mp hid
  · let started : Call α :=
      ⟨token, .operation script, 0, [], .entering (l.toList.map .layer), 0⟩
    obtain ⟨ready, hwake⟩ := Traffic.exists_wake { tr with calls := tr.calls ++ [started] }
      (.call tr.calls.length)
    refine ⟨started, ?_, ⟨⟨script, rfl⟩, .fresh l⟩⟩
    rw [Traffic.begin, hwake]
    exact List.getElem?_concat_length
  · exact hothers.calls id hid

theorem Hosts.turn (h : Hosts l target own tr) (i : Nat)
    (hown : i ∈ own → ∃ c, (tr.turn (.call i)).calls[i]? = some c ∧ Executes l tr.attempts c) :
    Hosts l target own (tr.turn (.call i)) := by
  refine h.of_reaches (Traffic.reaches_turn tr (.call i)) fun id hid => ?_
  by_cases hi : i = id
  · subst hi
    exact hown hid
  · obtain ⟨c, hc, hexecutes⟩ := h.calls id hid
    exact ⟨c, (call_proceed _ tr hi).trans hc, hexecutes⟩

/-- **A turn is a poll**, among all that goes on. -/
theorem Hosts.turn_eq_poll (h : Hosts l target own tr) (hid : id ∈ own) :
    tr.turn (.call id) = poll l tr id ∧ Hosts l target own (tr.turn (.call id)) := by
  obtain ⟨c, hc, hexecutes⟩ := h.calls id hid
  have hplays := plays_poll hc hexecutes h.present
  have hturn : tr.turn (.call id) = poll l tr id := hplays.proceeds _ (Nat.le_refl _)
  exact ⟨hturn, h.turn id fun _ => hturn ▸ hplays.rests⟩

theorem viaComponent_move (l : Option Layer) (tr : Traffic α) (own : List Nat)
    (whole : ∀ id, m ≠ .step id) (hdrop : ∀ id, m ≠ .drop id) :
    viaComponent l (tr, own) (.move m whole) = ((tr.move m).getD tr, own) := by
  cases m with
  | drop id => exact absurd rfl (hdrop id)
  | _ => rfl

/-- Whatever happens next, it comes to the same. -/
theorem Hosts.step (h : Hosts l target own tr) (o : Occurrence α) :
    (viaComponent l (tr, own) o).1 = viaExecutor target tr o ∧
      Hosts l target (viaComponent l (tr, own) o).2 (viaExecutor target tr o) := by
  cases o with
  | execute token script =>
    simp only [viaExecutor, viaComponent, h.stages]
    exact ⟨trivial, h.execute token script⟩
  | turn t =>
    cases t with
    | run id =>
      have hm : tr.move (.look id) = some (tr.turn (.run id)) := rfl
      exact ⟨rfl, h.move hm nofun⟩
    | call id =>
      simp only [viaExecutor, viaComponent]
      by_cases hid : id ∈ own
      · rw [if_pos hid]
        obtain ⟨hturn, hhosts⟩ := h.turn_eq_poll hid
        exact ⟨hturn.symm, hhosts⟩
      · rw [if_neg hid]
        exact ⟨rfl, h.turn id fun h => absurd h hid⟩
  | move m whole =>
    have hhosts : Hosts l target own ((tr.move m).getD tr) := by
      cases hm : tr.move m with
      | none => exact h
      | some tr' => exact h.move hm whole
    by_cases hdrop : ∃ id, m = .drop id
    · obtain ⟨id, rfl⟩ := hdrop
      refine ⟨?_, hhosts⟩
      simp only [viaComponent]
      split
      · rename_i hid
        obtain ⟨c, hc, hexecutes⟩ := h.calls id hid
        exact (abort_eq_drop hc hexecutes).symm
      · rfl
    · rw [viaComponent_move l tr own whole (not_exists.mp hdrop)]
      exact ⟨rfl, hhosts⟩

end Alone

/-- **One layer alone.** An executor whose layers are exactly one comes, in every schedule and from
every state of the component, to the traffic that executions of the component itself come to; and an
executor without layers, to the traffic of the bare operations. -/
theorem Executor.alone_eq_component (target : Target) (l : Option Layer) (tr : Traffic α)
    (schedule : List (Occurrence α))
    (hstages : target.stages tr.layers.present = l.toList.map .layer)
    (hpresent : ∀ k ∈ l, tr.layers.has k = true) :
    schedule.foldl (Alone.viaExecutor target) tr =
      (schedule.foldl (Alone.viaComponent l) (tr, [])).1 := by
  have hgeneral (own : List Nat) (h : Alone.Hosts l target own tr) :
      schedule.foldl (Alone.viaExecutor target) tr =
        (schedule.foldl (Alone.viaComponent l) (tr, own)).1 := by
    clear hstages hpresent
    induction schedule generalizing tr own with
    | nil => rfl
    | cons o schedule ih =>
      obtain ⟨hnext, hhosts⟩ := h.step o
      rw [List.foldl_cons, List.foldl_cons, ih _ _ hhosts, ← hnext]
  exact hgeneral [] ⟨hstages, hpresent, nofun⟩

namespace Alone

/-- A bulkhead with one slot, and a token. -/
def contended : Traffic Nat :=
  { Traffic.start ⟨none, some (.new ⟨1, .ofMillis 5⟩), none, none, none⟩ .none with
    tokens := TokenForest.empty.root.1 }

/-- A call fails after 3 ms. Another one waits for its slot meanwhile, and returns a value. -/
def queueing : List (Occurrence Nat) :=
  [.execute 0 [⟨some 3, .failure Operation.stoppedFailure, false⟩],
    .execute 0 [⟨some 0, .value (some 7), true⟩], .turn (.call 0), .turn (.call 1),
    .move (.elapse 3) nofun, .turn (.call 0), .turn (.call 1)]

end Alone

/-- The executor and the bulkhead make the same of a wait for a slot: both invoke the second
operation when the first one has failed. -/
theorem Executor.alone_eq_component_queueing :
    Target.all.stages Alone.contended.layers.present = [.layer .bulkhead] ∧
      (∀ k ∈ some Layer.bulkhead, Alone.contended.layers.has k = true) ∧
      Alone.queueing.foldl (Alone.viaExecutor .all) Alone.contended =
        (Alone.queueing.foldl (Alone.viaComponent (some .bulkhead)) (Alone.contended, [])).1 ∧
      (Alone.queueing.foldl (Alone.viaExecutor .all) Alone.contended).trace.events =
        [⟨0, 0, .invoked 1 false⟩,
          ⟨3, 0, .done (.error (.operation Operation.stoppedFailure))⟩,
          ⟨3, 1, .invoked 1 false⟩, ⟨3, 1, .done (.value (some 7))⟩] := by
  have hpresent : ∀ k ∈ some Layer.bulkhead, Alone.contended.layers.has k = true := by decide
  exact ⟨rfl, hpresent,
    Executor.alone_eq_component .all (some .bulkhead) Alone.contended Alone.queueing rfl hpresent,
    rfl⟩

/-! ## The scheduler -/

namespace Alone

theorem exists_turns (target : Target) (fuel : Nat) (tr : Traffic α) :
    ∃ schedule : List (Occurrence α),
      schedule.foldl (viaExecutor target) tr = Traffic.turns fuel tr := by
  induction fuel generalizing tr with
  | zero => exact ⟨[], rfl⟩
  | succ fuel ih =>
    unfold Traffic.turns
    split
    · exact ⟨[], rfl⟩
    · rename_i t rest _
      obtain ⟨schedule, hschedule⟩ := ih ({ tr with ready := rest }.turn t)
      exact ⟨.move (.arrange rest) nofun :: .turn t :: schedule, hschedule⟩

/-- The scheduler gives turns to the tasks that are due. -/
theorem exists_settle (target : Target) (tr : Traffic α) :
    ∃ schedule : List (Occurrence α), schedule.foldl (viaExecutor target) tr = tr.settle :=
  exists_turns target _ tr

theorem exists_clock (target : Target) {clock : Nat} (h : tr.clock ≤ clock) (ready : List Task) :
    ∃ schedule : List (Occurrence α), schedule.foldl (viaExecutor target) tr =
      { tr with clock := clock, ready := ready } := by
  refine ⟨[.move (.elapse (clock - tr.clock)) nofun, .move (.arrange ready) nofun], ?_⟩
  simp only [List.foldl_cons, List.foldl_nil, viaExecutor, Traffic.move, Option.getD_some,
    Nat.add_sub_cancel' h]

theorem exists_advanceTo (target : Target) (fuel : Nat) (tr : Traffic α) (clock : Nat) :
    ∃ schedule : List (Occurrence α),
      schedule.foldl (viaExecutor target) tr = Traffic.advanceTo fuel tr clock := by
  have hlast (tr : Traffic α) : ∃ schedule : List (Occurrence α),
      schedule.foldl (viaExecutor target) tr = { tr with clock := max tr.clock clock } :=
    exists_clock target (Nat.le_max_left ..) tr.ready
  induction fuel generalizing tr with
  | zero => exact hlast tr
  | succ fuel ih =>
    unfold Traffic.advanceTo
    split
    · exact hlast tr
    · rename_i due _
      split
      -- The clock strikes, what is due gets its turns, and the rest of the time passes.
      · obtain ⟨ready, hstrike⟩ := tr.exists_strike (max tr.clock due)
        obtain ⟨striking, hstriking⟩ := exists_clock target (Nat.le_max_left tr.clock due) ready
        obtain ⟨settling, hsettling⟩ := exists_settle target (tr.strike (max tr.clock due))
        obtain ⟨rest, hrest⟩ := ih (tr.strike (max tr.clock due)).settle
        refine ⟨striking ++ settling ++ rest, ?_⟩
        rw [List.foldl_append, List.foldl_append, hstriking, ← hstrike, hsettling, hrest]
      · exact hlast tr

/-- It lets time pass from one reading of the clock to the next at which something is due. -/
theorem exists_advance (target : Target) (tr : Traffic α) (millis : Nat) :
    ∃ schedule : List (Occurrence α), schedule.foldl (viaExecutor target) tr = tr.advance millis :=
  exists_advanceTo target _ tr _

end Alone

end Safeguard
