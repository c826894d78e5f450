import Mathlib.Logic.Function.Iterate
import Safeguard.Proofs.Traffic.Permits
import Safeguard.Proofs.Traffic.Rules

/-!
# Moves of running traffic

Traffic goes on by moves: a call takes a step, a run is looked at, a caller starts, drops or
cancels something, a component is used directly, or time passes. Schedules, turns and
scenarios are moves one after the other, so what every move preserves holds whatever the
schedule. This file lists the moves and says, once, all that each of them can do.

## Main definitions

* `Move`, `Traffic.move`: what can happen next, and what comes of it.
* `Call.slots`, `Activity.awaitsSlot`: what a call has to do with the bulkhead.
* `Traffic.Effect`: all that a move can do.

## Main results

* `Traffic.effect_of_move`: every move has such an effect.
-/

namespace Safeguard

open CircuitBreaker (Permit Transition Watched)
open Resilience (Layers)

variable {α : Type}

/-- A use of the rate limiter that is no call. -/
inductive LimiterUse where
  | allow (n : UInt32)
  | level
  | reset

/-- What becomes of the rate limiter. -/
def LimiterUse.apply : LimiterUse → RateLimiter Float → Instant → RateLimiter Float
  | .allow n, l, now => (l.allow n now).1
  | .level, l, now => (l.level now).1
  | .reset, l, now => l.reset now

/-- A use of the circuit breaker that is no call. -/
inductive BreakerUse where
  | observe
  | reset
  | forceOpen

/-- What becomes of the circuit breaker. -/
def BreakerUse.apply : BreakerUse → CircuitBreaker → Instant → CircuitBreaker × Option Transition
  | .observe, b, now => b.observe now
  | .reset, b, _ => b.reset
  | .forceOpen, b, now => b.forceOpen now

/-- What can happen next. -/
inductive Move (α : Type) where
  /-- A call takes a step. -/
  | step (id : Nat)
  /-- A run of an operation is looked at. -/
  | look (run : Nat)
  /-- A call starts. -/
  | begin (token : TokenId) (stages : List Stage) (work : Work α)
  /-- A caller drops a call. -/
  | drop (id : Nat)
  /-- A call is told to let go. -/
  | letGo (id : Nat)
  /-- A token is cancelled. -/
  | cancel (token : TokenId)
  /-- A token is made, perhaps below another one. -/
  | mint (parent : Option TokenId)
  /-- Time passes. -/
  | elapse (millis : Nat)
  /-- The rate limiter is used directly. -/
  | limiter (use : LimiterUse)
  /-- The circuit breaker is used directly. -/
  | breaker (use : BreakerUse)
  /-- The tasks that are due are put in another order. -/
  | arrange (ready : List Task)
  /-- The trace is taken. -/
  | clear

/-- Whether a move concerns neither layers nor what calls do. -/
def Move.isAside : Move α → Bool
  | .look _ | .letGo _ | .cancel _ | .mint _ | .elapse _ | .arrange _ | .clear => true
  | _ => false

namespace Traffic

/-- What comes of a move, if it is possible. -/
def move (tr : Traffic α) : Move α → Option (Traffic α)
  | .step id => tr.step id
  | .look run => some (tr.turnRun run)
  | .begin token stages work => some (tr.begin token stages work)
  | .drop id => some (tr.abort id)
  | .letGo id => some (tr.letGo id)
  | .cancel token => some (tr.cancelToken token)
  | .mint none => some { tr with tokens := tr.tokens.root.1 }
  | .mint (some parent) => some { tr with tokens := (tr.tokens.child parent 1).1 }
  | .elapse millis => some { tr with clock := tr.clock + millis }
  | .limiter use => tr.layers.rateLimiter.map fun l => tr.setLimiter (use.apply l tr.now)
  | .breaker use => tr.layers.circuitBreaker.map fun b =>
      (tr.changeBreaker none (use.apply b tr.now).1 (use.apply b tr.now).2).1
  | .arrange ready => some { tr with ready := ready }
  | .clear => some { tr with trace := .empty }

end Traffic

/-! ## Calls and the bulkhead -/

/-- Whether a frame is a slot of the bulkhead. -/
def Frame.isSlot : Frame → Bool
  | .slot => true
  | _ => false

/-- The number of slots that a call holds. -/
def Call.slots (c : Call α) : Nat := c.frames.countP Frame.isSlot

/-- Whether a call waits in the queue of the bulkhead. -/
def Activity.awaitsSlot : Activity α → Bool
  | .awaitingSlot .. => true
  | _ => false

/-- Whether a call has ended. -/
def Activity.hasEnded : Activity α → Bool
  | .ended => true
  | _ => false

/-- The bulkhead after a call has left: it leaves the queue and gives its slots back. -/
def Bulkhead.vacated (b : Bulkhead Nat) (id : Nat) (c : Call α) : Bulkhead Nat :=
  (fun b : Bulkhead Nat => b.release.1)^[c.slots]
    (if c.activity.awaitsSlot then (b.leave id).1 else b)

namespace Traffic

/-! ## Effects -/

/-- What a run ends in when it is looked at now, if it ends then. -/
def ending? (tr : Traffic α) (run : Nat) : Option (Outcome α) :=
  tr.runs[run]?.bind fun r =>
    match r.status with
    | .fresh =>
      (r.op.poll (tr.tokens.isCancelled r.deadline) (r.op.due tr.clock) tr.clock).map (·.1)
    | .running due => (r.op.poll (tr.tokens.isCancelled r.deadline) due tr.clock).map (·.1)
    | .finished _ => none

/-- What a move that concerns neither layers nor calls can do. Runs stay what they are, and
only the run that is looked at may end. -/
structure Aside (tr : Traffic α) (m : Move α) (tr' : Traffic α) : Prop where
  clock : tr.clock ≤ tr'.clock
  layers : tr'.layers = tr.layers
  attached : tr'.attached = tr.attached
  tokens : tr.tokens.Grows tr'.tokens
  calls : tr'.calls = tr.calls
  runs_length : tr'.runs.length = tr.runs.length
  runs : ∀ i r', tr'.runs[i]? = some r' → ∃ r, tr.runs[i]? = some r ∧
    r'.call = r.call ∧ r'.number = r.number ∧ r'.op = r.op ∧
    ∀ outcome, r'.status = .finished outcome →
      r.status = .finished outcome ∨ m = .look i ∧ tr.ending? i = some outcome

/-- What comes of a call that its caller drops. -/
structure Dropped (tr : Traffic α) (id : Nat) (c : Call α) (tr' : Traffic α) : Prop where
  calls : tr'.calls = tr.calls.set id { c with frames := [], activity := .ended }
  layers : tr'.layers = { tr.layers with
    bulkhead := tr.layers.bulkhead.map (·.vacated id c),
    circuitBreaker := tr.layers.circuitBreaker.map (c.permits.foldl CircuitBreaker.abandon) }
  clock : tr'.clock = tr.clock
  attached : tr'.attached = tr.attached
  runs : tr'.runs = tr.runs
  tokens : tr.tokens.Grows tr'.tokens

/-- All that a move can do. -/
inductive Effect (tr : Traffic α) : Move α → Traffic α → Prop where
  | stepped {id : Nat} {c c' : Call α} {tr' : Traffic α} (call : tr.calls[id]? = some c)
      (h : Stepped tr id c tr' c') : Effect tr (.step id) tr'
  | begun (token : TokenId) (stages : List Stage) (work : Work α) (ready : List Task) :
      Effect tr (.begin token stages work)
        { tr with calls := tr.calls ++ [⟨token, work, 0, [], .entering stages, 0⟩], ready := ready }
  | dropped {id : Nat} {c : Call α} {tr' : Traffic α} (call : tr.calls[id]? = some c)
      (pending : c.activity.hasEnded = false) (h : Dropped tr id c tr') : Effect tr (.drop id) tr'
  | told {id : Nat} {c : Call α} (call : tr.calls[id]? = some c) (work : c.work = .hold false)
      (ready : List Task) :
      Effect tr (.letGo id)
        { tr with calls := tr.calls.set id { c with work := .hold true }, ready := ready }
  | limiter (use : LimiterUse) {l : RateLimiter Float} (present : tr.layers.rateLimiter = some l) :
      Effect tr (.limiter use) (tr.setLimiter (use.apply l tr.now))
  | breaker (use : BreakerUse) {b b' : CircuitBreaker}
      (present : tr.layers.circuitBreaker = some b)
      (watched : Watched tr.now (use.apply b tr.now).1 b') (trace : Trace α) :
      Effect tr (.breaker use) { tr.setBreaker b' with trace := trace }
  | idle {id : Nat} (ended : ∀ c, tr.calls[id]? = some c → c.activity.hasEnded = true) :
      Effect tr (.drop id) tr
  | aside {m : Move α} {tr' : Traffic α} (kind : m.isAside = true) (h : Aside tr m tr') :
      Effect tr m tr'

variable {tr tr' : Traffic α} {id : Nat} {c : Call α}

/-- A move that changes no run. -/
theorem aside_of_runs {m : Move α} (clock : tr.clock ≤ tr'.clock) (layers : tr'.layers = tr.layers)
    (attached : tr'.attached = tr.attached) (tokens : tr.tokens.Grows tr'.tokens)
    (calls : tr'.calls = tr.calls) (runs : tr'.runs = tr.runs) : Aside tr m tr' := by
  refine ⟨clock, layers, attached, tokens, calls, by rw [runs], fun i r' hr => ?_⟩
  rw [runs] at hr
  exact ⟨r', hr, rfl, rfl, rfl, fun _ h => .inl h⟩

theorem aside_refl (tr : Traffic α) (m : Move α) : Aside tr m tr :=
  aside_of_runs (Nat.le_refl _) rfl rfl (.refl _) rfl rfl

/-! ## Runs -/

/-- A run that is replaced, perhaps by one that has just ended. -/
theorem aside_setRun {r : Run α} (hr : tr.runs[id]? = some r) {status : RunStatus α}
    (since : Nat)
    (hstatus : ∀ outcome, status = .finished outcome → tr.ending? id = some outcome)
    (hruns : tr'.runs = tr.runs.set id { r with status := status, since := since })
    (clock : tr'.clock = tr.clock) (layers : tr'.layers = tr.layers)
    (attached : tr'.attached = tr.attached) (tokens : tr.tokens.Grows tr'.tokens)
    (calls : tr'.calls = tr.calls) : Aside tr (.look id) tr' := by
  refine ⟨Nat.le_of_eq clock.symm, layers, attached, tokens, calls, by simp [hruns], ?_⟩
  intro i r' hr'
  rw [hruns] at hr'
  by_cases hid : id = i
  · subst hid
    rw [List.getElem?_set_self (List.getElem?_eq_some_iff.mp hr).1] at hr'
    obtain rfl := Option.some.inj hr'
    exact ⟨r, hr, rfl, rfl, rfl, fun outcome h => .inr ⟨rfl, hstatus outcome h⟩⟩
  · rw [List.getElem?_set_ne hid] at hr'
    exact ⟨r', hr', rfl, rfl, rfl, fun _ h => .inl h⟩

theorem aside_turnRun (tr : Traffic α) (id : Nat) : Aside tr (.look id) (tr.turnRun id) := by
  unfold turnRun
  split
  · exact aside_refl tr _
  · rename_i r hr
    extract_lets look
    have hlook : ∀ due stamp,
        (∀ outcome ending, r.op.poll (tr.tokens.isCancelled r.deadline) due tr.clock =
          some (outcome, ending) → tr.ending? id = some outcome) →
        Aside tr (.look id) (look due stamp) := by
      intro due stamp hending
      unfold look
      split
      · rename_i outcome ending hpoll
        have hended := hending outcome ending hpoll
        have hstatus : ∀ o, (RunStatus.finished outcome) = .finished o →
            tr.ending? id = some o := fun o h => by cases h; exact hended
        -- The call is woken if it still races this run.
        dsimp only
        split
        · split
          · obtain ⟨ready, hwake⟩ := exists_wake (((tr.recordRun r.call r.number ending).setRun id
              { r with status := .finished outcome }).dropToken r.deadline) (.call r.call)
            rw [hwake]
            exact aside_setRun hr r.since hstatus rfl rfl rfl rfl
              (TokenForest.grows_drop tr.tokens r.deadline) rfl
          · exact aside_setRun hr r.since hstatus rfl rfl rfl rfl
              (TokenForest.grows_drop tr.tokens r.deadline) rfl
        · exact aside_setRun hr r.since hstatus rfl rfl rfl rfl
            (TokenForest.grows_drop tr.tokens r.deadline) rfl
      · split
        · have hgoing : ∀ o, RunStatus.running due = .finished o → tr.ending? id = some o := nofun
          exact aside_setRun hr tr.stamps hgoing rfl rfl rfl rfl (.refl _) rfl
        · exact aside_refl tr _
    split
    · rename_i hfresh
      refine hlook _ _ fun outcome ending hpoll => ?_
      simp only [ending?, hr, Option.bind_some, hfresh, hpoll, Option.map_some]
    · rename_i due hrunning
      refine hlook _ _ fun outcome ending hpoll => ?_
      simp only [ending?, hr, Option.bind_some, hrunning, hpoll, Option.map_some]
    · exact aside_refl tr _

/-! ## Dropping -/

theorem layers_releaseSlot (tr : Traffic α) :
    tr.releaseSlot.layers =
      { tr.layers with bulkhead := tr.layers.bulkhead.map fun b => b.release.1 } := by
  cases hb : tr.layers.bulkhead with
  | none =>
    simp only [releaseSlot, hb, Option.map_none]
    rw [← hb]
  | some b =>
    obtain ⟨ready, h⟩ := exists_releaseSlot hb
    rw [h]
    rfl

theorem layers_leaveQueue (tr : Traffic α) (id : Nat) :
    (tr.leaveQueue id).layers =
      { tr.layers with bulkhead := tr.layers.bulkhead.map fun b => (b.leave id).1 } := by
  cases hb : tr.layers.bulkhead with
  | none =>
    simp only [leaveQueue, hb, Option.map_none]
    rw [← hb]
  | some b =>
    obtain ⟨ready, h⟩ := exists_leaveQueue hb id
    rw [h]
    rfl

/-- Giving back what a call holds changes layers and tokens and wakes tasks. -/
structure Giving (tr tr' : Traffic α) : Prop where
  calls : tr'.calls = tr.calls
  clock : tr'.clock = tr.clock
  attached : tr'.attached = tr.attached
  runs : tr'.runs = tr.runs
  tokens : tr.tokens.Grows tr'.tokens

theorem Giving.refl (tr : Traffic α) : Giving tr tr := ⟨rfl, rfl, rfl, rfl, .refl _⟩

theorem Giving.trans {tr'' : Traffic α} (h : Giving tr tr') (h' : Giving tr' tr'') :
    Giving tr tr'' :=
  ⟨h'.calls.trans h.calls, h'.clock.trans h.clock, h'.attached.trans h.attached,
    h'.runs.trans h.runs, h.tokens.trans h'.tokens⟩

theorem giving_releaseSlot (tr : Traffic α) : Giving tr tr.releaseSlot := by
  cases hb : tr.layers.bulkhead with
  | none => simpa only [releaseSlot, hb] using .refl tr
  | some b =>
    obtain ⟨ready, h⟩ := exists_releaseSlot hb
    rw [h]
    exact ⟨rfl, rfl, rfl, rfl, .refl _⟩

theorem giving_leaveQueue (tr : Traffic α) (id : Nat) : Giving tr (tr.leaveQueue id) := by
  cases hb : tr.layers.bulkhead with
  | none => simpa only [leaveQueue, hb] using .refl tr
  | some b =>
    obtain ⟨ready, h⟩ := exists_leaveQueue hb id
    rw [h]
    exact ⟨rfl, rfl, rfl, rfl, .refl _⟩

theorem abandonPermit_spec (tr : Traffic α) (p : Permit) :
    Giving tr (tr.abandonPermit p) ∧ (tr.abandonPermit p).layers =
      { tr.layers with
        circuitBreaker := tr.layers.circuitBreaker.map fun b => b.abandon p } := by
  cases hb : tr.layers.circuitBreaker with
  | none =>
    simp only [abandonPermit, hb, Option.map_none]
    refine ⟨.refl tr, ?_⟩
    rw [← hb]
  | some b =>
    simp only [abandonPermit, hb, Option.map_some]
    exact ⟨⟨rfl, rfl, rfl, rfl, .refl _⟩, rfl⟩

theorem abandonActivity_spec (tr : Traffic α) (id : Nat) (a : Activity α) :
    Giving tr (tr.abandonActivity id a) ∧
      (tr.abandonActivity id a).layers = { tr.layers with
        bulkhead :=
          tr.layers.bulkhead.map fun b => if a.awaitsSlot then (b.leave id).1 else b } := by
  have hsame : tr.layers = { tr.layers with bulkhead := tr.layers.bulkhead.map fun b => b } := by
    rw [Option.map_id']
  cases a with
  | awaitingSlot due inner => exact ⟨giving_leaveQueue tr id, layers_leaveQueue tr id⟩
  | racing run deadline due =>
    obtain ⟨ready, h⟩ := tr.exists_endRace deadline
    simp only [abandonActivity, h]
    exact ⟨⟨rfl, rfl, rfl, rfl, tr.tokens.grows_retire deadline⟩, hsame⟩
  | operating number op due => exact ⟨⟨rfl, rfl, rfl, rfl, .refl _⟩, hsame⟩
  | _ => exact ⟨.refl tr, hsame⟩

theorem abandonFrames_spec (frames : List Frame) (tr : Traffic α) :
    Giving tr (frames.foldl abandonFrame tr) ∧
      (frames.foldl abandonFrame tr).layers = { tr.layers with
        bulkhead := tr.layers.bulkhead.map
          (fun b : Bulkhead Nat => b.release.1)^[frames.countP Frame.isSlot],
        circuitBreaker :=
          tr.layers.circuitBreaker.map ((Frame.permits frames).foldl CircuitBreaker.abandon) } := by
  induction frames generalizing tr with
  | nil =>
    refine ⟨.refl tr, ?_⟩
    simp [Frame.permits]
  | cons frame frames ih =>
    cases frame with
    | slot =>
      obtain ⟨hgiving, hlayers⟩ := ih tr.releaseSlot
      refine ⟨(giving_releaseSlot tr).trans hgiving, ?_⟩
      rw [List.countP_cons_of_pos rfl, Function.iterate_succ]
      simp only [List.foldl_cons, abandonFrame, hlayers, layers_releaseSlot, Option.map_map]
      rfl
    | permit p =>
      obtain ⟨hgiving, hlayers⟩ := ih (tr.abandonPermit p)
      obtain ⟨hback, hback'⟩ := tr.abandonPermit_spec p
      refine ⟨hback.trans hgiving, ?_⟩
      rw [List.countP_cons_of_neg (show ¬ (Frame.permit p).isSlot = true from Bool.false_ne_true)]
      simp only [List.foldl_cons, abandonFrame, hlayers, hback', Option.map_map]
      rfl
    | attempt number inner => exact ih tr

/-- Giving back what a call is inside leaves everything alone but the layers and those who wait
for them. -/
theorem exists_abandonFrames (frames : List Frame) (tr : Traffic α) :
    ∃ layers ready, frames.foldl abandonFrame tr =
      { tr with layers := layers, ready := ready } := by
  induction frames generalizing tr with
  | nil => exact ⟨tr.layers, tr.ready, rfl⟩
  | cons frame frames ih =>
    obtain ⟨layers, ready, h⟩ : ∃ layers ready,
        tr.abandonFrame frame = { tr with layers := layers, ready := ready } := by
      cases frame with
      | slot =>
        cases hb : tr.layers.bulkhead with
        | none => exact ⟨tr.layers, tr.ready, by simp only [abandonFrame, releaseSlot, hb]⟩
        | some b =>
          obtain ⟨ready, hrelease⟩ := exists_releaseSlot hb
          exact ⟨_, ready, hrelease⟩
      | permit p =>
        unfold abandonFrame abandonPermit
        dsimp only
        split
        · exact ⟨tr.layers, tr.ready, rfl⟩
        · exact ⟨_, tr.ready, rfl⟩
      | attempt => exact ⟨tr.layers, tr.ready, rfl⟩
    rw [List.foldl_cons, h]
    exact ih _

/-- What comes of a call that its caller drops. -/
theorem dropped_abandon (hc : tr.calls[id]? = some c) : Dropped tr id c (tr.abandon id) := by
  obtain ⟨hactivity, hlayers⟩ := tr.abandonActivity_spec id c.activity
  obtain ⟨hframes, hlayers'⟩ := abandonFrames_spec c.frames (tr.abandonActivity id c.activity)
  have hgiving := hactivity.trans hframes
  have heq : tr.abandon id =
      (c.frames.foldl abandonFrame (tr.abandonActivity id c.activity)).setCall id
        { c with frames := [], activity := .ended } := by
    simp only [abandon, hc]
  rw [heq]
  refine ⟨congrArg (List.set · id _) hgiving.calls, ?_, hgiving.clock, hgiving.attached,
    hgiving.runs, hgiving.tokens⟩
  refine hlayers'.trans ?_
  simp only [hlayers, Option.map_map]
  rfl

/-! ## Moves -/

theorem isPending_iff :
    tr.isPending id = true ↔ ∃ c, tr.calls[id]? = some c ∧ c.activity.hasEnded = false := by
  unfold isPending
  cases hc : tr.calls[id]? with
  | none => simp
  | some c => cases hactivity : c.activity <;> simp [hactivity, Activity.hasEnded]

theorem work_of_mayLetGo (hc : tr.calls[id]? = some c) (h : tr.mayLetGo id = true) :
    c.work = .hold false := by
  unfold mayLetGo at h
  rw [hc] at h
  obtain ⟨_, work, _, _, _, _⟩ := c
  cases work with
  | operation script => simp at h
  | hold released => cases released <;> simp_all
  | nothing => simp at h

/-- Every move has an effect. -/
theorem effect_of_move {m : Move α} (h : tr.move m = some tr') : Effect tr m tr' := by
  cases m with
  | step id =>
    obtain ⟨c, c', hc, hstepped⟩ := exists_stepped h
    exact .stepped hc hstepped
  | look run =>
    obtain rfl := Option.some.inj h
    exact .aside rfl (aside_turnRun tr run)
  | begin token stages work =>
    obtain rfl := Option.some.inj h
    obtain ⟨ready, hwake⟩ := exists_wake
      { tr with calls := tr.calls ++ [⟨token, work, 0, [], .entering stages, 0⟩] }
      (.call tr.calls.length)
    rw [show tr.begin token stages work = _ from hwake]
    exact .begun token stages work ready
  | drop id =>
    obtain rfl := Option.some.inj h
    by_cases hpending : tr.isPending id = true
    · obtain ⟨c, hc, hended⟩ := isPending_iff.mp hpending
      rw [abort, if_pos hpending]
      exact .dropped hc hended (dropped_abandon hc)
    · rw [abort, if_neg hpending]
      refine .idle fun c hc => ?_
      rw [isPending_iff] at hpending
      exact (Bool.not_eq_false _).mp fun hgoing => hpending ⟨c, hc, hgoing⟩
  | letGo id =>
    obtain rfl := Option.some.inj h
    unfold letGo
    split
    · exact .aside rfl (aside_refl tr _)
    · rename_i c hc
      split
      · rename_i hmay
        have hwork := work_of_mayLetGo hc hmay
        have htold := Effect.told hc hwork
        dsimp only
        split
        · obtain ⟨ready, hwake⟩ :=
            exists_wake (tr.setCall id { c with work := .hold true }) (.call id)
          rw [hwake]
          exact htold ready
        · exact htold tr.ready
      · exact .aside rfl (aside_refl tr _)
  | cancel token =>
    obtain rfl := Option.some.inj h
    obtain ⟨ready, hcancel⟩ := tr.exists_cancelToken token
    rw [hcancel]
    exact .aside rfl (aside_of_runs (Nat.le_refl _) rfl rfl (tr.tokens.grows_cancel token) rfl rfl)
  | mint parent =>
    cases parent with
    | none =>
      obtain rfl := Option.some.inj h
      exact .aside rfl (aside_of_runs (Nat.le_refl _) rfl rfl tr.tokens.grows_root rfl rfl)
    | some parent =>
      obtain rfl := Option.some.inj h
      exact .aside rfl
        (aside_of_runs (Nat.le_refl _) rfl rfl (tr.tokens.grows_child parent 1) rfl rfl)
  | elapse millis =>
    obtain rfl := Option.some.inj h
    exact .aside rfl (aside_of_runs (Nat.le_add_right ..) rfl rfl (.refl _) rfl rfl)
  | limiter use =>
    obtain ⟨l, hl, rfl⟩ := Option.map_eq_some_iff.mp h
    exact .limiter use hl
  | breaker use =>
    obtain ⟨b, hb, rfl⟩ := Option.map_eq_some_iff.mp h
    obtain ⟨b', trace, hwatched, heq⟩ := tr.exists_changeBreaker none (use.apply b tr.now).1
      (use.apply b tr.now).2
    rw [heq]
    exact .breaker use hb hwatched trace
  | arrange ready =>
    obtain rfl := Option.some.inj h
    exact .aside rfl (aside_of_runs (Nat.le_refl _) rfl rfl (.refl _) rfl rfl)
  | clear =>
    obtain rfl := Option.some.inj h
    exact .aside rfl (aside_of_runs (Nat.le_refl _) rfl rfl (.refl _) rfl rfl)

end Traffic

end Safeguard
