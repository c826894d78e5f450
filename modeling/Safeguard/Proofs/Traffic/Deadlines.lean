import Safeguard.Proofs.Traffic.Turns

/-!
# Races and their tokens

A call with a timeout runs its operation as a task of its own, once in each attempt, and races
every run against a deadline. The run has a token that is made when the race starts, hangs from
the caller's, and is retired when the call leaves the race. The task may go on after that. This
file follows the token of a race from its start to its end, among the tokens of all other races
and whatever else is made and cancelled in the meantime.

## Main definitions

* `Traffic.Races`: a call waits for a run of its operation.
* `Change.StartsRace`, `Change.LeavesRace`: where it begins to wait, and where it stops.
* `Change.Cancels`: a token is cancelled in a change.
* `Change.callerHolds`: callers have the tokens that they start calls with.
* `Traffic.Raced`: the traces of a race that has started.

## Main results

* `Traffic.exists_startRace_of_starts`: how races start.
* `Traffic.follows_race`: when the race started that a call is in.
* `Traffic.tokens_of_leavesRace`: what becomes of the token of a race.
* `Traffic.Course.raced`: a token of a race hangs from its caller's at most.
* `Traffic.Course.deadlines_apart`: no two races share a token.
* `Traffic.Course.isCancelled_of_leavesRace`, `Traffic.Course.not_cancels_caller`,
  `Traffic.Course.cancels_caller_of_cancels`: what the end of a race cancels.
-/

namespace Safeguard

open Resilience (Layers)

variable {α : Type} {tr tr' : Traffic α} {id run : Nat} {deadline : TokenId} {due : Nat}
  {c c' : Call α} {m : Move α} {log : List (Change α)} {ch : Change α}

/-- The call waits for that run of its operation, whose token is the given one. -/
def Traffic.Races (tr : Traffic α) (id run : Nat) (deadline : TokenId) : Prop :=
  ∃ c due, tr.calls[id]? = some c ∧ c.activity = .racing run deadline due

namespace Change

/-- In a change, a race starts. -/
structure StartsRace (ch : Change α) (id run : Nat) (deadline : TokenId) : Prop where
  before : ¬ ch.before.Races id run deadline
  after : ch.after.Races id run deadline

/-- In a change, a call leaves a race, whatever comes of it. -/
structure LeavesRace (ch : Change α) (id run : Nat) (deadline : TokenId) : Prop where
  before : ch.before.Races id run deadline
  after : ¬ ch.after.Races id run deadline

/-- In a change, a token is cancelled. -/
structure Cancels (ch : Change α) (token : TokenId) : Prop where
  before : ch.before.tokens.isCancelled token = false
  after : ch.after.tokens.isCancelled token = true

/-- Whether the caller of a call that starts has the token that it starts with. -/
def callerHolds (ch : Change α) : Bool :=
  match ch.move with
  | .begin token _ _ => ch.before.tokens.Has token
  | _ => true

end Change

/-! ## How races start -/

/-- What a call does next is to race its operation. -/
structure Traffic.MayRace (tr : Traffic α) (c : Call α) (timeout : Duration)
    (script : List (Operation α)) : Prop where
  entering : ∃ inner, c.activity = .entering (.layer .timeout :: inner)
  limit : tr.layers.timeout = some timeout
  work : c.work = .operation script

/-- No step leads from one race to another, and only the timeout layer leads into one. -/
theorem Rule.mayRace {layers : Layers} {runs : List (Run α)} (h : Rule tr id c layers runs c')
    (hnow : c'.activity = .racing run deadline due) :
    (∃ timeout script, tr.MayRace c timeout script ∧ due = tr.dueIn timeout) ∧
      run = tr.runs.length ∧ deadline = tr.tokens.tokens.length := by
  cases h with
  | limiter _ rule => cases rule <;> cases hnow
  | bulkhead _ rule => cases rule <;> cases hnow
  | breaker _ rule => cases rule <;> cases hnow
  | inner rule =>
    cases rule with
    | raced entering limit work =>
      obtain ⟨rfl, rfl, rfl⟩ := Activity.racing.inj hnow
      exact ⟨⟨_, _, ⟨⟨_, entering⟩, limit, work⟩, rfl⟩, rfl, rfl⟩
    | _ => cases hnow

namespace Traffic

variable {layers : Layers} {attached : Attachments} {tr₀ : Traffic α}

theorem MayRace.not_races {timeout : Duration} {script : List (Operation α)}
    (h : tr.MayRace c timeout script) (hc : tr.calls[id]? = some c) :
    ¬ tr.Races id run deadline := by
  rintro ⟨c₀, due, hc₀, hracing⟩
  obtain rfl := Option.some.inj (hc.symm.trans hc₀)
  obtain ⟨inner, hentering⟩ := h.entering
  rw [hentering] at hracing
  cases hracing

theorem step_of_mayRace {timeout : Duration} {script : List (Operation α)}
    (hc : tr.calls[id]? = some c) (h : tr.MayRace c timeout script) :
    tr.step id = some (tr.startRace id c script timeout) := by
  obtain ⟨inner, hentering⟩ := h.entering
  simp [step, hc, hentering, enterNext, passLayer, h.limit, h.work]

/-- The call that has started a race waits for the run that was made last. -/
theorem call_startRace (hc : tr.calls[id]? = some c) (script : List (Operation α))
    (timeout : Duration) :
    (tr.startRace id c script timeout).calls[id]? = some { c with
      invocations := c.invocations + 1
      activity := .racing tr.runs.length tr.tokens.tokens.length (tr.dueIn timeout)
      since := tr.stamps } := by
  obtain ⟨ready, hstart⟩ := tr.exists_startRace id c script timeout
  rw [hstart]
  exact List.getElem?_set_self (List.getElem?_eq_some_iff.mp hc).1

/-- A race starts in a step of a call that is about to race. -/
theorem exists_startRace_of_starts (hcourse : Course (.start layers attached) log tr)
    (hm : tr.move m = some tr') (hstarts : (Change.mk tr m tr').StartsRace id run deadline) :
    m = .step id ∧ run = tr.runs.length ∧ deadline = tr.tokens.tokens.length ∧
      ∃ c timeout script, tr.calls[id]? = some c ∧ tr.MayRace c timeout script ∧
        tr' = tr.startRace id c script timeout := by
  have heffect := effect_of_move hm
  obtain ⟨c', due, hc', hracing⟩ := hstarts.after
  have hstill : ∀ {c : Call α}, tr.calls[id]? = some c → c.activity = c'.activity → False :=
    fun hc hsame => hstarts.before ⟨_, due, hc, hsame.trans hracing⟩
  cases hc : tr.calls[id]? with
  | none =>
    -- A call that starts now has invoked nothing yet.
    obtain ⟨-, -, hinvoked⟩ := (hcourse.move hm).call (follows_racing _) hc'
    have hnew := heffect.uninvoked_of_new hc hc'
    obtain ⟨-, hpos, -⟩ := hinvoked run deadline due hracing
    omega
  | some c =>
    cases heffect.fares hc hc' with
    | stepped hstep hstepped =>
      subst hstep
      obtain ⟨⟨timeout, script, hmay, -⟩, hrun, hdeadline⟩ := hstepped.rule.mayRace hracing
      have hnext := step_of_mayRace hc hmay
      exact ⟨rfl, hrun, hdeadline, c, timeout, script, rfl, hmay,
        Option.some.inj (hm.symm.trans hnext)⟩
    | dropped => cases hracing
    | told => exact (hstill hc rfl).elim
    | kept => exact (hstill hc rfl).elim

/-- The race that a call is in started before, and its deadline is as far from there as the
timeout is long. -/
theorem follows_race (layers : Layers) (attached : Attachments) :
    Follows (.start layers attached) fun (_ : Origin α) log _ id c =>
      ∀ run deadline due, c.activity = .racing run deadline due →
        ∃ ch ∈ log, ch.StartsRace id run deadline ∧
          ∃ timeout, layers.timeout = some timeout ∧ due = ch.after.dueIn timeout where
  begun _ _ _ _ := nofun
  stepped := by
    intro o log tr tr' id c c' hcourse _ hc hstep _ run deadline due hracing
    obtain ⟨⟨timeout, script, hmay, hdue⟩, -⟩ := hstep.rule.mayRace hracing
    have hlimit : tr.layers.timeout = layers.timeout :=
      hcourse.keeps fun heffect => heffect.policies_eq.2
    refine ⟨⟨tr, .step id, tr'⟩, List.mem_append_right _ (.head _), ⟨hmay.not_races hc, ?_⟩,
      timeout, hlimit.symm.trans hmay.limit, ?_⟩
    · exact ⟨c', due, hstep.call hc, hracing⟩
    · rw [hdue, dueIn, dueIn, hstep.clock]
  dropped _ _ _ _ := nofun
  told := by
    intro o log tr tr' id c _ _ _ ih run deadline due hracing
    obtain ⟨ch, hch, hstarted⟩ := ih run deadline due hracing
    exact ⟨ch, List.mem_append_left _ hch, hstarted⟩
  other := by
    intro o log tr tr' m id c _ _ _ _ _ _ ih run deadline due hracing
    obtain ⟨ch, hch, hstarted⟩ := ih run deadline due hracing
    exact ⟨ch, List.mem_append_left _ hch, hstarted⟩

/-! ## How races are left -/

theorem tokens_endRace (tr : Traffic α) (deadline : TokenId) :
    (tr.endRace deadline).tokens = tr.tokens.retire deadline := by
  obtain ⟨ready, h⟩ := tr.exists_endRace deadline
  rw [h]

/-- Whatever a call leaves a race with, the token of the race is retired. -/
theorem tokens_resumeRace (h : tr.resumeRace id c run deadline due = some tr') :
    tr'.tokens = tr.tokens.retire deadline := by
  unfold resumeRace at h
  split at h
  · obtain rfl := Option.some.inj h
    exact tokens_endRace tr deadline
  · split at h
    · obtain rfl := Option.some.inj h
      exact tokens_endRace tr deadline
    · split at h
      · cases h
      · obtain rfl := Option.some.inj h
        exact tokens_endRace _ deadline

/-- So it is when its caller drops it. -/
theorem tokens_abort (hc : tr.calls[id]? = some c)
    (hracing : c.activity = .racing run deadline due) :
    (tr.abort id).tokens = tr.tokens.retire deadline := by
  have hpending : tr.isPending id = true := isPending_iff.mpr ⟨c, hc, by rw [hracing]; rfl⟩
  obtain ⟨_, ready, hgiven⟩ := exists_abandonFrames c.frames (tr.endRace deadline)
  have habandon : tr.abandon id = (c.frames.foldl abandonFrame (tr.endRace deadline)).setCall id
      { c with frames := [], activity := .ended } := by
    simp only [abandon, hc, hracing, abandonActivity]
  rw [abort, if_pos hpending, habandon, hgiven]
  exact tokens_endRace tr deadline

/-- There is no other way out of a race. -/
theorem tokens_of_leavesRace (hm : tr.move m = some tr')
    (hleaves : (Change.mk tr m tr').LeavesRace id run deadline) :
    tr'.tokens = tr.tokens.retire deadline := by
  obtain ⟨c, due, hc, hracing⟩ := hleaves.before
  obtain ⟨c', hc', hfares⟩ := (effect_of_move hm).exists_fares hc
  cases hfares with
  | stepped hstep =>
    subst hstep
    have hresume : tr.step id = tr.resumeRace id c run deadline due := by
      simp [step, hc, hracing]
    exact tokens_resumeRace (hresume.symm.trans hm)
  | dropped hdrop =>
    subst hdrop
    obtain rfl : tr.abort id = tr' := Option.some.inj hm
    exact tokens_abort hc hracing
  -- In any other change the call stays in the race.
  | told => exact absurd ⟨_, due, hc', hracing⟩ hleaves.after
  | kept => exact absurd ⟨_, due, hc', hracing⟩ hleaves.after

/-! ## Races that have started -/

/-- That race has started: its run and its token were made, the token after the one of the
caller, and the token hangs from that one or from none. -/
structure Raced (tr : Traffic α) (id run : Nat) (deadline : TokenId) : Prop where
  run_lt : run < tr.runs.length
  has : tr.tokens.Has deadline
  hangs : ∃ c, tr.calls[id]? = some c ∧ c.token < deadline ∧
    ∀ p, deadline ∈ tr.tokens.children p → p = c.token

theorem Effect.runs_length_le (h : Effect tr m tr') : tr.runs.length ≤ tr'.runs.length := by
  cases h with
  | stepped _ hstep =>
    obtain hruns | ⟨r, hruns, -⟩ := hstep.rule.runs_cases
    · exact Nat.le_of_eq (congrArg List.length hruns.symm)
    · rw [hruns, List.length_append]
      exact Nat.le_add_right ..
  | dropped _ _ hdropped => rw [hdropped.runs]
  | aside _ haside => rw [haside.runs_length]
  | _ => exact Nat.le_refl _

/-- A call keeps its token. -/
theorem Effect.exists_call (h : Effect tr m tr') (hc : tr.calls[id]? = some c) :
    ∃ c', tr'.calls[id]? = some c' ∧ c'.token = c.token := by
  obtain ⟨c', hc', hfares⟩ := h.exists_fares hc
  cases hfares with
  | stepped _ hstep => exact ⟨c', hc', hstep.rule.keeps_origin.1⟩
  | _ => exact ⟨_, hc', rfl⟩

theorem Raced.effect (h : tr.Raced id run deadline) (heffect : Effect tr m tr') :
    tr'.Raced id run deadline := by
  obtain ⟨c, hc, holder, hhangs⟩ := h.hangs
  obtain ⟨c', hc', htoken⟩ := heffect.exists_call hc
  refine ⟨Nat.lt_of_lt_of_le h.run_lt heffect.runs_length_le, heffect.tokens_grow.has h.has,
    c', hc', by rwa [htoken], fun p hp => ?_⟩
  rw [htoken]
  exact hhangs p (heffect.tokens_grow.mem_children h.has hp)

theorem raced_startRace (hc : tr.calls[id]? = some c) (hhas : tr.tokens.Has c.token)
    (hchronological : tr.tokens.Chronological) (script : List (Operation α)) (timeout : Duration) :
    (tr.startRace id c script timeout).Raced id tr.runs.length tr.tokens.tokens.length := by
  have hcall := call_startRace hc script timeout
  obtain ⟨ready, hstart⟩ := tr.exists_startRace id c script timeout
  rw [hstart] at hcall ⊢
  refine ⟨by simp, ?_, _, hcall, hhas, fun p hp => ?_⟩
  · simp [TokenForest.Has, TokenForest.length_child]
  -- Before, the token was not there, so it cannot have hung from any.
  · obtain hold | ⟨rfl, -⟩ := TokenForest.mem_children_child hp
    · exact absurd (hchronological _ _ hold).2 (Nat.lt_irrefl _)
    · rfl

/-! ## Courses

Numbers of runs and of tokens only grow, so a race that starts later has a later run and a later
token. That is all that keeps the tokens of races apart. -/

theorem Course.chronological (h : Course (.start layers attached) log tr) :
    tr.tokens.Chronological := by
  induction h with
  | start => exact TokenForest.chronological_empty
  | move _ hm ih => exact ih.grows (effect_of_move hm).tokens_grow

/-- The tokens of callers were made before their calls. -/
theorem Course.has_token (h : Course (.start layers attached) log tr)
    (hholds : ∀ ch ∈ log, ch.callerHolds) (hc : tr.calls[id]? = some c) :
    tr.tokens.Has c.token := by
  induction h generalizing c with
  | start => cases hc
  | @move log tr tr' m hcourse hm ih =>
    have heffect := effect_of_move hm
    obtain ⟨hbefore, hnow⟩ := List.forall_mem_append.mp hholds
    cases hold : tr.calls[id]? with
    | some c₀ =>
      obtain ⟨c₁, hc₁, htoken⟩ := heffect.exists_call hold
      obtain rfl := Option.some.inj (hc₁.symm.trans hc)
      rw [htoken]
      exact heffect.tokens_grow.has (ih hbefore hold)
    | none =>
      obtain ⟨token, stages, work, rfl, rfl⟩ := heffect.begins_of_new hold hc
      have hheld : tr.tokens.Has token := of_decide_eq_true (hnow _ (.head _))
      exact heffect.tokens_grow.has hheld

/-- A race that is on record has started. -/
theorem Course.raced (h : Course (.start layers attached) log tr)
    (hholds : ∀ ch ∈ log, ch.callerHolds) (hch : ch ∈ log)
    (hstarts : ch.StartsRace id run deadline) : tr.Raced id run deadline := by
  induction h with
  | start => cases hch
  | @move log tr tr' m hcourse hm ih =>
    obtain ⟨hbefore, -⟩ := List.forall_mem_append.mp hholds
    obtain hch | hch := List.mem_append.mp hch
    · exact (ih hbefore hch).effect (effect_of_move hm)
    · obtain rfl := List.mem_singleton.mp hch
      obtain ⟨-, rfl, rfl, c, timeout, script, hc, -, rfl⟩ :=
        exists_startRace_of_starts hcourse hm hstarts
      exact raced_startRace hc (hcourse.has_token hbefore hc) hcourse.chronological script timeout

/-- The token of a later race is a later one. -/
theorem Course.deadline_lt (h : Course (.start layers attached) log tr)
    (hholds : ∀ ch ∈ log, ch.callerHolds) {ch' : Change α} (hch : ch ∈ log) (hch' : ch' ∈ log)
    {id' run' : Nat} {deadline' : TokenId} (hstarts : ch.StartsRace id run deadline)
    (hstarts' : ch'.StartsRace id' run' deadline') (hlt : run < run') : deadline < deadline' := by
  induction h with
  | start => cases hch
  | @move log tr tr' m hcourse hm ih =>
    obtain ⟨hbefore, -⟩ := List.forall_mem_append.mp hholds
    obtain hch | hch := List.mem_append.mp hch
    · have hraced := hcourse.raced hbefore hch hstarts
      obtain hch' | hch' := List.mem_append.mp hch'
      · exact ih hbefore hch hch'
      · obtain rfl := List.mem_singleton.mp hch'
        obtain ⟨-, -, rfl, -⟩ := exists_startRace_of_starts hcourse hm hstarts'
        exact hraced.has
    -- No race that has started has a later run than the one that starts last.
    · obtain rfl := List.mem_singleton.mp hch
      obtain ⟨-, rfl, -⟩ := exists_startRace_of_starts hcourse hm hstarts
      obtain hch' | hch' := List.mem_append.mp hch'
      · exact absurd (hcourse.raced hbefore hch' hstarts').run_lt (Nat.lt_asymm hlt)
      · obtain rfl := List.mem_singleton.mp hch'
        obtain ⟨-, rfl, -⟩ := exists_startRace_of_starts hcourse hm hstarts'
        exact absurd hlt (Nat.lt_irrefl _)

/-- No two races share a token. -/
theorem Course.deadlines_apart (h : Course (.start layers attached) log tr)
    (hholds : ∀ ch ∈ log, ch.callerHolds) {ch' : Change α} (hch : ch ∈ log) (hch' : ch' ∈ log)
    {id' run' : Nat} {deadline' : TokenId} (hstarts : ch.StartsRace id run deadline)
    (hstarts' : ch'.StartsRace id' run' deadline') (hne : run ≠ run') : deadline ≠ deadline' := by
  obtain hlt | hgt := Nat.lt_or_gt_of_ne hne
  · exact Nat.ne_of_lt (h.deadline_lt hholds hch hch' hstarts hstarts' hlt)
  · exact Nat.ne_of_gt (h.deadline_lt hholds hch' hch hstarts' hstarts hgt)

/-! ## What the end of a race cancels -/

/-- What is cancelled where a call leaves a race hangs below the token of the race. -/
theorem mem_affected_of_cancels (hm : ch.before.move ch.move = some ch.after)
    (hleaves : ch.LeavesRace id run deadline) {t : TokenId} (h : ch.Cancels t) :
    t ∈ ch.before.tokens.affected deadline := by
  have hafter := h.after
  rw [tokens_of_leavesRace hm hleaves, TokenForest.isCancelled_retire, h.before] at hafter
  exact (hafter.resolve_left Bool.false_ne_true).1

theorem cancels_of_mem_affected (hm : ch.before.move ch.move = some ch.after)
    (hleaves : ch.LeavesRace id run deadline) {t : TokenId}
    (h : t ∈ ch.before.tokens.affected deadline) (hhas : ch.before.tokens.Has t) :
    ch.Cancels t := by
  refine ⟨(TokenForest.mem_affected h).1, ?_⟩
  rw [tokens_of_leavesRace hm hleaves]
  exact TokenForest.isCancelled_retire.mpr (.inr ⟨h, hhas⟩)

section Leaving

variable (hcourse : Course (.start layers attached) log ch.before)
  (hholds : ∀ ch ∈ log, ch.callerHolds) (hm : ch.before.move ch.move = some ch.after)
  (hleaves : ch.LeavesRace id run deadline)

include hcourse

/-- A race that a call leaves is on record. -/
theorem Course.exists_starts (hraces : ch.before.Races id run deadline) :
    ∃ ch₀ ∈ log, ch₀.StartsRace id run deadline := by
  obtain ⟨c, due, hc, hracing⟩ := hraces
  obtain ⟨-, -, hrace⟩ := hcourse.call (follows_race layers attached) hc
  obtain ⟨ch₀, hch₀, hstarts, -⟩ := hrace run deadline due hracing
  exact ⟨ch₀, hch₀, hstarts⟩

include hholds hm hleaves

/-- The token of the race is cancelled. -/
theorem Course.isCancelled_of_leavesRace : ch.after.tokens.isCancelled deadline = true := by
  obtain ⟨ch₀, hch₀, hstarts⟩ := hcourse.exists_starts hleaves.before
  rw [tokens_of_leavesRace hm hleaves]
  exact TokenForest.isCancelled_retire_self (hcourse.raced hholds hch₀ hstarts).has

/-- The caller's token is older than that, and cancelling only goes on to later ones. -/
theorem Course.not_cancels_caller (hc : ch.before.calls[id]? = some c) :
    ¬ ch.Cancels c.token := by
  intro hcancels
  obtain ⟨ch₀, hch₀, hstarts⟩ := hcourse.exists_starts hleaves.before
  obtain ⟨c₁, hc₁, holder, -⟩ := (hcourse.raced hholds hch₀ hstarts).hangs
  obtain rfl := Option.some.inj (hc.symm.trans hc₁)
  have hle := TokenForest.le_of_mem_affected hcourse.chronological
    (mem_affected_of_cancels hm hleaves hcancels)
  exact absurd holder (Nat.not_lt.mpr hle)

/-- Cancelling comes to the token of another race only by way of its caller's. -/
theorem Course.cancels_caller_of_cancels {ch₀ : Change α} (hch₀ : ch₀ ∈ log) {id' run' : Nat}
    {deadline' : TokenId} (hstarts : ch₀.StartsRace id' run' deadline') (hne : run' ≠ run)
    (hcancels : ch.Cancels deadline') :
    ∃ c', ch.before.calls[id']? = some c' ∧ ch.Cancels c'.token := by
  obtain ⟨ch₁, hch₁, hstarts₁⟩ := hcourse.exists_starts hleaves.before
  obtain ⟨c', hc', -, hhangs⟩ := (hcourse.raced hholds hch₀ hstarts).hangs
  have hapart := hcourse.deadlines_apart hholds hch₀ hch₁ hstarts hstarts₁ hne
  obtain ⟨-, hsame | ⟨p, hp, hmem⟩⟩ :=
    TokenForest.mem_affected (mem_affected_of_cancels hm hleaves hcancels)
  · exact absurd hsame hapart
  · obtain rfl := hhangs p hmem
    exact ⟨c', hc', cancels_of_mem_affected hm hleaves hp (hcourse.has_token hholds hc')⟩

end Leaving

end Traffic

end Safeguard
