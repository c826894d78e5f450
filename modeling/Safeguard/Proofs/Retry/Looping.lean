import Safeguard.Proofs.Executor.CuttingShort
import Safeguard.Proofs.Retry.Attempts

/-!
# What a retry loop comes to

Attempts are made one after the other, and each of them but the last ends in an error that the
predicate accepts, of which the hook is told once. The last one ends the loop with what it ended
in, or is followed by a pause in which the caller gives the call up. This file follows a call
through the loop: an invariant says where it is and what was seen of it so far, every step keeps
the invariant and spends some of the steps that are left, and nothing else disturbs the call.

## Main definitions

* `Retry.Lap`, `Retry.story`: attempts that were followed by another one, and what is seen of them.
* `Retry.Runs`: what is seen of a loop from its start to its return.
* `Retry.Loop.Phase`: the invariant.

## Main results

* `Retry.Loop.Phase.step`: a step of the call leads on, or out of the loop.
* `Retry.loop_exact`: what a retry loop comes to, in every course.
-/

namespace Safeguard.Retry

open Traffic (Advances Course)
open Resilience (Layers)

variable {α : Type}

/-! ## Stories -/

/-- What is seen of an attempt that failed and is to be followed by another one, until the loop
falls asleep. -/
def pausing (a : Attachments) (number : Nat) (e : CallError) (delay : Duration) (slept : Nat) :
    List (Act α) :=
  [.invokes number, .gets number (.error e)] ++ a.judged e ++ a.notified number delay e ++
    [.sleeps slept (slept + delay.millisUp)]

/-- An attempt that was followed by another one: its error, the delay after it, and the readings
of the clock between which the loop slept. -/
structure Lap where
  error : CallError
  delay : Duration
  slept : Nat
  woke : Nat

namespace Lap

/-- What is seen of it. -/
def acts (a : Attachments) (number : Nat) (lap : Lap) : List (Act α) :=
  pausing a number lap.error lap.delay lap.slept ++ [.wakes lap.woke false]

/-- The attempt can end in that error, the predicate accepted it, and the loop slept for the delay
of the configuration. -/
structure Fits (config : Config Float) (a : Attachments) (gives : Nat → Outcome α → Prop)
    (number : Nat) (lap : Lap) : Prop where
  gave : gives number (.error lap.error)
  accepted : a.accepts lap.error = true
  delay_eq : ∃ i, lap.delay = config.delay number (a.draw i)
  slept_le : lap.slept + lap.delay.millisUp ≤ lap.woke

end Lap

/-- What is seen of attempts that were followed by another one, counted from one. -/
def story (a : Attachments) (laps : List Lap) : List (Act α) :=
  (laps.mapIdx fun i lap => lap.acts a (i + 1)).flatten

theorem story_snoc (a : Attachments) (laps : List Lap) (lap : Lap) :
    (story a (laps ++ [lap]) : List (Act α)) = story a laps ++ lap.acts a (laps.length + 1) := by
  rw [story, List.mapIdx_concat, List.flatten_append]
  simp [story]

section Runs

variable (config : Config Float) (a : Attachments) (gives : Nat → Outcome α → Prop)

/-- All of them fit. -/
def Fit (laps : List Lap) : Prop :=
  ∀ (i : Nat) (lap : Lap), laps[i]? = some lap → lap.Fits config a gives (i + 1)

variable {config a gives} in
theorem Fit.snoc {laps : List Lap} {lap : Lap} (h : Fit config a gives laps)
    (hlap : lap.Fits config a gives (laps.length + 1)) : Fit config a gives (laps ++ [lap]) := by
  intro i lap' hi
  by_cases hlt : i < laps.length
  · exact h i lap' (by rwa [List.getElem?_append_left hlt] at hi)
  · have hlength := (List.getElem?_eq_some_iff.mp hi).1
    obtain rfl : i = laps.length := by
      rw [List.length_append, List.length_singleton] at hlength
      omega
    rw [List.getElem?_concat_length] at hi
    exact Option.some.inj hi ▸ hlap

/-- The predicate is asked about an outcome that is an error. -/
def judgedIn (a : Attachments) : Outcome α → List (Act α)
  | .error e => a.judged e
  | _ => []

/-- What is seen of a retry loop from its start to its return, if an attempt can give such
outcomes. -/
inductive Runs : List (Act α) → Outcome α → Prop where
  /-- No attempt is allowed, and none is made. -/
  | exhausted (none : config.maxAttempts = 0) :
      Runs [.returns (.error (.layer .attemptsExceeded))] (.error (.layer .attemptsExceeded))
  /-- The outcome of the last attempt is returned as it is. It is no error that is worth another
  attempt, or there is none left. -/
  | verbatim {laps : List Lap} {outcome : Outcome α} (fit : Fit config a gives laps)
      (left : laps.length + 1 ≤ config.maxAttempts.toNat) (gave : gives (laps.length + 1) outcome)
      (last : ∀ e, outcome = .error e →
        a.accepts e = false ∨ laps.length + 1 = config.maxAttempts.toNat) :
      Runs (story a laps ++ [.invokes (laps.length + 1), .gets (laps.length + 1) outcome] ++
        judgedIn a outcome ++ [.returns outcome]) outcome
  /-- The token is found cancelled after an attempt that was to be followed by another one. -/
  | cancelled {laps : List Lap} {e : CallError} {delay : Duration} {slept woke : Nat}
      (fit : Fit config a gives laps) (left : laps.length + 1 < config.maxAttempts.toNat)
      (gave : gives (laps.length + 1) (.error e)) (accepted : a.accepts e = true)
      (delay_eq : ∃ i, delay = config.delay (laps.length + 1) (a.draw i)) :
      Runs (story a laps ++ pausing a (laps.length + 1) e delay slept ++
        [.wakes woke true, .returns (.error (.layer .cancelled))]) (.error (.layer .cancelled))

end Runs

/-- What an attempt can end in: what the invocation of its number gives, or an error of the deadline
that it may be under. -/
def Gives (guarded : Prop) (script : List (Operation α)) (number : Nat) (outcome : Outcome α) :
    Prop :=
  (Operation.ofScript script number).Yields outcome ∨
    guarded ∧ (outcome = .error (.layer .timedOut) ∨ outcome = .error (.layer .cancelled))

/-! ## Where a call is in its loop -/

/-- A retry loop: its configuration, what is attached, the deadline if there is one, the stages that
every attempt enters, what the call is inside otherwise, and its operation. -/
structure Loop (α : Type) where
  config : Config Float
  attached : Attachments
  timeout : Option Duration
  inner : List Stage
  outside : List Frame
  script : List (Operation α)

namespace Loop

/-- How many attempts there can be. -/
def attempts (L : Loop α) : Nat := L.config.maxAttempts.toNat

/-- Whether its attempts are under a deadline. -/
def Guarded (L : Loop α) : Prop := .layer .timeout ∈ L.inner ∧ L.timeout.isSome = true

/-- What its attempts can end in. -/
def gives (L : Loop α) : Nat → Outcome α → Prop := Gives L.Guarded L.script

/-- Steps for the attempts that can follow the one that comes next. -/
def spare (L : Loop α) (laps : List Lap) : Nat := 5 * (L.attempts - laps.length - 1)

/-- A loop as calls come to it: nothing panics, only a deadline is inside, and no attempt is
outside. -/
structure Sound (L : Loop α) : Prop where
  returns : L.attached.RetryReturns
  inner : L.inner = [] ∨ L.inner = [.layer .timeout]
  outside : ∀ frame ∈ L.outside, frame.owner ≠ .retry

theorem Sound.short {L : Loop α} (hL : L.Sound) :
    L.inner = [] ∨ L.inner = [.layer .timeout] ∧ .layer .timeout ∈ L.inner :=
  hL.inner.imp_right fun h => ⟨h, h ▸ List.mem_singleton_self _⟩

theorem Sound.length_le {L : Loop α} (hL : L.Sound) : L.inner.length ≤ 1 := by
  obtain h | h := hL.inner
  · simp only [h, List.length_nil, Nat.zero_le]
  · simp only [h, List.length_singleton, Nat.le_refl]

/-- The call is in the attempt after some others. -/
structure Tries (L : Loop α) (laps : List Lap) (invocations : Nat) (c : Call α) : Prop where
  fit : Fit L.config L.attached L.gives laps
  left : laps.length < L.attempts
  frames : c.frames = .attempt (laps.length + 1) L.inner :: L.outside
  invocations : c.invocations = invocations

/-- Where a call is in its loop, what was seen of it, and how many steps it can still take until it
returns. -/
inductive Phase (L : Loop α) : Nat → Call α → List (Act α) → Prop where
  /-- It is about to start its first attempt. -/
  | comes {c : Call α} (coming : c.activity = .entering (.layer .retry :: L.inner))
      (frames : c.frames = L.outside) (fresh : c.invocations = 0) :
      Phase L (5 * L.attempts + 1) c []
  /-- It enters an attempt. -/
  | enters {c : Call α} {laps : List Lap} {stages : List Stage} (tries : L.Tries laps laps.length c)
      (entering : c.activity = .entering stages)
      (short : stages = [] ∨ stages = [.layer .timeout] ∧ .layer .timeout ∈ L.inner) :
      Phase L (L.spare laps + 4 + stages.length) c (story L.attached laps)
  /-- It runs its operation, which ends by itself if all that are listed do. -/
  | operates {c : Call α} {laps : List Lap} {due : Option Nat}
      (tries : L.Tries laps (laps.length + 1) c)
      (operating : c.activity =
        .operating (laps.length + 1) (.ofScript L.script (laps.length + 1)) due)
      (ends : (∀ op ∈ L.script, op.delay.isSome = true) → due.isSome = true) :
      Phase L (L.spare laps + 3) c (story L.attached laps ++ [.invokes (laps.length + 1)])
  /-- It waits for its operation under a deadline. -/
  | races {c : Call α} {laps : List Lap} {run due : Nat} {deadline : TokenId}
      (tries : L.Tries laps (laps.length + 1) c)
      (racing : c.activity = .racing run deadline due) (guarded : L.Guarded) :
      Phase L (L.spare laps + 3) c (story L.attached laps ++ [.invokes (laps.length + 1)])
  /-- It leaves an attempt. -/
  | leaves {c : Call α} {laps : List Lap} {outcome : Outcome α}
      (tries : L.Tries laps (laps.length + 1) c) (gave : L.gives (laps.length + 1) outcome)
      (leaving : c.activity = .leaving outcome) :
      Phase L (L.spare laps + 2) c (story L.attached laps ++ [.invokes (laps.length + 1)])
  /-- It sleeps after an attempt. -/
  | pauses {c : Call α} {laps : List Lap} {e : CallError} {delay : Duration} {slept : Nat}
      (tries : L.Tries laps (laps.length + 1) c) (gave : L.gives (laps.length + 1) (.error e))
      (accepted : L.attached.accepts e = true) (follows : laps.length + 1 < L.attempts)
      (delay_eq : ∃ i, delay = L.config.delay (laps.length + 1) (L.attached.draw i))
      (sleeping : c.activity = .pausing (slept + delay.millisUp)) :
      Phase L (L.spare laps + 1) c
        (story L.attached laps ++ pausing L.attached (laps.length + 1) e delay slept)

/-- The call has returned from the loop, and goes outwards or has ended. -/
structure Returned (L : Loop α) (c : Call α) (acts : List (Act α)) : Prop where
  runs : ∃ outcome, Runs L.config L.attached L.gives acts outcome
  outwards : c.activity = .ended ∨ ∃ outcome, c.activity = .leaving outcome
  outside : ∀ frame ∈ c.frames, frame.owner ≠ .retry

variable {L : Loop α} {tr tr' : Traffic α} {id rank : Nat} {c c' : Call α}
  {acts : List (Act α)} {laps : List Lap}

/-- After a step the call is further in the loop, or has returned. -/
def Leads (L : Loop α) (rank : Nat) (c' : Call α) (acts : List (Act α)) : Prop :=
  (∃ rank' < rank, L.Phase rank' c' acts) ∨ L.Returned c' acts

theorem Tries.inLoop {n : Nat} (h : L.Tries laps n c) : c.inLoop = true := by
  simp only [Call.inLoop, h.frames]

theorem inLoop_of_coming {inner : List Stage}
    (hcoming : c.activity = .entering (.layer .retry :: inner)) : c.inLoop = true := by
  unfold Call.inLoop
  split
  · rfl
  · rfl
  · rename_i hnot
    exact (hnot inner hcoming).elim

theorem inLoop_outside (hframes : ∀ frame ∈ c.frames, frame.owner ≠ .retry)
    (houtwards : c.activity = .ended ∨ ∃ outcome, c.activity = .leaving outcome) :
    c.inLoop = false := by
  unfold Call.inLoop
  split
  · rename_i number inner outside hattempt
    exact absurd rfl (hframes (.attempt number inner) (by rw [hattempt]; exact .head _))
  · rename_i hentering _
    obtain hended | ⟨outcome, hleaving⟩ := houtwards
    · cases hentering.symm.trans hended
    · cases hentering.symm.trans hleaving
  · rfl

theorem leads_in {events : List (Event α)} {rank' : Nat} (hlt : rank' < rank)
    (hin : c'.inLoop = true)
    (hphase : L.Phase rank' c' (acts ++ (c.gets ++ c.wakes tr.clock (tr.givenUp c) ++
      events.filterMap Event.act? ++ c'.sleeps tr.clock))) :
    L.Leads rank c' (acts ++ seen tr c events c') := by
  -- Nothing is returned as long as the call stays in the loop.
  have hreturns : c.returns c' = [] := by
    unfold Call.returns
    split <;> simp_all
  rw [seen, hreturns, List.append_nil]
  exact .inl ⟨rank', hlt, hphase⟩

theorem leads_out (hL : L.Sound) {events : List (Event α)} {outcome : Outcome α}
    (hin : c.inLoop = true) (hframes : c'.frames = L.outside)
    (hleaving : c'.activity = .leaving outcome)
    (hruns : Runs L.config L.attached L.gives (acts ++ (c.gets ++ c.wakes tr.clock (tr.givenUp c) ++
      events.filterMap Event.act? ++ [.returns outcome])) outcome) :
    L.Leads rank c' (acts ++ seen tr c events c') := by
  have houtside : ∀ frame ∈ c'.frames, frame.owner ≠ .retry := by
    rw [hframes]
    exact hL.outside
  have hout := inLoop_outside houtside (.inr ⟨outcome, hleaving⟩)
  refine .inr ⟨⟨outcome, ?_⟩, .inr ⟨outcome, hleaving⟩, houtside⟩
  simp only [seen, Call.sleeps, Call.returns, hin, hout, hleaving, List.append_nil]
  exact hruns

/-! ## Steps -/

/-- If all operations that are listed end by themselves, so does every invocation. -/
theorem isSome_delay_ofScript {script : List (Operation α)}
    (h : ∀ op ∈ script, op.delay.isSome = true) (number : Nat) :
    (Operation.ofScript script number).delay.isSome = true := by
  unfold Operation.ofScript
  cases hnumber : script[number - 1]? with
  | some op => exact h op (List.mem_of_getElem? hnumber)
  | none =>
    -- The last one goes on for ever, and without any there is nothing to wait for.
    cases hlast : script.getLast? with
    | some op => exact h op (List.mem_of_getLast? hlast)
    | none => rfl

/-- A call that comes to the retry layer starts the first attempt, or returns. -/
theorem leads_of_coming (hL : L.Sound) (hretry : tr.layers.retry = some L.config)
    (hc : tr.calls[id]? = some c) (hcoming : c.activity = .entering (.layer .retry :: L.inner))
    (hframes : c.frames = L.outside) (hfresh : c.invocations = 0)
    (hstep : tr.step id = some tr') :
    ∃ c' events, Advances tr tr' id c' events ∧
      L.Leads (5 * L.attempts + 1) c' ([] ++ seen tr c events c') := by
  have hgets : c.gets = [] := by
    unfold Call.gets
    split <;> simp_all
  have hwakes : c.wakes tr.clock (tr.givenUp c) = [] := by simp only [Call.wakes, hcoming]
  have hin := inLoop_of_coming hcoming
  obtain ⟨hnone, hadvances⟩ | ⟨hsome, hadvances⟩ :=
    Traffic.advances_coming hc hcoming hretry hstep
  · refine ⟨_, _, hadvances, leads_out hL hin hframes rfl ?_⟩
    rw [hgets, hwakes]
    exact .exhausted hnone
  · have hpos : 0 < L.attempts := Nat.pos_of_ne_zero fun h => hsome (UInt32.toNat_inj.mp h)
    have htries : L.Tries [] 0
        { c with frames := .attempt 1 L.inner :: c.frames, activity := .entering L.inner } :=
      { fit := fun i lap hi => nomatch hi
        left := hpos
        frames := by rw [hframes]; rfl
        invocations := hfresh }
    have hlt : L.spare [] + 4 + L.inner.length < 5 * L.attempts + 1 := by
      have hshort := hL.length_le
      simp only [spare, List.length_nil]
      omega
    refine ⟨_, _, hadvances, leads_in hlt htries.inLoop ?_⟩
    rw [hgets, hwakes]
    exact .enters htries rfl hL.short

/-- A call that enters an attempt passes an absent deadline, or invokes its operation. -/
theorem leads_of_entering (htimeout : tr.layers.timeout = L.timeout) (hc : tr.calls[id]? = some c)
    (hwork : c.work = .operation L.script) (htries : L.Tries laps laps.length c)
    {stages : List Stage} (hentering : c.activity = .entering stages)
    (hshort : stages = [] ∨ stages = [.layer .timeout] ∧ .layer .timeout ∈ L.inner)
    (hstep : tr.step id = some tr') :
    ∃ c' events, Advances tr tr' id c' events ∧
      L.Leads (L.spare laps + 4 + stages.length) c'
        (story L.attached laps ++ seen tr c events c') := by
  have hgets : c.gets = [] := by simp only [Call.gets, htries.frames, hentering]
  have hwakes : c.wakes tr.clock (tr.givenUp c) = [] := by simp only [Call.wakes, hentering]
  have hevents : ([.invoked (c.invocations + 1) (tr.givenUp c)] : List (Event α)).filterMap
      Event.act? = [.invokes (laps.length + 1)] := by
    rw [htries.invocations]
    rfl
  -- Its operation is invoked once more.
  have hinvoked (a : Activity α) (since : Nat) : L.Tries laps (laps.length + 1)
      { c with invocations := c.invocations + 1, activity := a, since := since } :=
    ⟨htries.fit, htries.left, htries.frames, congrArg (· + 1) htries.invocations⟩
  obtain rfl | ⟨rfl, hinner⟩ := hshort
  · obtain ⟨since, hadvances⟩ := Traffic.advances_invoking hc hentering hwork hstep
    refine ⟨_, _, hadvances, leads_in (Nat.lt_succ_self _) (hinvoked _ since).inLoop ?_⟩
    rw [hgets, hwakes, hevents]
    refine .operates (hinvoked _ since) (by rw [htries.invocations]) fun hends => ?_
    rw [Operation.due, Option.isSome_map]
    exact isSome_delay_ofScript hends _
  · obtain hadvances | ⟨hlimit, run, deadline, due, since, hadvances⟩ :=
      Traffic.advances_racing hc hentering hwork hstep
    · have hpassed : L.Tries laps laps.length { c with activity := .entering [] } :=
        ⟨htries.fit, htries.left, htries.frames, htries.invocations⟩
      refine ⟨_, _, hadvances, leads_in (Nat.lt_succ_self _) hpassed.inLoop ?_⟩
      rw [hgets, hwakes]
      simpa [Call.sleeps] using Phase.enters hpassed rfl (.inl rfl)
    · have hlt : L.spare laps + 3 < L.spare laps + 4 + [Stage.layer .timeout].length :=
        Nat.lt_succ_of_lt (Nat.lt_succ_self _)
      refine ⟨_, _, hadvances, leads_in hlt (hinvoked _ since).inLoop ?_⟩
      rw [hgets, hwakes, hevents]
      exact .races (hinvoked _ since) rfl ⟨hinner, htimeout ▸ hlimit⟩

/-- A call that waits for its operation leaves the attempt when it waits no more. -/
theorem leads_of_waiting {events : List (Event α)} {outcome : Outcome α}
    (htries : L.Tries laps (laps.length + 1) c) (hgets : c.gets = [])
    (hwakes : c.wakes tr.clock (tr.givenUp c) = []) (hgave : L.gives (laps.length + 1) outcome)
    (hevents : events = []) :
    L.Leads (L.spare laps + 3) { c with activity := .leaving outcome }
      (story L.attached laps ++ [.invokes (laps.length + 1)] ++
        seen tr c events { c with activity := .leaving outcome }) := by
  have hleft : L.Tries laps (laps.length + 1) { c with activity := .leaving outcome } :=
    ⟨htries.fit, htries.left, htries.frames, htries.invocations⟩
  refine leads_in (Nat.lt_succ_self _) hleft.inLoop ?_
  rw [hgets, hwakes, hevents]
  simpa [Call.sleeps] using Phase.leaves hleft hgave rfl

/-- A call that leaves an attempt returns, or falls asleep. -/
theorem leads_of_leaving (hL : L.Sound) (hretry : tr.layers.retry = some L.config)
    (hattached : tr.attached = L.attached) (hc : tr.calls[id]? = some c)
    (htries : L.Tries laps (laps.length + 1) c) {outcome : Outcome α}
    (hgave : L.gives (laps.length + 1) outcome) (hleaving : c.activity = .leaving outcome)
    (hstep : tr.step id = some tr') :
    ∃ c' events, Advances tr tr' id c' events ∧
      L.Leads (L.spare laps + 2) c'
        (story L.attached laps ++ [.invokes (laps.length + 1)] ++ seen tr c events c') := by
  have hgets : c.gets = [.gets (laps.length + 1) outcome] := by
    simp only [Call.gets, htries.frames, hleaving]
  have hwakes : c.wakes tr.clock (tr.givenUp c) = [] := by simp only [Call.wakes, hleaving]
  have hleft := htries.left
  -- It returns what the attempt ended in, if that is no error that another attempt may follow.
  have hreturned {events : List (Event α)}
      (hevents : events.filterMap Event.act? = judgedIn L.attached outcome)
      (hlast : ∀ e, outcome = .error e →
        L.attached.accepts e = false ∨ laps.length + 1 = L.attempts) :
      L.Leads (L.spare laps + 2) { c with frames := L.outside, activity := .leaving outcome }
        (story L.attached laps ++ [.invokes (laps.length + 1)] ++ seen tr c events
          { c with frames := L.outside, activity := .leaving outcome }) := by
    refine leads_out hL htries.inLoop rfl rfl ?_
    have hruns := Runs.verbatim htries.fit hleft hgave hlast
    rw [hgets, hwakes, hevents]
    simpa using hruns
  -- Only after an error that the predicate accepts can there be another attempt.
  cases outcome with
  | error e =>
    obtain ⟨hends, hadvances⟩ | ⟨hfollows, delay, since, hdelay, hadvances⟩ :=
      Traffic.advances_failed hc hleaving htries.frames hretry (hattached ▸ hL.returns) hstep
    · refine ⟨_, _, hadvances, hreturned ?_ fun e' he => ?_⟩
      · rw [Attachments.act?_judgement, hattached]
        rfl
      · obtain rfl := Outcome.error.inj he
        rw [hattached, Bool.and_eq_false_iff] at hends
        refine hends.imp_right fun hlast => ?_
        exact Nat.le_antisymm hleft (Nat.le_of_not_lt (of_decide_eq_false hlast))
    · rw [hattached] at hfollows hdelay
      obtain ⟨haccepts, hmore⟩ := Bool.and_eq_true_iff.mp hfollows
      have hmore : laps.length + 1 < L.attempts := of_decide_eq_true hmore
      have hasleep : L.Tries laps (laps.length + 1)
          { c with activity := .pausing (tr.dueIn delay), since := since } :=
        ⟨htries.fit, htries.left, htries.frames, htries.invocations⟩
      refine ⟨_, _, hadvances, leads_in (Nat.lt_succ_self _) hasleep.inLoop ?_⟩
      rw [hgets, hwakes, List.filterMap_append, Attachments.act?_judgement,
        Attachments.act?_notice, hattached]
      have hpauses := Phase.pauses hasleep hgave haccepts hmore ⟨_, hdelay⟩ rfl
      simpa [pausing, Call.sleeps, Traffic.dueIn] using hpauses
  | value v =>
    have hadvances := Traffic.advances_unfailing hc hleaving htries.frames nofun hstep
    exact ⟨_, _, hadvances, hreturned rfl nofun⟩
  | panic message =>
    have hadvances := Traffic.advances_unfailing hc hleaving htries.frames nofun hstep
    exact ⟨_, _, hadvances, hreturned rfl nofun⟩

/-- A call whose pause ends starts the next attempt, or returns the cancellation. -/
theorem leads_of_pausing (hL : L.Sound) (hc : tr.calls[id]? = some c)
    (htries : L.Tries laps (laps.length + 1) c) {e : CallError} {delay : Duration} {slept : Nat}
    (hgave : L.gives (laps.length + 1) (.error e)) (haccepts : L.attached.accepts e = true)
    (hfollows : laps.length + 1 < L.attempts)
    (hdelay : ∃ i, delay = L.config.delay (laps.length + 1) (L.attached.draw i))
    (hsleeping : c.activity = .pausing (slept + delay.millisUp)) (hstep : tr.step id = some tr') :
    ∃ c' events, Advances tr tr' id c' events ∧
      L.Leads (L.spare laps + 1) c' (story L.attached laps ++
        pausing L.attached (laps.length + 1) e delay slept ++ seen tr c events c') := by
  have hgets : c.gets = [] := by simp only [Call.gets, htries.frames, hsleeping]
  have hwakes : c.wakes tr.clock (tr.givenUp c) = [.wakes tr.clock (tr.givenUp c)] := by
    simp only [Call.wakes, hsleeping]
  obtain ⟨hgaveUp, hadvances⟩ | ⟨hgoing, hdue, hadvances⟩ :=
    Traffic.advances_pausing hc hsleeping htries.frames hstep
  · refine ⟨_, _, hadvances, leads_out hL htries.inLoop rfl rfl ?_⟩
    rw [hgets, hwakes, hgaveUp]
    exact Runs.cancelled htries.fit hfollows hgave haccepts hdelay
  · -- The attempt joins those that were followed by another one.
    let lap : Lap := ⟨e, delay, slept, tr.clock⟩
    have hfits : lap.Fits L.config L.attached L.gives (laps.length + 1) :=
      ⟨hgave, haccepts, hdelay, hdue⟩
    have hlength : (laps ++ [lap]).length = laps.length + 1 := List.length_append
    have hnext : L.Tries (laps ++ [lap]) (laps ++ [lap]).length
        { c with
          frames := .attempt (laps.length + 1 + 1) L.inner :: L.outside
          activity := .entering L.inner } :=
      { fit := htries.fit.snoc hfits
        left := by rw [hlength]; exact hfollows
        frames := by rw [hlength]
        invocations := htries.invocations.trans hlength.symm }
    have hlt : L.spare (laps ++ [lap]) + 4 + L.inner.length < L.spare laps + 1 := by
      have hshort := hL.length_le
      simp only [spare, hlength]
      omega
    refine ⟨_, _, hadvances, leads_in hlt hnext.inLoop ?_⟩
    have henters := Phase.enters hnext rfl hL.short
    rw [story_snoc] at henters
    rw [hgets, hwakes, hgoing]
    simpa [Lap.acts, lap, Call.sleeps] using henters

/-- The traffic has the layers and the attachments of a loop, and the call its operation. -/
structure Serves (L : Loop α) (tr : Traffic α) (c : Call α) : Prop where
  retry : tr.layers.retry = some L.config
  timeout : tr.layers.timeout = L.timeout
  attached : tr.attached = L.attached
  work : c.work = .operation L.script
  /-- The run that the call waits for gives what its operation gives. -/
  won : ∀ run deadline due outcome, c.activity = .racing run deadline due →
    tr.runOutcome run = some outcome → (Operation.ofScript L.script c.invocations).Yields outcome

/-- **A step of the call** leads on in the loop and leaves fewer steps, or out of it. -/
theorem Phase.step (h : L.Phase rank c acts) (hL : L.Sound) (hserves : L.Serves tr c)
    (hc : tr.calls[id]? = some c) (hstep : tr.step id = some tr') :
    ∃ c' events, Advances tr tr' id c' events ∧ L.Leads rank c' (acts ++ seen tr c events c') := by
  cases h with
  | comes coming frames fresh =>
    exact leads_of_coming hL hserves.retry hc coming frames fresh hstep
  | enters tries entering short =>
    exact leads_of_entering hserves.timeout hc hserves.work tries entering short hstep
  | operates tries operating =>
    obtain ⟨outcome, hyields, hadvances⟩ := Traffic.advances_operating hc operating hstep
    have hgets : c.gets = [] := by simp only [Call.gets, tries.frames, operating]
    have hwakes : c.wakes tr.clock (tr.givenUp c) = [] := by simp only [Call.wakes, operating]
    exact ⟨_, _, hadvances, leads_of_waiting tries hgets hwakes (.inl hyields) rfl⟩
  | races tries racing guarded =>
    obtain ⟨outcome, hended, hadvances⟩ := Traffic.advances_raced hc racing hstep
    have hgets : c.gets = [] := by simp only [Call.gets, tries.frames, racing]
    have hwakes : c.wakes tr.clock (tr.givenUp c) = [] := by simp only [Call.wakes, racing]
    refine ⟨_, _, hadvances, leads_of_waiting tries hgets hwakes ?_ rfl⟩
    obtain hended | hgaveUp := hended
    · have hyields := hserves.won _ _ _ _ racing hended
      rw [tries.invocations] at hyields
      exact .inl hyields
    · exact .inr ⟨guarded, hgaveUp⟩
  | leaves tries gave leaving =>
    exact leads_of_leaving hL hserves.retry hserves.attached hc tries gave leaving hstep
  | pauses tries gave accepted follows delay_eq sleeping =>
    exact leads_of_pausing hL hc tries gave accepted follows delay_eq sleeping hstep

/-- Nothing more is seen of a loop that has returned. -/
theorem Returned.step (h : L.Returned c acts) (hc : tr.calls[id]? = some c)
    (hstep : tr.step id = some tr') :
    ∃ c' events, Advances tr tr' id c' events ∧ L.Returned c' (acts ++ seen tr c events c') := by
  obtain ⟨hruns, hended | ⟨outcome, hleaving⟩, houtside⟩ := h
  · rw [Traffic.step_eq hc, hended] at hstep
    cases hstep
  · obtain ⟨c', events, hadvances, hnone, houtwards, houtside'⟩ :=
      Traffic.advances_outside hc hleaving houtside hstep
    refine ⟨c', events, hadvances, ?_, houtwards, houtside'⟩
    have hgets : c.gets = [] := by
      unfold Call.gets
      split
      · rename_i number inner outside outcome' hattempt _
        exact absurd rfl (houtside (.attempt number inner) (by rw [hattempt]; exact .head _))
      · rfl
    have hwakes : c.wakes tr.clock (tr.givenUp c) = [] := by simp only [Call.wakes, hleaving]
    have hsleeps : c'.sleeps tr.clock = [] := by
      obtain hended | ⟨outcome', hleaving'⟩ := houtwards
      · simp only [Call.sleeps, hended]
      · simp only [Call.sleeps, hleaving']
    have hreturns : c.returns c' = [] := by
      simp only [Call.returns, inLoop_outside houtside (.inr ⟨outcome, hleaving⟩)]
    rw [seen, hgets, hwakes, hnone, hsleeps, hreturns]
    simpa using hruns

/-- A call in the loop can take its next step at once or after some time, if its operation ends by
itself. -/
theorem Phase.exists_step (h : L.Phase rank c acts)
    (hends : ∀ op ∈ L.script, op.delay.isSome = true) (hc : tr.calls[id]? = some c) :
    ∃ millis tr', { tr with clock := tr.clock + millis }.step id = some tr' := by
  have hdue {due : Nat} (hdue : c.activity.due? = some due) :
      ∃ millis tr', { tr with clock := tr.clock + millis }.step id = some tr' :=
    ⟨due, Traffic.exists_step_of_due hc hdue (Nat.le_add_left ..)⟩
  have hnow {stages : List Stage} (hentering : c.activity = .entering stages) :
      ∃ millis tr', { tr with clock := tr.clock + millis }.step id = some tr' :=
    ⟨0, _, (Traffic.step_eq hc).trans (by rw [hentering])⟩
  cases h with
  | comes coming => exact hnow coming
  | enters _ entering => exact hnow entering
  | operates _ operating ends =>
    obtain ⟨tick, rfl⟩ := Option.isSome_iff_exists.mp (ends hends)
    exact hdue (by rw [operating]; rfl)
  | races _ racing => exact hdue (by rw [racing]; rfl)
  | leaves _ _ leaving => exact ⟨0, _, (Traffic.step_eq hc).trans (by rw [leaving])⟩
  | pauses _ _ _ _ _ sleeping => exact hdue (by rw [sleeping]; rfl)

/-- A call in the loop has come to it, or is in one of its attempts. -/
theorem Phase.coming_or_tries (h : L.Phase rank c acts) :
    (c.activity = .entering (.layer .retry :: L.inner) ∧ c.frames = L.outside) ∨
      ∃ laps n, L.Tries laps n c := by
  cases h with
  | comes coming frames => exact .inl ⟨coming, frames⟩
  | enters tries | operates tries | races tries | leaves tries | pauses tries =>
    exact .inr ⟨_, _, tries⟩

/-- The attempts that a call in the loop is inside are among those that are allowed. -/
theorem Phase.number_le (h : L.Phase rank c acts) (hL : L.Sound) {number : Nat}
    {stages : List Stage} (hmem : .attempt number stages ∈ c.frames) :
    1 ≤ number ∧ number ≤ L.attempts := by
  have houtside : ¬ .attempt number stages ∈ L.outside := fun hin => hL.outside _ hin rfl
  obtain ⟨-, hframes⟩ | ⟨laps, n, htries⟩ := h.coming_or_tries
  · exact absurd (hframes ▸ hmem) houtside
  · rw [htries.frames] at hmem
    obtain hnow | hin := List.mem_cons.mp hmem
    · obtain ⟨rfl, -⟩ := Frame.attempt.inj hnow
      exact ⟨Nat.succ_pos _, htries.left⟩
    · exact absurd hin houtside

theorem Phase.inLoop (h : L.Phase rank c acts) : c.inLoop = true := by
  obtain ⟨hcoming, -⟩ | ⟨laps, n, htries⟩ := h.coming_or_tries
  · exact inLoop_of_coming hcoming
  · exact htries.inLoop

/-- A call has some steps left until it returns. -/
theorem Phase.pos (h : L.Phase rank c acts) : 0 < rank := by
  cases h <;> omega

/-! ## Courses -/

/-- Where the call is after a course: in the loop, or out of it. -/
def Stands (L : Loop α) (id : Nat) (log : List (Change α)) (c : Call α) : Prop :=
  (∃ rank, L.Phase rank c (Retry.acts id log) ∧ steps id log + rank ≤ 5 * L.attempts + 1) ∨
    L.Returned c (Retry.acts id log)

theorem Stands.step {log : List (Change α)} (h : L.Stands id log c) (hL : L.Sound)
    (hserves : L.Serves tr c) (hc : tr.calls[id]? = some c) (hstep : tr.step id = some tr') :
    ∃ c', tr'.calls[id]? = some c' ∧ L.Stands id (log ++ [⟨tr, .step id, tr'⟩]) c' := by
  obtain ⟨rank, hphase, hsteps⟩ | hreturned := h
  · obtain ⟨c', events, hadvances, hleads⟩ := hphase.step hL hserves hc hstep
    refine ⟨c', hadvances.call, ?_⟩
    rw [Stands, Traffic.acts_snoc hc hadvances, Traffic.steps_snoc]
    refine hleads.imp_left fun ⟨rank', hlt, hphase'⟩ => ⟨rank', hphase', ?_⟩
    omega
  · obtain ⟨c', events, hadvances, hreturned'⟩ := hreturned.step hc hstep
    refine ⟨c', hadvances.call, .inr ?_⟩
    rwa [Traffic.acts_snoc hc hadvances]

theorem Stands.other {log : List (Change α)} (h : L.Stands id log c) {ch : Change α}
    (hother : ch.move ≠ .step id) : L.Stands id (log ++ [ch]) c := by
  obtain ⟨hacts, hsteps⟩ := Traffic.acts_other hother log
  rwa [Stands, hacts, hsteps]

section Course

variable {layers : Layers} {attached : Attachments} {log pre : List (Change α)} {token : TokenId}
  {stages : List Stage}

/-- The course of a call in its loop serves the loop. -/
theorem serves_of_course (hcourse : Course (.start layers attached) log tr)
    (ho : (origins log)[id]? = some ⟨token, stages, .operation L.script⟩)
    (hretry : layers.retry = some L.config) (htimeout : layers.timeout = L.timeout)
    (hattached : attached = L.attached) (hc : tr.calls[id]? = some c) : L.Serves tr c := by
  have hwork := (hcourse.call_of_origin (Traffic.follows_origin _) hc ho).2 L.script rfl
  have hpolicies := hcourse.keeps (f := fun tr => (tr.layers.retry, tr.layers.timeout))
    fun heffect => Prod.ext heffect.policies_eq.1 heffect.policies_eq.2
  obtain ⟨hretry', htimeout'⟩ := Prod.mk.inj hpolicies
  refine ⟨hretry'.trans hretry, htimeout'.trans htimeout,
    (hcourse.keeps Traffic.Effect.attached_eq).trans hattached, hwork, ?_⟩
  intro run deadline due outcome hracing hended
  exact (Executor.lastInvocation_of_racing hcourse hc hwork hracing hended).yields

/-- Only its own steps and a drop do anything to a call with an operation. -/
theorem call_of_other {m : Move α} (heffect : Traffic.Effect tr m tr')
    (hc : tr.calls[id]? = some c) (hstep : m ≠ .step id) (hdrop : m ≠ .drop id)
    (script : List (Operation α))
    (hwork : ∀ c', tr'.calls[id]? = some c' → c'.work = .operation script) :
    tr'.calls[id]? = some c := by
  obtain ⟨c', hc', hfares⟩ := heffect.exists_fares hc
  cases hfares with
  | stepped hm => exact absurd hm hstep
  | dropped hm => exact absurd hm hdrop
  | told => cases hwork _ hc'
  | kept => exact hc'

/-- Whatever happens besides, a call that is not dropped goes through its loop. -/
theorem exists_stands (hL : L.Sound) (hpre : Course (.start layers attached) pre tr)
    (ho : (origins pre)[id]? = some ⟨token, stages, .operation L.script⟩)
    (hretry : layers.retry = some L.config) (htimeout : layers.timeout = L.timeout)
    (hattached : attached = L.attached) (hc : tr.calls[id]? = some c)
    (hphase : L.Phase (5 * L.attempts + 1) c []) (hlog : Course tr log tr')
    (hdrop : ∀ ch ∈ log, ch.move ≠ .drop id) :
    ∃ c', tr'.calls[id]? = some c' ∧ L.Stands id log c' := by
  -- Its own steps lead the call on, and whatever else happens leaves it where it is.
  induction hlog with
  | start => exact ⟨c, hc, .inl ⟨_, hphase, Nat.le_of_eq (Nat.zero_add _)⟩⟩
  | @move log tr₁ tr₂ m hlog hm ih =>
    obtain ⟨c₁, hc₁, hstands⟩ := ih fun ch hch => hdrop ch (List.mem_append_left _ hch)
    have hcourse := hpre.append hlog
    have horigin : (origins (pre ++ log))[id]? = some ⟨token, stages, .operation L.script⟩ :=
      Traffic.origins_getElem?_append _ ho
    by_cases hstep : m = .step id
    · subst hstep
      have hserves := serves_of_course hcourse horigin hretry htimeout hattached hc₁
      exact hstands.step hL hserves hc₁ hm
    · refine ⟨c₁, ?_, hstands.other hstep⟩
      refine call_of_other (Traffic.effect_of_move hm) hc₁ hstep
        (hdrop _ (List.mem_append_right _ (.head _))) L.script fun c' hc' => ?_
      exact ((hcourse.move hm).call_of_origin (Traffic.follows_origin _) hc'
        (Traffic.origins_getElem?_append _ horigin)).2 L.script rfl

/-- Only a deadline can be inside the retry layer. -/
theorem inner_cases {inner : List Stage}
    (h : Layer.Ordered (.retry :: inner.map Stage.owner)) :
    inner = [] ∨ inner = [.layer .timeout] := by
  have hdeeper {l l' : Layer} (h : l.depth < l'.depth) (hl : Layer.retry.depth ≤ l.depth) :
      l = .retry ∧ l' = .timeout := by
    cases l <;> cases l' <;> simp_all [Layer.depth]
  cases inner with
  | nil => exact .inl rfl
  | cons st rest =>
    obtain ⟨hfirst, hrest⟩ := List.pairwise_cons.mp h
    obtain ⟨-, howner⟩ := hdeeper (hfirst st.owner (.head _)) (Nat.le_refl _)
    have hst : st = .layer .timeout := by
      cases st with
      | layer l => exact congrArg Stage.layer howner
      | tokens n => cases howner
    cases rest with
    | nil => exact .inr (by rw [hst])
    | cons st' rest =>
      have hlt := (List.pairwise_cons.mp hrest).1 st'.owner (.head _)
      obtain ⟨hretry, -⟩ := hdeeper hlt (by rw [howner]; decide)
      rw [howner] at hretry
      cases hretry

/-- A call that comes to the retry layer has its loop before it. -/
theorem sound_of_coming (hpre : Course (.start layers attached) pre tr) {o : Origin α}
    (ho : (origins pre)[id]? = some o) (hordered : Layer.Ordered (o.stages.map Stage.owner))
    (hc : tr.calls[id]? = some c) {inner : List Stage}
    (hcoming : c.activity = .entering (.layer .retry :: inner)) :
    c.invocations = 0 ∧ (inner = [] ∨ inner = [.layer .timeout]) ∧
      ∀ frame ∈ c.frames, frame.owner ≠ .retry := by
  have hahead : c.activity.ahead = .layer .retry :: inner := by rw [hcoming]; rfl
  have huntouched := hpre.call_of_origin (Traffic.follows_untouched layers attached) hc ho hordered
    .retry (by rw [hahead]; exact .head _) nofun
  have hroute := (hpre.call_of_origin (Traffic.follows_route _) hc ho hordered).1.ahead
  rw [hahead, List.map_cons] at hroute
  refine ⟨huntouched.uninvoked, inner_cases (hordered.sublist hroute.sublist), ?_⟩
  intro frame hmem howner
  have hlt := huntouched.outside frame hmem
  rw [howner] at hlt
  exact Nat.lt_irrefl _ hlt

end Course

end Loop

/-- **The retry loop, exactly.** A call comes to the retry layer, nothing that is attached to the
layer panics, and the call is not dropped. Then in every course, whatever else happens and whenever
its token is cancelled:

* it is never in an attempt beyond those that are allowed, so their number does not overflow;
* it has returned, and what was seen of it from its arrival on is a run of the loop; or
* it has not returned, has taken at most five steps for each attempt, and can take its next one at
  once or after some time, if its operations end by themselves.
-/
theorem loop_exact {layers : Layers} {attached : Attachments} {config : Config Float}
    {pre log : List (Change α)} {tr tr' : Traffic α} {id : Nat} {c : Call α} {token : TokenId}
    {stages inner : List Stage} {script : List (Operation α)}
    (hretry : layers.retry = some config) (hreturns : attached.RetryReturns)
    (hpre : Course (.start layers attached) pre tr)
    (ho : (origins pre)[id]? = some ⟨token, stages, .operation script⟩)
    (hordered : Layer.Ordered (stages.map Stage.owner)) (hc : tr.calls[id]? = some c)
    (hcoming : c.activity = .entering (.layer .retry :: inner)) (hlog : Course tr log tr')
    (hdrop : ∀ ch ∈ log, ch.move ≠ .drop id) :
    ∃ c', tr'.calls[id]? = some c' ∧
      (∀ number stages, .attempt number stages ∈ c'.frames →
        1 ≤ number ∧ number ≤ config.maxAttempts.toNat) ∧
      ((∃ outcome, Runs config attached
          (Gives (.layer .timeout ∈ inner ∧ layers.timeout.isSome = true) script)
          (acts id log) outcome) ∨
        c'.inLoop = true ∧ steps id log ≤ 5 * config.maxAttempts.toNat ∧
          ((∀ op ∈ script, op.delay.isSome = true) → ∃ millis tr₁ tr₂,
            tr'.move (.elapse millis) = some tr₁ ∧ tr₁.move (.step id) = some tr₂)) := by
  obtain ⟨hfresh, hinner, houtside⟩ := Loop.sound_of_coming hpre ho hordered hc hcoming
  let L : Loop α := ⟨config, attached, layers.timeout, inner, c.frames, script⟩
  have hL : L.Sound := ⟨hreturns, hinner, houtside⟩
  obtain ⟨c', hc', hstands⟩ := Loop.exists_stands hL hpre ho hretry rfl rfl hc
    (.comes hcoming rfl hfresh) hlog hdrop
  refine ⟨c', hc', ?_⟩
  obtain ⟨rank, hphase, hsteps⟩ | hreturned := hstands
  · refine ⟨fun number stages hmem => hphase.number_le hL hmem, .inr ⟨hphase.inLoop, ?_, ?_⟩⟩
    · have hpos := hphase.pos
      exact Nat.le_of_lt_succ (Nat.lt_of_lt_of_le (Nat.lt_add_of_pos_right hpos) hsteps)
    · intro hends
      obtain ⟨millis, tr₂, hstep⟩ := hphase.exists_step hends hc'
      exact ⟨millis, _, tr₂, rfl, hstep⟩
  · exact ⟨fun number stages hmem => absurd rfl (hreturned.outside _ hmem),
      .inl hreturned.runs⟩

/-- A predicate that accepts every error, and a hook. -/
def attentive : Attachments :=
  { Attachments.none with retryIf := some (.always true), onRetry := some ⟨fun _ => none⟩ }

theorem attentive_returns : attentive.RetryReturns where
  judges judge h f := by
    obtain rfl := Option.some.inj h
    exact ⟨true, rfl⟩
  listens hook h number := by
    obtain rfl := Option.some.inj h
    rfl

/-- A call comes to the retry layer. -/
def arrival : List (Move Nat) :=
  [.mint none, .begin 0 [.layer .retry] (.operation [Executor.failing, Executor.five])]

/-- Its operation fails, and is invoked again at once. -/
theorem exists_loop : ∃ (pre log : List (Change Nat)) (tr tr' : Traffic Nat) (c c' : Call Nat),
    Course (.start Executor.twice attentive) pre tr ∧
    (origins pre)[0]? = some ⟨0, [.layer .retry], .operation [Executor.failing, Executor.five]⟩ ∧
    tr.calls[0]? = some c ∧ c.activity = .entering [.layer .retry] ∧ Course tr log tr' ∧
    (∀ ch ∈ log, ch.move ≠ .drop 0) ∧ tr'.calls[0]? = some c' ∧ c'.frames = [] ∧
    c'.activity = .leaving (.value (some 5)) ∧ (acts 0 log).length = 9 := by
  have hpre := @Traffic.course_played Nat (.start Executor.twice attentive) arrival rfl
  have hpaused := ((((@Course.start Nat
    (((Traffic.start Executor.twice attentive).play arrival).get rfl).2).move
    (m := .step 0) rfl).move (m := .step 0) rfl).move (m := .step 0) rfl).move (m := .step 0) rfl
  have hagain := hpaused.move (m := .step 0) (Executor.step_of_pausing rfl rfl rfl rfl
    (Nat.le_of_eq (Executor.dueIn_delay _ rfl rfl _ _)))
  have hreturned := (((hagain.move (m := .step 0) rfl).move (m := .elapse 5) rfl).move
    (m := .step 0) rfl).move (m := .step 0) rfl
  refine ⟨_, _, _, _, _, _, hpre, rfl, rfl, rfl, hreturned, by simp, rfl, rfl, rfl, ?_⟩
  decide +kernel

/-- The first attempt fails and is followed by the second one, which returns a value: nine things
are seen, and they are a run of the loop. -/
theorem loop_exact_of_failing : attentive.RetryReturns ∧
    ∃ (pre log : List (Change Nat)) (tr tr' : Traffic Nat) (c : Call Nat),
      Course (.start Executor.twice attentive) pre tr ∧ tr.calls[0]? = some c ∧
      c.activity = .entering [.layer .retry] ∧ Course tr log tr' ∧
      (∀ ch ∈ log, ch.move ≠ .drop 0) ∧ (acts 0 log).length = 9 ∧
      ∃ outcome, Runs ⟨2, .zero, .zero, 1, .constant, false⟩ attentive
        (Gives (.layer .timeout ∈ ([] : List Stage) ∧ Executor.twice.timeout.isSome = true)
          [Executor.failing, Executor.five]) (acts 0 log) outcome := by
  obtain ⟨pre, log, tr, tr', c, c', hpre, ho, hc, hcoming, hlog, hdrop, hc', hframes, hleaving,
    hnine⟩ := exists_loop
  refine ⟨attentive_returns, pre, log, tr, tr', c, hpre, hc, hcoming, hlog, hdrop, hnine, ?_⟩
  obtain ⟨c'', hc'', -, hruns | ⟨hin, -⟩⟩ := loop_exact rfl attentive_returns hpre ho
    (List.pairwise_singleton _ _) hc hcoming hlog hdrop
  · exact hruns
  · -- The call has left the loop.
    obtain rfl := Option.some.inj (hc'.symm.trans hc'')
    rw [Loop.inLoop_outside (by rw [hframes]; exact nofun) (.inr ⟨_, hleaving⟩)] at hin
    cases hin

end Safeguard.Retry
