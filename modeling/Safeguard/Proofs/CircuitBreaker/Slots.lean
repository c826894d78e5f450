import Safeguard.Proofs.CircuitBreaker.Ledger

/-!
# Places of probes

A half-open circuit counts the places that its probes take, and admits a call while
there is a place left. The count is exact for every way in which a probe can end but
one. The call whose admission turned the circuit half-open is the first probe of the
period, and the hook is told of the change before the call has its permit; if the hook
panics then, the call ends, and nobody is left to give the place back before the next
change of state.

Calls of earlier periods may end at any time and in any order. They give nothing back.

## Main definitions

* `Ledger.unfinishedProbes`, `Ledger.lostProbes`: probes of the current half-open
  period that run, and that were lost to a panic of the hook.
* `Ledger.Counted`: the count of places is exact.

## Main results

* `Ledger.halfOpen_probes_iff`: when the count of places is the number of probes that
  run, and when a half-open circuit admits a call.
* `Ledger.unfinishedProbes_le_and_stale_keep`: no more probes run than are allowed, and
  the end of a call of an earlier period frees no place.
-/

namespace Safeguard.CircuitBreaker.Ledger

/-- Probes of the current half-open period that have not ended. -/
def unfinishedProbes (l : Ledger) : Nat := l.probesThat Progress.unfinished

/-- Probes of the current half-open period that ended when the hook panicked at their
admission. -/
def lostProbes (l : Ledger) : Nat := l.probesThat Progress.isLost

/-- The count of places is exact. -/
structure Counted (l : Ledger) : Prop where
  /-- Every place is taken by a probe that runs, or was lost. -/
  probes : l.breaker.probes = l.unfinishedProbes + l.lostProbes
  room : l.breaker.probes ≤ l.breaker.config.maxHalfOpenProbes.toNat
  /-- Only the first probe of a period is announced. -/
  lone : l.probesThat Progress.withoutPermit ≤ 1

variable {c : Config} {l l' : Ledger} {e : Entry} {id : Nat} {now : Instant} {a : Act}
  {progress : Progress} {acts : List (Instant × Act)}

theorem lostProbes_le_withoutPermit (l : Ledger) :
    l.lostProbes ≤ l.probesThat Progress.withoutPermit := by
  refine List.countP_mono_left fun e _ he => ?_
  simp only [Bool.and_eq_true] at he ⊢
  refine ⟨he.1, ?_⟩
  cases hp : e.progress <;> simp_all [Progress.isLost, Progress.withoutPermit]

/-- The end of a running call gives its place back if it has one in this period, and
changes nothing otherwise. -/
theorem Counted.probes_freeProbe (hd : Dated c l) (h : Counted l)
    (he : l.find? id .running = some e) (hrun : progress.unfinished = false)
    (hlost : progress.isLost = false) :
    (l.breaker.freeProbe e.permit).probes =
      (l.mark id e progress).unfinishedProbes + (l.mark id e progress).lostProbes := by
  obtain ⟨hget, hprogress⟩ := find?_eq_some_iff.mp he
  have hu : (l.mark id e progress).unfinishedProbes + _ = l.unfinishedProbes :=
    probesThat_mark_of_leave hget (hprogress ▸ rfl) hrun
  have hl : (l.mark id e progress).lostProbes = l.lostProbes :=
    probesThat_mark_of_eq hget (hprogress ▸ hlost)
  rw [hl]
  have hcount := h.probes
  -- The breaker compares periods and the ledger compares eras; the two agree.
  have hiff := hd.probe_eq_some_period_iff (mem_of_find? he)
  by_cases hp : e.isProbeOf l.era = true
  · rw [probes_freeProbe_of_eq (hiff.mpr hp)]
    rw [if_pos hp] at hu
    omega
  · rw [freeProbe_of_ne (mt hiff.mp hp)]
    rw [if_neg hp] at hu
    omega

/-- An operation on the breaker keeps the count exact if it leaves the places as they
are, or starts a period without any. -/
theorem Counted.of_after {target : State} {r : CircuitBreaker × Option Transition}
    (hd : Dated c l) (hr : l.breaker.Moves target r)
    (hprobes : r.1.probes = if r.2.isSome then 0 else l.unfinishedProbes + l.lostProbes)
    (hroom : l.unfinishedProbes + l.lostProbes ≤ l.breaker.config.maxHalfOpenProbes.toNat)
    (hlone : l.probesThat Progress.withoutPermit ≤ 1) : Counted (l.after r) := by
  constructor
  · show r.1.probes = _
    simp only [hprobes, unfinishedProbes, lostProbes, hd.probesThat_after]
    split <;> rfl
  · show r.1.probes ≤ r.1.config.maxHalfOpenProbes.toNat
    rw [hprobes, hr.config_eq]
    split <;> omega
  · rw [hd.probesThat_after]
    split <;> omega

namespace Counted

theorem blank (c : Config) : Counted (blank c) where
  probes := rfl
  room := Nat.zero_le _
  lone := Nat.zero_le _

/-- Admission takes a place for the probe that is entered. -/
theorem request (hd : Dated c l) (h : Counted l) (hstep : l.step now .request = some l') :
    Counted l' := by
  have hmax := hd.maxHalfOpenProbes_pos
  have hmoves := moves_request hmax now
  have hprobes := probes_request hmax now
  have hroom := probes_request_le hmax h.room now
  have hcount := h.probes
  obtain ⟨hp, rfl⟩ | ⟨p, hp, rfl⟩ := step_request_cases hstep
  · refine of_after hd hmoves ?_ (hcount ▸ h.room) h.lone
    simpa [hp, hcount] using hprobes
  · have hconfig := hmoves.config_eq
    refine ⟨?_, ?_, ?_⟩
    · show (l.breaker.request now).1.probes = _
      simp only [hprobes, hcount, unfinishedProbes, lostProbes, probesThat_enrol,
        hd.probesThat_after, hp]
      cases (l.breaker.request now).2.1.isSome
      · simp [after, Progress.unfinished, Progress.isLost]
        omega
      · simp [after, Progress.unfinished, Progress.isLost]
    · show (l.breaker.request now).1.probes ≤
        (l.breaker.request now).1.config.maxHalfOpenProbes.toNat
      rw [hconfig]; exact hroom
    · have hlone := h.lone
      rw [probesThat_enrol, hd.probesThat_after]
      -- A change of state leaves no older call that could be without its permit.
      cases (l.breaker.request now).2.1.isSome
      · simpa [Progress.withoutPermit] using hlone
      · simp only [Progress.withoutPermit, if_true, and_true, Nat.zero_add]
        split <;> omega

/-- Being told of a change, the hook turns the first probe into one that runs, or loses
it. -/
theorem announced (h : Counted l) (he : l.find? id .announcing = some e) (panics : Bool) :
    Counted (l.mark id e (if panics then .lost else .running)) := by
  obtain ⟨hget, hprogress⟩ := find?_eq_some_iff.mp he
  have hcount := h.probes
  have hlone := h.lone
  cases panics with
  | true =>
    -- The place stays taken: one probe fewer runs, and one more is lost.
    have hu : (l.mark id e .lost).unfinishedProbes + _ = l.unfinishedProbes :=
      probesThat_mark_of_leave hget (hprogress ▸ rfl) rfl
    have hl : (l.mark id e .lost).lostProbes = l.lostProbes + _ :=
      probesThat_mark_of_join hget (hprogress ▸ rfl) rfl
    have hw : (l.mark id e .lost).probesThat Progress.withoutPermit = _ :=
      probesThat_mark_of_eq hget (hprogress ▸ rfl)
    refine ⟨?_, h.room, hw ▸ hlone⟩
    show l.breaker.probes = (l.mark id e .lost).unfinishedProbes + (l.mark id e .lost).lostProbes
    omega
  | false =>
    have hu : (l.mark id e .running).unfinishedProbes = l.unfinishedProbes :=
      probesThat_mark_of_eq hget (hprogress ▸ rfl)
    have hl : (l.mark id e .running).lostProbes = l.lostProbes :=
      probesThat_mark_of_eq hget (hprogress ▸ rfl)
    have hw : (l.mark id e .running).probesThat Progress.withoutPermit + _ = _ :=
      probesThat_mark_of_leave hget (hprogress ▸ rfl) rfl
    refine ⟨?_, h.room, ?_⟩
    · show l.breaker.probes = _
      rw [hcount, ← hu, ← hl]
      rfl
    · show (l.mark id e .running).probesThat Progress.withoutPermit ≤ 1
      omega

/-- The end of a call, whatever the operation on the breaker makes of it, gives back
exactly what the call had. -/
theorem ended {target : State} {r : CircuitBreaker × Option Transition} (hd : Dated c l)
    (h : Counted l) (he : l.find? id .running = some e) (hrun : progress.unfinished = false)
    (hlost : progress.isLost = false) (hperm : progress.withoutPermit = false)
    (hr : l.breaker.Moves target r)
    (hprobes : r.1.probes = if r.2.isSome then 0 else (l.breaker.freeProbe e.permit).probes) :
    Counted ((l.mark id e progress).after r) := by
  obtain ⟨hget, hprogress⟩ := find?_eq_some_iff.mp he
  have hfree := h.probes_freeProbe hd he hrun hlost
  have hle : (l.breaker.freeProbe e.permit).probes ≤ l.breaker.probes := by
    unfold freeProbe
    split
    · exact Nat.sub_le ..
    · exact Nat.le_refl _
  have hroom := h.room
  refine of_after (hd.mark (mem_of_find? he)) hr (by rw [hprobes, hfree]) ?_ ?_
  · show _ ≤ l.breaker.config.maxHalfOpenProbes.toNat
    omega
  · rw [probesThat_mark_of_eq hget (hprogress ▸ hperm)]
    exact h.lone

/-- Every act keeps the count of places exact. -/
theorem step (hd : Dated c l) (h : Counted l) (hstep : l.step now a = some l') : Counted l' := by
  have hcount := h.probes
  have hroom : l.unfinishedProbes + l.lostProbes ≤ l.breaker.config.maxHalfOpenProbes.toNat :=
    hcount ▸ h.room
  cases a with
  | request => exact h.request hd hstep
  | announced id panics =>
    obtain ⟨e, he, rfl⟩ := Option.map_eq_some_iff.mp hstep
    exact h.announced he panics
  | settle id failed =>
    obtain ⟨e, he, rfl⟩ := Option.map_eq_some_iff.mp hstep
    cases failed with
    | true => exact h.ended hd he rfl rfl rfl (moves_settle_failure ..) (probes_settle ..)
    | false => exact h.ended hd he rfl rfl rfl (moves_settle_success ..) (probes_settle ..)
  | drop id =>
    obtain ⟨e, he, rfl⟩ := Option.map_eq_some_iff.mp hstep
    exact h.ended hd he rfl rfl rfl (moves_abandon _ _ .closed) rfl
  | observe =>
    obtain rfl := Option.some.inj hstep
    exact of_after hd (moves_observe ..) (hcount ▸ probes_observe ..) hroom h.lone
  | reset =>
    obtain rfl := Option.some.inj hstep
    refine of_after hd (moves_reset _) ?_ hroom h.lone
    -- A reset of a closed circuit starts no period, but clears the places all the same.
    obtain ⟨hs, hb⟩ | ⟨-, hb⟩ := l.breaker.reset_cases
    · have hzero : ∀ q, l.probesThat q = 0 :=
        fun q => hd.probesThat_of_not_halfOpen (by rw [hs]; decide)
      simp [hb, unfinishedProbes, lostProbes, hzero]
    · simp [hb]
  | forceOpen =>
    obtain rfl := Option.some.inj hstep
    exact of_after hd (moves_forceOpen ..) (hcount ▸ probes_forceOpen ..) hroom h.lone

end Counted

/-- After every run entries and permits agree, and the count of places is exact. -/
theorem counted_run (hrun : (blank c).run acts = some l) : Dated c l ∧ Counted l :=
  run_induction (P := fun l => Dated c l ∧ Counted l)
    (fun _ _ _ _ _ h hstep => ⟨h.1.step hstep, h.2.step h.1 hstep⟩)
    ⟨.blank c, .blank c⟩ hrun

/-! ## The count of places -/

/-- A call is lost only when the hook panics at its admission. -/
theorem lost_of_step (hstep : l.step now a = some l') (he : e ∈ l'.calls)
    (hlost : e.progress = .lost) : e ∈ l.calls ∨ ∃ id, a = .announced id true := by
  cases a with
  | request =>
    obtain ⟨-, rfl⟩ | ⟨p, -, rfl⟩ := step_request_cases hstep
    · exact .inl he
    · rcases List.mem_append.mp he with he | he
      · exact .inl he
      · rw [List.mem_singleton.mp he] at hlost
        split at hlost <;> cases hlost
  | announced id' panics =>
    cases panics with
    | true => exact .inr ⟨id', rfl⟩
    | false =>
      obtain ⟨x, -, rfl⟩ := Option.map_eq_some_iff.mp hstep
      rcases mem_mark he with rfl | he
      · cases hlost
      · exact .inl he
  | settle id' failed =>
    obtain ⟨x, -, rfl⟩ := Option.map_eq_some_iff.mp hstep
    rcases mem_mark he with rfl | he
    · cases hlost
    · exact .inl he
  | drop id' =>
    obtain ⟨x, -, rfl⟩ := Option.map_eq_some_iff.mp hstep
    rcases mem_mark he with rfl | he
    · cases hlost
    · exact .inl he
  | observe => obtain rfl := Option.some.inj hstep; exact .inl he
  | reset => obtain rfl := Option.some.inj hstep; exact .inl he
  | forceOpen => obtain rfl := Option.some.inj hstep; exact .inl he

theorem lostProbes_of_kept (h : ∀ e ∈ l.calls, e.progress ≠ .lost) : l.lostProbes = 0 := by
  simp only [lostProbes, probesThat, List.countP_eq_zero]
  intro e he hq
  have hne := h e he
  cases hp : e.progress <;> simp_all [Progress.isLost]

/-- No probe is lost as long as no hook panics at an admission. -/
theorem lostProbes_eq_zero (hrun : (Ledger.blank c).run acts = some l)
    (hquiet : ∀ x ∈ acts, ∀ id, x.2 ≠ .announced id true) : l.lostProbes = 0 := by
  apply lostProbes_of_kept
  -- By induction on the run: no act of it loses a call.
  have hblank : ∀ e ∈ (Ledger.blank c).calls, e.progress ≠ .lost := by simp [Ledger.blank]
  refine run_induction (P := fun l => ∀ e ∈ l.calls, e.progress ≠ .lost) ?_ hblank hrun
  intro m now a m' ha hm hstep e he hlost
  rcases lost_of_step hstep he hlost with he | ⟨id, rfl⟩
  · exact hm e he hlost
  · exact hquiet _ ha id rfl

/-- **The count of places.** While a circuit is half-open, the places that are taken are
those of the probes of this period that have not ended and of those that were lost, of
which there is at most one. So the count is the number of probes that run exactly if
none was lost, which takes a hook that panics at an admission; and the next call is let
in exactly if running and lost probes together are fewer than allowed. -/
theorem halfOpen_probes_iff (hrun : (blank c).run acts = some l)
    (hs : l.breaker.state = .halfOpen) :
    l.breaker.probes = l.unfinishedProbes + l.lostProbes ∧ l.lostProbes ≤ 1 ∧
      (l.breaker.probes = l.unfinishedProbes ↔ l.lostProbes = 0) ∧
      ((∀ x ∈ acts, ∀ id, x.2 ≠ .announced id true) → l.lostProbes = 0) ∧
      ∀ now, (l.breaker.request now).2.2.isSome = true ↔
        l.unfinishedProbes + l.lostProbes < max c.maxHalfOpenProbes.toNat 1 := by
  obtain ⟨hd, h⟩ := counted_run hrun
  have hcount := h.probes
  -- Only the first probe of a period is announced, so no second one can be lost.
  have hlost : l.lostProbes ≤ 1 := Nat.le_trans l.lostProbes_le_withoutPermit h.lone
  refine ⟨hcount, hlost, ?_, lostProbes_eq_zero hrun, ?_⟩
  · omega
  · intro now
    rw [← hcount, ← c.clamp_maxHalfOpenProbes_toNat, ← hd.config]
    by_cases hroom : l.breaker.probes < l.breaker.config.maxHalfOpenProbes.toNat
    · simp [request_of_room hs hroom, hroom]
    · simp [request_of_full hs hroom, hroom]

/-- Two probes run at once, one of them is abandoned, and there is a place again. -/
theorem halfOpen_probes_of_dropped :
    ∃ l, (blank { Config.default with cooldown := .ofMillis 10, maxHalfOpenProbes := 2 }).run
        [(0, .forceOpen), (10000000, .request), (10000000, .announced 0 false),
          (10000000, .request), (10000000, .drop 0)] = some l ∧
      l.breaker.state = .halfOpen ∧ l.breaker.probes = l.unfinishedProbes ∧
      l.unfinishedProbes = 1 ∧ (l.breaker.request 10000000).2.2.isSome = true := by
  refine ⟨_, rfl, rfl, ?_⟩
  have hrun : (blank { Config.default with cooldown := .ofMillis 10, maxHalfOpenProbes := 2 }).run
      [(0, .forceOpen), (10000000, .request), (10000000, .announced 0 false),
        (10000000, .request), (10000000, .drop 0)] = some _ := rfl
  obtain ⟨-, -, hiff, -, hrequest⟩ := halfOpen_probes_iff hrun rfl
  exact ⟨hiff.mpr rfl, rfl, (hrequest _).mpr (by decide)⟩

/-- A hook panics when it is told of the half-open period. No probe runs any more, and
yet no call is let in, whenever it comes. -/
theorem halfOpen_probes_of_lost :
    ∃ l, (blank { Config.default with cooldown := .ofMillis 10 }).run
        [(0, .forceOpen), (10000000, .request), (10000000, .announced 0 true)] = some l ∧
      l.breaker.state = .halfOpen ∧ l.breaker.probes = 1 ∧ l.unfinishedProbes = 0 ∧
      ∀ now, (l.breaker.request now).2.2 = none :=
  ⟨_, rfl, rfl, rfl, rfl, fun _ => by rw [request_of_full rfl (by decide)]⟩

/-! ## The bound on probes -/

/-- The end of a call of an earlier era frees no place of the current one, unless it ends
that era. -/
theorem Counted.stale_ended {r : CircuitBreaker × Option Transition} (hd : Dated c l)
    (he : l.find? id .running = some e) (hera : e.era < l.era)
    (hprobes : r.1.probes = if r.2.isSome then 0 else (l.breaker.freeProbe e.permit).probes)
    (hkeep : r.2.isSome = false) :
    ((l.mark id e progress).after r).era = l.era ∧ r.1.probes = l.breaker.probes ∧
      ((l.mark id e progress).after r).unfinishedProbes = l.unfinishedProbes := by
  obtain ⟨hget, hprogress⟩ := find?_eq_some_iff.mp he
  have hstale : e.isProbeOf l.era = false := by
    simp only [Entry.isProbeOf, Bool.and_eq_false_iff, decide_eq_false_iff_not]
    exact .inr (Nat.ne_of_lt hera)
  have hiff := hd.probe_eq_some_period_iff (mem_of_find? he)
  refine ⟨?_, ?_, ?_⟩
  · rw [era_after, hkeep]
    rfl
  · rw [hprobes, hkeep, freeProbe_of_ne (mt hiff.mp (by simp [hstale]))]
    rfl
  · have hmark := probesThat_mark hget Progress.unfinished progress
    rw [unfinishedProbes, (hd.mark (mem_of_find? he)).probesThat_after, hkeep]
    simpa [hstale, unfinishedProbes] using hmark

/-- **The bound on probes.** At every moment of every run the probes of the current
half-open period that run are at most as many as are allowed. The end of a call that was
let in in an earlier era leaves both their number and the places that are taken as they
are, or it ends the period and the circuit is half-open no more. -/
theorem unfinishedProbes_le_and_stale_keep (hrun : (Ledger.blank c).run acts = some l) :
    l.unfinishedProbes ≤ max 1 c.maxHalfOpenProbes.toNat ∧
      ∀ id e now a l', l.calls[id]? = some e → e.era < l.era →
        (a = .drop id ∨ ∃ failed, a = .settle id failed) → l.step now a = some l' →
          (l'.era = l.era ∧ l'.breaker.probes = l.breaker.probes ∧
              l'.unfinishedProbes = l.unfinishedProbes) ∨
            l'.era = l.era + 1 ∧ l'.breaker.state ≠ .halfOpen := by
  obtain ⟨hd, h⟩ := counted_run hrun
  constructor
  · have hcount := h.probes
    have hroom := h.room
    rw [hd.config, c.clamp_maxHalfOpenProbes_toNat] at hroom
    omega
  · intro id e now a l' he hera hend hstep
    rcases hend with rfl | ⟨failed, rfl⟩
    · obtain ⟨x, hx, rfl⟩ := Option.map_eq_some_iff.mp hstep
      obtain rfl := Option.some.inj ((find?_eq_some_iff.mp hx).1.symm.trans he)
      exact .inl (Counted.stale_ended hd hx hera rfl rfl)
    · obtain ⟨x, hx, rfl⟩ := Option.map_eq_some_iff.mp hstep
      obtain rfl := Option.some.inj ((find?_eq_some_iff.mp hx).1.symm.trans he)
      -- A stale result may still change the state, and then ends the period.
      by_cases hchange : (l.breaker.settle x.permit failed now).2.isSome = true
      · refine .inr ⟨?_, state_settle_ne_halfOpen hchange⟩
        rw [era_after, if_pos hchange]
        rfl
      · have hkeep := Bool.eq_false_iff.mpr hchange
        exact .inl (Counted.stale_ended hd hx hera (probes_settle ..) hkeep)

/-- A probe of an earlier half-open period succeeds while a probe of the current one
runs. -/
theorem unfinishedProbes_of_earlier_probe :
    ∃ l l', (blank { Config.strict with cooldown := .ofMillis 10 }).run
        [(0, .forceOpen), (10000000, .request), (10000000, .announced 0 false),
          (10000000, .forceOpen), (20000000, .request), (20000000, .announced 1 false)] =
          some l ∧
      l.step 30000000 (.settle 0 false) = some l' ∧ l.unfinishedProbes ≤ 1 ∧
      (l'.era = l.era ∧ l'.breaker.probes = l.breaker.probes ∧
          l'.unfinishedProbes = l.unfinishedProbes ∨
        l'.era = l.era + 1 ∧ l'.breaker.state ≠ .halfOpen) ∧
      l'.breaker.probes = 1 ∧ l'.unfinishedProbes = 1 := by
  refine ⟨_, _, rfl, rfl, ?_⟩
  have hrun : (blank { Config.strict with cooldown := .ofMillis 10 }).run
      [(0, .forceOpen), (10000000, .request), (10000000, .announced 0 false),
        (10000000, .forceOpen), (20000000, .request), (20000000, .announced 1 false)] =
        some _ := rfl
  obtain ⟨hle, hstale⟩ := unfinishedProbes_le_and_stale_keep hrun
  exact ⟨hle, hstale 0 _ 30000000 _ _ rfl (by decide) (.inr ⟨false, rfl⟩) rfl, rfl, rfl⟩

end Safeguard.CircuitBreaker.Ledger
