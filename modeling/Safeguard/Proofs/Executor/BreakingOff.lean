import Safeguard.Proofs.Executor.Conservation
import Safeguard.Proofs.Traffic.Nesting
import Safeguard.Proofs.Traffic.Scenarios
import Safeguard.Proofs.Traffic.Unwinding

/-!
# Calls of an executor that break off

A call that the circuit breaker has admitted may end without a result: its caller drops it, or
the operation, a predicate or the retry hook panics. That is no outcome. Whatever state the
breaker is in by then, and whatever other calls do in the meantime, the ending changes nothing
in the breaker but the number of probes that run, and nobody is told of anything. The call
gives back the permit and the slot that it holds, each of them once.

## Main definitions

* `Change.Unnoticed`: a change that is no outcome to the circuit breaker.
* `Change.HandsPermitBack`, `Change.HandsSlotBack`: what a call gives back.

## Main results

* `Executor.no_outcome_of_breaksOff`: a call that breaks off has no outcome, and gives back what
  it holds once.
-/

namespace Safeguard

open CircuitBreaker (Permit Ledger)
open Resilience (Layers)
open Traffic (Course BreaksOff)

variable {α : Type} {tr tr' tr₁ : Traffic α} {id : Nat} {c : Call α} {m : Move α} {p : Permit}
  {layers : Layers} {attached : Attachments} {log log' : List (Change α)} {ch : Change α}
  {frames : List Frame}

/-! ## What a call hands back -/

namespace CircuitBreaker

/-- A permit that is handed back may free the place of a probe, and changes nothing else. -/
theorem abandon_eq (b : CircuitBreaker) (p : Permit) :
    b.abandon p = { b with probes := (b.abandon p).probes } := by
  unfold abandon freeProbe
  split <;> rfl

theorem foldl_abandon_eq (ps : List Permit) (b : CircuitBreaker) :
    ps.foldl abandon b = { b with probes := (ps.foldl abandon b).probes } := by
  induction ps generalizing b with
  | nil => rfl
  | cons p ps ih =>
    rw [List.foldl_cons, ih, abandon_eq]

/-- A place that is taken is free again, if the permit is that of a probe of this period. -/
theorem probes_abandon {b : CircuitBreaker} (h : p.probe = some b.period → 0 < b.probes) :
    (b.abandon p).probes + (if p.probe = some b.period then 1 else 0) = b.probes := by
  unfold abandon freeProbe
  by_cases hprobe : p.probe = some b.period
  · have hpos := h hprobe
    simp only [hprobe, if_true]
    omega
  · simp [hprobe]

end CircuitBreaker

/-- A change that is no outcome to the circuit breaker: it changes nothing but the number of
probes that run, and neither the hook nor the log is told of anything. -/
structure Change.Unnoticed (ch : Change α) : Prop where
  breaker : ∃ b b', ch.before.layers.circuitBreaker = some b ∧
    ch.after.layers.circuitBreaker = some b' ∧ b' = { b with probes := b'.probes }
  transitions : ch.after.trace.transitions = ch.before.trace.transitions
  notices : ch.after.trace.notices = ch.before.trace.notices

/-- In a change the circuit breaker gets a permit back: the place of the call is free again if it
is a probe of the current half-open period. -/
def Change.HandsPermitBack (p : Permit) (ch : Change α) : Prop :=
  ∃ b b', ch.before.layers.circuitBreaker = some b ∧ ch.after.layers.circuitBreaker = some b' ∧
    b' = { b with probes := b'.probes } ∧
    b'.probes + (if p.probe = some b.period then 1 else 0) = b.probes

/-- In a change the bulkhead gets a slot back, which is free or handed to the next call. -/
def Change.HandsSlotBack (ch : Change α) : Prop :=
  ∃ b b', ch.before.layers.bulkhead = some b ∧ ch.after.layers.bulkhead = some b' ∧
    b' = b.release.1 ∧ b'.active + 1 = b.active ∧
    b'.available + b'.handed.length = b.available + b.handed.length + 1

/-! ## Frames that are given back -/

theorem Frame.permits_append (frames frames' : List Frame) :
    Frame.permits (frames ++ frames') = Frame.permits frames ++ Frame.permits frames' := by
  induction frames with
  | nil => rfl
  | cons frame frames ih => cases frame <;> simp [Frame.permits, ih]

/-- The only permit that there was is kept, or it is the one that is given back. -/
theorem Frame.permits_lost {lost kept : List Frame} (hsuffix : lost ++ kept <:+ frames)
    (hp : Frame.permits frames = [p]) :
    Frame.permits lost = if lost.countP Frame.isPermit = 0 then [] else [p] := by
  obtain ⟨inner, rfl⟩ := hsuffix
  rw [Frame.permits_append, Frame.permits_append] at hp
  rw [← Frame.length_permits]
  cases hlost : Frame.permits lost with
  | nil => rfl
  | cons q rest =>
    -- There is one permit in all, so one that is given back is that one.
    have hsub : (q :: rest).Sublist [p] := by
      rw [← hp, ← hlost]
      exact (List.sublist_append_left ..).trans (List.sublist_append_right ..)
    rw [hsub.eq_of_length (Nat.le_antisymm hsub.length_le (by simp))]
    rfl

/-- A change in which no permit is given back leaves the circuit breaker as it is. -/
theorem Change.GivesBack.breaker_eq (h : ch.GivesBack id frames Frame.isPermit 0)
    (hp : Frame.permits frames = [p]) :
    ch.after.layers.circuitBreaker = ch.before.layers.circuitBreaker := by
  obtain ⟨c, c', lost, hunwinds, hsuffix, hnone⟩ := h
  have hlost := Frame.permits_lost (hunwinds.frames ▸ hsuffix) hp
  rw [if_pos hnone] at hlost
  rw [hunwinds.breaker, hlost]
  exact Option.map_id'

/-- A change in which no slot is given back leaves the bulkhead as it is. -/
theorem Change.GivesBack.bulkhead_eq (h : ch.GivesBack id frames Frame.isSlot 0) :
    ch.after.layers.bulkhead = ch.before.layers.bulkhead := by
  obtain ⟨c, c', lost, hunwinds, -, hnone⟩ := h
  rw [hunwinds.bulkhead, hnone]
  exact Option.map_id'

/-- Frames that are given back are no outcome. -/
theorem Change.GivesBack.unnoticed {q : Frame → Bool} {n : Nat} (h : ch.GivesBack id frames q n)
    {b : CircuitBreaker} (hb : ch.before.layers.circuitBreaker = some b) : ch.Unnoticed := by
  obtain ⟨c, c', lost, hunwinds, -, -⟩ := h
  refine ⟨⟨b, _, hb, ?_, CircuitBreaker.foldl_abandon_eq (Frame.permits lost) b⟩,
    hunwinds.transitions, hunwinds.notices⟩
  rw [hunwinds.breaker, hb]
  rfl

/-! ## What there is to give back -/

namespace Traffic

/-- The place of a probe that a call holds is taken. -/
theorem Course.probes_pos {config : CircuitBreaker.Config}
    (h : Course (.start layers attached) log tr)
    (hlayers : layers.circuitBreaker = some (.new config)) {b : CircuitBreaker}
    (hb : tr.layers.circuitBreaker = some b) (hc : tr.calls[id]? = some c) (hp : p ∈ c.permits)
    (hprobe : p.probe = some b.period) : 0 < b.probes := by
  have hstart : (Traffic.start layers attached : Traffic α).DescribedBy (.blank config) :=
    ⟨hlayers, .refl _⟩
  obtain ⟨acts, l, hrun, hl, -⟩ := Reaches.leads ⟨log, h⟩ _ hstart
  obtain rfl : l.breaker = b := Option.some.inj (hl.breaker.symm.trans hb)
  obtain ⟨hd, hcounted⟩ := Ledger.counted_run hrun
  -- The breaker counts a probe for every permit of the period that is with a call.
  have hmem : p ∈ l.permits :=
    hl.permits.mem_iff.mp (List.mem_flatMap.mpr ⟨c, List.mem_of_getElem? hc, hp⟩)
  have hpos : 0 < l.permits.countP fun p => p.probe = some l.breaker.period :=
    List.countP_pos_iff.mpr ⟨p, hmem, by simpa using hprobe⟩
  have hle := Ledger.countP_permits_le_unfinishedProbes hd
  have hprobes := hcounted.probes
  omega

/-- The slot that a call holds is counted. -/
theorem Course.active_pos {config : Bulkhead.Config}
    (h : Course (.start layers attached) log tr) (hlayers : layers.bulkhead = some (.new config))
    {b : Bulkhead Nat} (hb : tr.layers.bulkhead = some b) (hc : tr.calls[id]? = some c)
    (hslots : 0 < c.slots) : 0 < b.active := by
  obtain ⟨b₀, hagrees, -⟩ := Bulkhead.exists_agrees hlayers h
  obtain rfl : b₀ = b := Option.some.inj (hagrees.present.symm.trans hb)
  have hle : c.slots ≤ tr.slots :=
    List.le_sum_of_mem (List.mem_map.mpr ⟨c, List.mem_of_getElem? hc, rfl⟩)
  rw [hagrees.accounts.active]
  omega

/-- The permit that is given back frees the place of a probe. -/
theorem Course.handsPermitBack {config : CircuitBreaker.Config} {earlier : List (Change α)}
    (h : Course (.start layers attached) earlier ch.before)
    (hlayers : layers.circuitBreaker = some (.new config))
    (hgives : ch.GivesBack id frames Frame.isPermit 1) (hp : Frame.permits frames = [p]) :
    ch.HandsPermitBack p := by
  obtain ⟨c, c', lost, hunwinds, hsuffix, hone⟩ := hgives
  have hlost := Frame.permits_lost (hunwinds.frames ▸ hsuffix) hp
  rw [if_neg (by omega)] at hlost
  obtain ⟨b, hb⟩ := h.exists_breaker hlayers
  have hmem : p ∈ c.permits := by
    rw [Call.permits, hunwinds.frames, Frame.permits_append, hlost]
    exact .head _
  refine ⟨b, b.abandon p, hb, ?_, b.abandon_eq p, CircuitBreaker.probes_abandon fun hprobe =>
    h.probes_pos hlayers hb hunwinds.before hmem hprobe⟩
  rw [hunwinds.breaker, hlost, hb]
  rfl

/-- The slot that is given back is free, or the next call in the queue has it. -/
theorem Course.handsSlotBack {config : Bulkhead.Config} {earlier : List (Change α)}
    (h : Course (.start layers attached) earlier ch.before)
    (hlayers : layers.bulkhead = some (.new config))
    (hgives : ch.GivesBack id frames Frame.isSlot 1) : ch.HandsSlotBack := by
  obtain ⟨c, c', lost, hunwinds, -, hone⟩ := hgives
  obtain ⟨b, hagrees, -⟩ := Bulkhead.exists_agrees hlayers h
  have hslots : 0 < c.slots := by
    rw [Call.slots, hunwinds.frames, List.countP_append]
    omega
  have hactive := h.active_pos hlayers hagrees.present hunwinds.before hslots
  refine ⟨b, b.release.1, hagrees.present, ?_, rfl, ?_, ?_⟩
  · rw [hunwinds.bulkhead, hone, hagrees.present]
    rfl
  · rw [Bulkhead.active_release]
    omega
  · unfold Bulkhead.release Bulkhead.giveBack
    split
    · exact Nat.add_right_comm ..
    · rw [List.length_append]
      exact (Nat.add_assoc ..).symm

end Traffic

/-! ## Executors -/

namespace Executor

variable {token : TokenId} {script : List (Operation α)}

/-- A call of an executor is nested in the layers that are present. -/
theorem nested_of_route (hcourse : Course (.start layers attached) log tr)
    (horigin : (origins log)[id]? = some ⟨token, route layers, .operation script⟩)
    (hc : tr.calls[id]? = some c) : c.Nested layers.present := by
  have hnested := hcourse.call_of_origin (Traffic.follows_nested layers attached) hc horigin
  rw [owners_route] at hnested
  exact hnested (ordered_present layers) fun l hl => (List.mem_filter.mp hl).2

/-- **Calls that break off have no outcome.** In every course, a call of an executor that the
circuit breaker admitted, and that its caller drops or in which the operation, a predicate or
the retry hook panics: whatever comes next, and whatever other calls do,

* none of its changes from then on is an outcome to the circuit breaker;
* it is on its way out with a panic until it has ended; and once it has, one of these changes
  handed its permit back and the others left the circuit breaker as it was; and if there is a
  bulkhead, one of them handed its slot back and the others left the bulkhead as it was;
* its turn ends it. -/
theorem no_outcome_of_breaksOff {config : CircuitBreaker.Config}
    (hlayers : layers.circuitBreaker = some (.new config))
    (hcourse : Course (.start layers attached) log tr)
    (horigin : (origins log)[id]? = some ⟨token, route layers, .operation script⟩)
    (hc : tr.calls[id]? = some c) (hp : p ∈ c.permits) (hbreaks : BreaksOff tr id c m)
    (hm : tr.move m = some tr₁) (hrest : Course tr₁ log' tr') :
    (∀ ch ∈ ⟨tr, m, tr₁⟩ :: log', ch.IsOf id → ch.Unnoticed) ∧
    (∃ c', tr'.calls[id]? = some c' ∧
      (c'.activity = .ended ∨ ∃ message, c'.activity = .leaving (.panic message)) ∧
      (c'.activity = .ended →
        Once (fun ch => ch.IsOf id ∧ ch.HandsPermitBack p)
          (fun ch => ch.IsOf id →
            ch.after.layers.circuitBreaker = ch.before.layers.circuitBreaker)
          (⟨tr, m, tr₁⟩ :: log') ∧
        ∀ config', layers.bulkhead = some (.new config') →
          Once (fun ch => ch.IsOf id ∧ ch.HandsSlotBack)
            (fun ch => ch.IsOf id → ch.after.layers.bulkhead = ch.before.layers.bulkhead)
            (⟨tr, m, tr₁⟩ :: log'))) ∧
    ∃ c', (tr'.turn (.call id)).calls[id]? = some c' ∧ c'.activity = .ended := by
  have hls := ordered_present layers
  have hnested := nested_of_route hcourse horigin hc
  obtain ⟨c₁, lost, hunwinds, hbroken₁⟩ :=
    Traffic.exists_unwinds_of_breaksOff hc hbreaks hm (hnested.awaitsSlot_of_permit hls hp)
  have hfirst : Unwinding id c ([] ++ [⟨tr, m, tr₁⟩]) c₁ :=
    Unwinding.start.own hbreaks.move_cases hunwinds
  obtain ⟨c', hc', hbroken, hunwinding⟩ :=
    Course.unwinding hfirst hunwinds.after hbroken₁ hrest
  have hall : Course (.start layers attached) (log ++ ⟨tr, m, tr₁⟩ :: log') tr' :=
    hcourse.append ((Course.of_move hm).append hrest)
  have hbefore : ∀ ch ∈ ⟨tr, m, tr₁⟩ :: log',
      ∃ earlier, Course (.start layers attached) earlier ch.before :=
    fun ch hch => hall.exists_before (List.mem_append_right _ hch)
  have hpermits : Frame.permits c.frames = [p] := hnested.permits_eq hls hp
  refine ⟨fun ch hch hown => ?_, ⟨c', hc', hbroken.symm.imp_left And.left, fun hended => ?_⟩, ?_⟩
  -- Each of its changes gives frames back, so no verdict is passed in any.
  · obtain ⟨earlier, hearlier⟩ := hbefore ch hch
    obtain ⟨b, hb⟩ := hearlier.exists_breaker hlayers
    obtain ⟨n, hgives⟩ := hunwinding.givesBack (q := Frame.isPermit) hch hown
    exact hgives.unnoticed hb
  · have hnone : c'.frames = [] := by
      obtain ⟨message, hleaving⟩ | ⟨-, hnone⟩ := hbroken
      · rw [hended] at hleaving
        cases hleaving
      · exact hnone
    -- It had one permit, and one slot if there is a bulkhead, and has neither any more.
    constructor
    · have hone : c.frames.countP Frame.isPermit = 1 := by
        rw [← Frame.length_permits, hpermits]
        rfl
      refine (hunwinding.once hone (by rw [hnone]; rfl)).imp (fun ch hch hback => ?_)
        fun ch _ hgives hown => (hgives hown).breaker_eq hpermits
      obtain ⟨hown, hgives⟩ := hback
      obtain ⟨earlier, hearlier⟩ := hbefore ch hch
      exact ⟨hown, hearlier.handsPermitBack hlayers hgives hpermits⟩
    · intro config' hbulkhead
      have hpresent : .bulkhead ∈ layers.present :=
        List.mem_filter.mpr ⟨by decide, by simp [Layers.has, hbulkhead]⟩
      have hone : c.frames.countP Frame.isSlot = 1 := hnested.slots_of_permit hls hpresent hp
      refine (hunwinding.once hone (by rw [hnone]; rfl)).imp (fun ch hch hback => ?_)
        fun ch _ hgives hown => (hgives hown).bulkhead_eq
      obtain ⟨hown, hgives⟩ := hback
      obtain ⟨earlier, hearlier⟩ := hbefore ch hch
      exact ⟨hown, hearlier.handsSlotBack hbulkhead hgives⟩
  · -- A turn of the call is a course of its own steps, after which it is still broken.
    obtain ⟨steps, hsteps, -, hrests⟩ :=
      hall.exists_turn (ordered_of_origin horigin (⟨tr, m, tr₁⟩ :: log'))
    obtain ⟨c'', hc'', hbroken'', -⟩ := Course.unwinding hunwinding hc' hbroken hsteps
    refine ⟨c'', hc'', ?_⟩
    obtain ⟨message, hleaving⟩ | ⟨hended, -⟩ := hbroken''
    · simp [Traffic.step, hc'', hleaving] at hrests
    · exact hended

/-- A bulkhead with one slot, and a breaker without a cooldown that lets one probe in. -/
def guarded : Layers :=
  ⟨none, some (.new ⟨1, .zero⟩), some (.new ⟨1, 1, .zero, 1⟩), none, none⟩

/-- An operation that panics at once. -/
def panicking : Operation Nat := ⟨some 0, .panic "lost", false⟩

/-- The circuit is open, and a call comes as the first probe up to its operation. -/
def probing : List (Move Nat) :=
  [.breaker .forceOpen, .mint none, .begin 0 (route guarded) (.operation [panicking]), .step 0,
    .step 0, .step 0]

/-- The operation of a probe panics. The circuit is half-open before and after that; the probe
gives its place back, and the slot, in the steps that it takes on its way out. -/
theorem no_outcome_of_panicking_probe :
    ∃ (log log' : List (Change Nat)) (tr tr₁ tr' : Traffic Nat) (c c' : Call Nat) (p : Permit),
      Course (.start guarded .none) log tr ∧ tr.calls[0]? = some c ∧ p ∈ c.permits ∧
      p.probe = some 2 ∧ tr.layers.circuitBreaker.map (fun b => (b.state, b.period, b.probes)) =
        some (.halfOpen, 2, 1) ∧
      BreaksOff tr 0 c (.step 0) ∧ tr.move (.step 0) = some tr₁ ∧ Course tr₁ log' tr' ∧
      tr'.calls[0]? = some c' ∧ c'.activity = .ended ∧
      (∀ ch ∈ ⟨tr, .step 0, tr₁⟩ :: log', ch.IsOf 0 → ch.Unnoticed) ∧
      Once (fun ch => ch.IsOf 0 ∧ ch.HandsPermitBack p)
        (fun ch => ch.IsOf 0 →
          ch.after.layers.circuitBreaker = ch.before.layers.circuitBreaker)
        (⟨tr, .step 0, tr₁⟩ :: log') ∧
      Once (fun ch => ch.IsOf 0 ∧ ch.HandsSlotBack)
        (fun ch => ch.IsOf 0 → ch.after.layers.bulkhead = ch.before.layers.bulkhead)
        (⟨tr, .step 0, tr₁⟩ :: log') := by
  have hplay : ((Traffic.start guarded .none).play probing).isSome = true := rfl
  have hcourse := Traffic.course_played hplay
  have hmove : ((((Traffic.start guarded .none).play probing).get hplay).2.move
      (.step 0)).isSome = true := rfl
  have hout : (((((Traffic.start guarded .none).play probing).get hplay).2.move (.step 0)).get
      hmove |>.play [.step 0, .step 0, .step 0]).isSome = true := rfl
  have hrest := Traffic.course_played hout
  have hbreaks : BreaksOff (((Traffic.start guarded .none).play probing).get hplay).2 0
      ⟨0, .operation [panicking], 1, [.permit ⟨some 2⟩, .slot],
        .operating 1 panicking (some 0), 0⟩ (.step 0) := .operation rfl rfl
  have hp : ⟨some 2⟩ ∈ Call.permits (α := Nat) ⟨0, .operation [panicking], 1,
      [.permit ⟨some 2⟩, .slot], .operating 1 panicking (some 0), 0⟩ := .head _
  obtain ⟨hunnoticed, ⟨c', hc', -, hended⟩, -⟩ := no_outcome_of_breaksOff rfl hcourse rfl rfl hp
    hbreaks (Option.some_get hmove).symm hrest
  have hover : c'.activity = .ended := by
    obtain rfl := Option.some.inj hc'
    rfl
  obtain ⟨hpermit, hslot⟩ := hended hover
  exact ⟨_, _, _, _, _, _, c', _, hcourse, rfl, hp, rfl, rfl, hbreaks,
    (Option.some_get hmove).symm, hrest, hc', hover, hunnoticed, hpermit, hslot _ rfl⟩

end Executor

end Safeguard
