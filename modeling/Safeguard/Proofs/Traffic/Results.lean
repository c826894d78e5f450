import Safeguard.Proofs.Traffic.Counters

/-!
# Results of calls

A call that the circuit breaker admitted tells it how it went when it leaves, unless it panics,
and nothing else tells the breaker anything of that kind. However many attempts a call makes,
it was admitted once and tells of it once.

## Main definitions

* `CircuitBreaker.Hears`: what a circuit breaker is told.
* `Change.result?`, `results`: the results in a log.

## Main results

* `Traffic.Course.hears`: the circuit breaker is told the results in the log, and no others.
* `Traffic.Course.count_results_le`: as many results as a call tells, so often it was admitted.
-/

namespace Safeguard

open CircuitBreaker (Permit Watched)
open Resilience (Layers)

variable {α : Type} {tr tr' : Traffic α} {id : Nat} {c c' : Call α} {log : List (Change α)}

/-- What happens to a circuit breaker at a time when it is told this: whether a call failed, or
nothing. -/
inductive CircuitBreaker.Hears (now : Instant) (b : CircuitBreaker) :
    Option Bool → CircuitBreaker → Prop where
  /-- A call ended with a result. -/
  | result {b' : CircuitBreaker} (p : Permit) (failed : Bool)
      (watched : Watched now (b.settle p failed now).1 b') : Hears now b (some failed) b'
  /-- A call asked for admission. -/
  | asked {b' : CircuitBreaker} (watched : Watched now (b.request now).1 b') : Hears now b none b'
  /-- Permits were handed back without a result. -/
  | abandoned (ps : List Permit) : Hears now b none (ps.foldl abandon b)
  /-- It was used directly. -/
  | used {b' : CircuitBreaker} (use : BreakerUse) (watched : Watched now (use.apply b now).1 b') :
      Hears now b none b'
  | nothing : Hears now b none b

/-- What a call is about to tell the circuit breaker: whether it failed. -/
def Call.result? (c : Call α) (attached : Attachments) : Option Bool :=
  match c.frames, c.activity with
  | .permit _ :: _, .leaving outcome => attached.verdict outcome
  | _, _ => none

/-- The call that tells the circuit breaker in a change how it went, and whether it failed. -/
def Change.result? (ch : Change α) : Option (Nat × Bool) :=
  match ch.move with
  | .step id => ch.before.calls[id]?.bind fun c =>
      (c.result? ch.before.attached).map fun failed => (id, failed)
  | _ => none

/-- The results that calls told the circuit breaker, in order. -/
def results (log : List (Change α)) : List (Nat × Bool) := log.filterMap Change.result?

theorem results_snoc (log : List (Change α)) (ch : Change α) :
    results (log ++ [ch]) = results log ++ ch.result?.toList := by
  rw [results, List.filterMap_append]
  cases h : ch.result? <;> simp [results, h]

/-! ## Steps -/

section Result

variable {attached : Attachments}

/-- Only a call on its way out tells a result. -/
theorem Call.result?_of_not_leaving (h : ∀ outcome, c.activity ≠ .leaving outcome) :
    c.result? attached = none := by
  unfold Call.result?
  split
  · rename_i outcome _ hactivity
    exact absurd hactivity (h outcome)
  · rfl

/-- Only a call that leaves the circuit breaker does. -/
theorem Call.result?_of_frames (h : ∀ p outside, c.frames ≠ .permit p :: outside) :
    c.result? attached = none := by
  unfold Call.result?
  split
  · rename_i p outside outcome hframes _
    exact absurd hframes (h p outside)
  · rfl

theorem Call.result?_of_ahead {st : Stage} {inner : List Stage}
    (h : c.activity.ahead = st :: inner) : c.result? attached = none := by
  refine Call.result?_of_not_leaving fun outcome hleaving => ?_
  rw [hleaving] at h
  cases h

theorem Call.result?_of_leaving {p : Permit} {outside : List Frame} {outcome : Outcome α}
    (hleaving : c.activity = .leaving outcome) (hframes : c.frames = .permit p :: outside) :
    c.result? attached = attached.verdict outcome := by
  simp only [Call.result?, hleaving, hframes]

end Result

/-- A step that does not concern the circuit breaker is none in which a call leaves it. -/
theorem InnerRule.result?_eq_none {runs : List (Run α)} {b : CircuitBreaker}
    (h : InnerRule tr id c runs c') (hb : tr.layers.circuitBreaker = some b)
    (attached : Attachments) : c.result? attached = none := by
  have hnot : ∀ {frame outside}, c.frames = frame :: outside → (∀ p, frame ≠ .permit p) →
      c.result? attached = none := by
    intro frame outside hframes hframe
    refine Call.result?_of_frames fun p outside' hframes' => ?_
    exact hframe p (List.cons_eq_cons.mp (hframes.symm.trans hframes')).1
  cases h with
  | skipped ahead => exact Call.result?_of_ahead ahead
  | quit ahead => exact Call.result?_of_ahead ahead
  | attemptLeft _ frames => exact hnot frames nofun
  | paused _ frames => exact hnot frames nofun
  | unowned _ frames absent =>
    rcases absent with ⟨rfl, -⟩ | ⟨-, hnone⟩
    · exact hnot frames nofun
    · rw [hnone] at hb
      cases hb
  | done _ frames => exact Call.result?_of_frames fun p outside h => by simp [frames] at h
  | _ => exact Call.result?_of_not_leaving (by simp_all)

/-- The circuit breaker is told what a call tells, and nothing else. -/
theorem Rule.hears {layers : Layers} {runs : List (Run α)} {b : CircuitBreaker}
    (h : Rule tr id c layers runs c') (hb : tr.layers.circuitBreaker = some b) :
    ∃ b', layers.circuitBreaker = some b' ∧ b.Hears tr.now (c.result? tr.attached) b' := by
  cases h with
  | limiter _ rule =>
    obtain ⟨st, inner, hahead, -⟩ := rule.exists_ahead
    rw [Call.result?_of_ahead hahead]
    exact ⟨b, hb, .nothing⟩
  | bulkhead _ rule =>
    have hnone : c.result? tr.attached = none := by
      cases rule with
      | released _ frames => exact Call.result?_of_frames fun p outside h => by simp [frames] at h
      | _ => exact Call.result?_of_not_leaving (by simp_all)
    rw [hnone]
    exact ⟨b, hb, .nothing⟩
  | @breaker b₀ b' _ present rule =>
    obtain rfl : b₀ = b := Option.some.inj (present.symm.trans hb)
    refine ⟨b', rfl, ?_⟩
    cases rule with
    | admitted entering _ _ watched =>
      rw [Call.result?_of_not_leaving (by simp [entering])]
      exact .asked watched
    | rejected entering _ _ watched =>
      rw [Call.result?_of_not_leaving (by simp [entering])]
      exact .asked watched
    | spoiled entering _ _ watched =>
      rw [Call.result?_of_not_leaving (by simp [entering])]
      exact .asked watched
    | @settled outcome outcome' p outside failed b' leaving frames verdict watched =>
      rw [Call.result?_of_leaving leaving frames, verdict]
      exact .result p failed watched
    | @spent outcome p outside message leaving frames verdict =>
      rw [Call.result?_of_leaving leaving frames, verdict]
      exact .abandoned [p]
  | inner rule =>
    rw [rule.result?_eq_none hb]
    exact ⟨b, hb, .nothing⟩

theorem Frame.length_permits_cons (frame : Frame) (outside : List Frame) :
    (permits outside).length ≤ (permits (frame :: outside)).length := by
  cases frame with
  | permit p => exact Nat.le_succ _
  | _ => exact Nat.le_refl _

/-- A call gets a permit when it is admitted, and gives it up when it tells a result. -/
theorem Rule.permits_le {layers : Layers} {runs : List (Run α)} {b : CircuitBreaker}
    (h : Rule tr id c layers runs c') (hb : tr.layers.circuitBreaker = some b)
    (attached : Attachments) :
    (c.result? attached).toList.length + c'.permits.length ≤ c.permits.length +
      (c.passage? id c'.activity).toList.countP (Passage.is .circuitBreaker .passed) := by
  -- Nothing is told, and no permit is had that was not there before.
  have hless : c.result? attached = none → c'.permits.length ≤ c.permits.length →
      (c.result? attached).toList.length + c'.permits.length ≤ c.permits.length +
        (c.passage? id c'.activity).toList.countP (Passage.is .circuitBreaker .passed) := by
    intro hnone hpermits
    rw [hnone, Option.toList_none, List.length_nil, Nat.zero_add]
    exact Nat.le_add_right_of_le hpermits
  -- A permit is given up, and at most one result told.
  have hgives : ∀ {p outside}, c.frames = .permit p :: outside → c'.frames = outside →
      (c.result? attached).toList.length + c'.permits.length ≤ c.permits.length +
        (c.passage? id c'.activity).toList.countP (Passage.is .circuitBreaker .passed) := by
    intro p outside hframes hframes'
    have hone : (c.result? attached).toList.length ≤ 1 := Option.length_toList_le
    have hheld : c.permits = p :: c'.permits := by
      rw [Call.permits, Call.permits, hframes, hframes']
      rfl
    rw [hheld, List.length_cons]
    omega
  have houtside : ∀ {frame outside}, c.frames = frame :: outside →
      (Frame.permits outside).length ≤ c.permits.length := by
    intro frame outside hframes
    rw [Call.permits, hframes]
    exact Frame.length_permits_cons frame outside
  cases h with
  | limiter _ rule =>
    obtain ⟨st, inner, hahead, -⟩ := rule.exists_ahead
    refine hless (Call.result?_of_ahead hahead) ?_
    cases rule <;> exact Nat.le_refl _
  | bulkhead _ rule =>
    cases rule with
    | released leaving frames =>
      exact hless (Call.result?_of_frames fun p outside h => by simp [frames] at h)
        (houtside frames)
    | _ => exact hless (Call.result?_of_not_leaving (by simp_all)) (Nat.le_refl _)
  | breaker _ rule =>
    cases rule with
    | @admitted st inner b' p entering owner =>
      have hahead : c.activity.ahead = st :: inner := by rw [entering]; rfl
      rw [Call.result?_of_ahead hahead, Call.countP_passage?_is hahead owner, Option.toList_none,
        List.length_nil, Nat.zero_add]
      exact Nat.le_refl _
    | rejected entering =>
      exact hless (Call.result?_of_not_leaving (by simp [entering])) (Nat.le_refl _)
    | spoiled entering =>
      exact hless (Call.result?_of_not_leaving (by simp [entering])) (Nat.le_refl _)
    | settled leaving frames => exact hgives frames rfl
    | spent leaving frames => exact hgives frames rfl
  | inner rule =>
    refine hless (rule.result?_eq_none hb attached) ?_
    cases rule with
    | attemptLeft _ frames => exact houtside frames
    | interrupted _ frames => exact houtside frames
    | unowned _ frames => exact houtside frames
    | @repeated due number inner outside _ frames =>
      have hpermits : c.permits = Frame.permits outside := by rw [Call.permits, frames]; rfl
      rw [hpermits]
      exact Nat.le_refl _
    | _ => exact Nat.le_refl _

/-! ## Courses -/

namespace Traffic

variable {layers : Layers} {attached : Attachments} {m : Move α} {b : CircuitBreaker}

theorem result?_of_stepped (hc : tr.calls[id]? = some c) :
    (⟨tr, .step id, tr'⟩ : Change α).result? =
      (c.result? tr.attached).map fun failed => (id, failed) := by
  simp only [Change.result?, hc, Option.bind_some]

/-- A change tells the circuit breaker what a call tells, and nothing else. -/
theorem Effect.hears (h : Effect tr m tr') (hb : tr.layers.circuitBreaker = some b) :
    ∃ b', tr'.layers.circuitBreaker = some b' ∧
      b.Hears tr.now ((⟨tr, m, tr'⟩ : Change α).result?.map Prod.snd) b' := by
  cases h with
  | @stepped id c c' _ hc hstep =>
    have htold : ((c.result? tr.attached).map fun failed => (id, failed)).map Prod.snd =
        c.result? tr.attached := by
      cases c.result? tr.attached <;> rfl
    rw [result?_of_stepped hc, htold]
    exact hstep.rule.hears hb
  | @dropped id c _ hc _ hdrop =>
    exact ⟨c.permits.foldl CircuitBreaker.abandon b, by rw [hdrop.layers, hb]; rfl,
      .abandoned c.permits⟩
  | @breaker use b₀ b' present watched =>
    obtain rfl : b₀ = b := Option.some.inj (present.symm.trans hb)
    exact ⟨b', rfl, .used use watched⟩
  | begun => exact ⟨b, hb, .nothing⟩
  | told => exact ⟨b, hb, .nothing⟩
  | limiter => exact ⟨b, hb, .nothing⟩
  | idle => exact ⟨b, hb, .nothing⟩
  | aside kind haside =>
    refine ⟨b, by rw [haside.layers]; exact hb, ?_⟩
    cases m with
    | step => cases kind
    | _ => exact .nothing

/-- The circuit breaker stays where it is. -/
theorem Course.exists_breaker (h : Course (.start layers attached) log tr)
    (hb : layers.circuitBreaker = some b) : ∃ b', tr.layers.circuitBreaker = some b' := by
  induction h with
  | start => exact ⟨b, hb⟩
  | move _ hm ih =>
    obtain ⟨b', hb'⟩ := ih
    obtain ⟨b'', hb'', -⟩ := (effect_of_move hm).hears hb'
    exact ⟨b'', hb''⟩

/-- **The circuit breaker is told** the results in the log, and no others. -/
theorem Course.hears (h : Course (.start layers attached) log tr)
    (hb : layers.circuitBreaker = some b) {ch : Change α} (hch : ch ∈ log) :
    ∃ b b', ch.before.layers.circuitBreaker = some b ∧
      ch.after.layers.circuitBreaker = some b' ∧
      b.Hears ch.before.now (ch.result?.map Prod.snd) b' := by
  induction h with
  | start => cases hch
  | move hcourse hm ih =>
    obtain hch | hch := List.mem_append.mp hch
    · exact ih hch
    · obtain rfl := List.mem_singleton.mp hch
      obtain ⟨b₁, hb₁⟩ := hcourse.exists_breaker hb
      obtain ⟨b₂, hb₂, hhears⟩ := (effect_of_move hm).hears hb₁
      exact ⟨b₁, b₂, hb₁, hb₂, hhears⟩

/-- Results are told by calls that there are. -/
theorem Course.result_lt (h : Course tr₀ log tr) {id : Nat}
    (hid : id ∈ (results log).map Prod.fst) : id < tr.calls.length := by
  obtain ⟨⟨i, failed⟩, hresult, rfl⟩ := List.mem_map.mp hid
  obtain ⟨⟨before, m, after⟩, hch, hresult⟩ := List.mem_filterMap.mp hresult
  refine Nat.lt_of_lt_of_le ?_ (h.calls_length_le hch)
  cases m with
  | step j =>
    obtain ⟨c, hc, hresult⟩ := Option.bind_eq_some_iff.mp hresult
    obtain ⟨failed', -, heq⟩ := Option.map_eq_some_iff.mp hresult
    obtain ⟨rfl, -⟩ := Prod.mk.inj heq
    exact (List.getElem?_eq_some_iff.mp hc).1
  | _ => cases hresult

/-- A change in which a call takes no step tells no result of it. -/
theorem count_results_of_other {ch : Change α} (hstep : ch.move ≠ .step id) :
    ((results (log ++ [ch])).map Prod.fst).count id = ((results log).map Prod.fst).count id := by
  have hnone : (ch.result?.toList.map Prod.fst).count id = 0 := by
    obtain ⟨before, m, after⟩ := ch
    cases m with
    | step j =>
      have hne : j ≠ id := fun h => hstep (congrArg Move.step h)
      refine List.count_eq_zero.mpr fun hmem => hne ?_
      obtain ⟨⟨i, failed⟩, hresult, rfl⟩ := List.mem_map.mp hmem
      obtain ⟨c, -, hresult⟩ := Option.bind_eq_some_iff.mp (Option.mem_toList.mp hresult)
      obtain ⟨failed', -, heq⟩ := Option.map_eq_some_iff.mp hresult
      exact (Prod.mk.inj heq).1
    | _ => rfl
  rw [results_snoc, List.map_append, List.count_append, hnone, Nat.add_zero]

/-- Every result and every permit of a call is one of its admissions. -/
theorem follows_permits (hb : layers.circuitBreaker = some b) :
    Follows (α := α) (.start layers attached) fun _ log _ id c =>
      ((results log).map Prod.fst).count id + c.permits.length ≤
        (callsOf (Passage.is .circuitBreaker .passed) log).count id where
  begun := by
    intro log tr token stages work tr' hcourse
    have hnone : tr.calls.length ∉ (results log).map Prod.fst :=
      fun hmem => Nat.lt_irrefl _ (hcourse.result_lt hmem)
    have hstep : (⟨tr, .begin token stages work, tr'⟩ : Change α).move ≠
        .step tr.calls.length := nofun
    rw [count_results_of_other hstep, List.count_eq_zero.mpr hnone]
    exact Nat.zero_le _
  stepped := by
    intro o log tr tr' id c c' hcourse _ hc hstep ih
    obtain ⟨b', hb'⟩ := hcourse.exists_breaker hb
    have hle := hstep.rule.permits_le hb' tr.attached
    have htold : (((⟨tr, .step id, tr'⟩ : Change α).result?).toList.map Prod.fst).count id =
        (c.result? tr.attached).toList.length := by
      rw [result?_of_stepped hc]
      cases c.result? tr.attached <;> simp
    rw [results_snoc, List.map_append, List.count_append, htold,
      count_callsOf_of_eq (passage?_of_stepped hc hstep)]
    omega
  dropped := by
    intro o log tr tr' id c _ hc hdrop ih
    have hstep : (⟨tr, .drop id, tr'⟩ : Change α).move ≠ .step id := nofun
    rw [count_results_of_other hstep, count_callsOf_of_eq (passage?_of_dropped hc hdrop),
      Call.countP_is_ended _ _ (by decide)]
    exact Nat.le_trans (Nat.add_le_add_left (Nat.zero_le _) _) ih
  told := by
    intro o log tr tr' id c _ _ _ ih
    have hstep : (⟨tr, .letGo id, tr'⟩ : Change α).move ≠ .step id := nofun
    have hnone : (⟨tr, .letGo id, tr'⟩ : Change α).passage?.map Passage.call ≠ some id := nofun
    rw [count_results_of_other hstep, count_callsOf_of_ne hnone]
    exact ih
  other := by
    intro o log tr tr' m id c _ _ hstep _ _ hpassage ih
    rw [count_results_of_other hstep, count_callsOf_of_ne hpassage]
    exact ih

/-- As many results as a call tells the circuit breaker, so often it was admitted. -/
theorem Course.count_results_le (h : Course (.start layers attached) log tr)
    (hb : layers.circuitBreaker = some b) (id : Nat) :
    ((results log).map Prod.fst).count id ≤
      (callsOf (Passage.is .circuitBreaker .passed) log).count id := by
  by_cases hid : id < tr.calls.length
  · obtain ⟨-, -, hcount⟩ := h.call (follows_permits hb) (List.getElem?_eq_getElem hid)
    exact Nat.le_trans (Nat.le_add_right _ _) hcount
  · rw [List.count_eq_zero.mpr fun hmem => hid (h.result_lt hmem)]
    exact Nat.zero_le _

end Traffic

end Safeguard
