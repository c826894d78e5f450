import Safeguard.Proofs.Traffic.Journeys

/-!
# Layers that a call has not come to

A call changes a layer only when it asks the layer to let it in, or leaves it. So as long as a
layer that is not repeated is ahead of a call, the call has not invoked its operation, is inside
outer layers only, and has left all deeper layers as they were.

## Main definitions

* `Layers.SameAt`: a layer stays as it is.
* `Spares`: the steps of a call leave a layer as it is.
* `Untouched`: a call has not come past a layer yet.

## Main results

* `Rule.sameAt`: a step changes only the layer that the call is at, or leaves.
* `Traffic.follows_untouched`: a call has not come past what is ahead of it.
-/

namespace Safeguard

open Resilience (Layers)

variable {α : Type} {tr tr' : Traffic α} {id : Nat} {c c' : Call α} {log : List (Change α)}
  {l : Layer} {ls : List Layer}

/-- A layer is the same in both. -/
def Resilience.Layers.SameAt (a b : Layers) : Layer → Prop
  | .rateLimiter => b.rateLimiter = a.rateLimiter
  | .bulkhead => b.bulkhead = a.bulkhead
  | .circuitBreaker => b.circuitBreaker = a.circuitBreaker
  | .retry => b.retry = a.retry
  | .timeout => b.timeout = a.timeout

theorem Resilience.Layers.sameAt_refl (a : Layers) (l : Layer) : a.SameAt a l := by
  cases l <;> rfl

/-- The layer that a call is inside by a frame. -/
def Frame.owner : Frame → Layer
  | .slot => .bulkhead
  | .permit _ => .circuitBreaker
  | .attempt .. => .retry

/-- The steps of a call left a layer as it was. -/
def Spares (log : List (Change α)) (id : Nat) (l : Layer) : Prop :=
  ∀ ch ∈ log, ch.move = .step id → ch.before.layers.SameAt ch.after.layers l

theorem Spares.snoc (h : Spares log id l) {ch : Change α}
    (hch : ch.move = .step id → ch.before.layers.SameAt ch.after.layers l) :
    Spares (log ++ [ch]) id l := by
  intro ch' hch' hm
  obtain hch' | hch' := List.mem_append.mp hch'
  · exact h ch' hch' hm
  · obtain rfl := List.mem_singleton.mp hch'
    exact hch hm

/-- A call has not come past a layer yet: it has not invoked its operation, is inside outer
layers only, and left all deeper layers as they were. -/
structure Untouched (log : List (Change α)) (id : Nat) (c : Call α) (l : Layer) : Prop where
  uninvoked : c.invocations = 0
  outside : ∀ frame ∈ c.frames, frame.owner.depth < l.depth
  spares : ∀ l', l.depth < l'.depth → Spares log id l'

/-! ## Steps -/

/-- A step changes only the layer that the call is at, or the one that it leaves. -/
theorem Rule.sameAt {layers : Layers} {runs : List (Run α)} (h : Rule tr id c layers runs c')
    (hat : ∀ st inner, c.activity.ahead = st :: inner → st.owner ≠ l)
    (hleaves : ∀ outcome frame outside, c.activity = .leaving outcome →
      c.frames = frame :: outside → frame.owner ≠ l) : tr.layers.SameAt layers l := by
  cases h with
  | limiter _ rule =>
    obtain ⟨st, inner, hahead, howner⟩ := rule.exists_ahead
    cases l with
    | rateLimiter => exact absurd howner (hat st inner hahead)
    | _ => rfl
  | bulkhead _ rule =>
    cases l with
    | bulkhead =>
      obtain ⟨st, inner, hahead, howner⟩ | ⟨outcome, outside, hleaving, hframes⟩ :=
        rule.exists_ahead_or
      · exact absurd howner (hat st inner hahead)
      · exact absurd rfl (hleaves outcome .slot outside hleaving hframes)
    | _ => rfl
  | breaker _ rule =>
    cases l with
    | circuitBreaker =>
      obtain ⟨st, inner, hahead, howner⟩ | ⟨outcome, p, outside, hleaving, hframes⟩ :=
        rule.exists_ahead_or
      · exact absurd howner (hat st inner hahead)
      · exact absurd rfl (hleaves outcome (.permit p) outside hleaving hframes)
    | _ => rfl
  | inner => exact tr.layers.sameAt_refl l

/-- A call comes inside a layer when it passes it. -/
theorem Rule.frame_mem {layers : Layers} {runs : List (Run α)} (h : Rule tr id c layers runs c')
    {frame : Frame} (hmem : frame ∈ c'.frames) :
    (∃ st inner, c.activity.ahead = st :: inner ∧ c'.activity = .entering inner ∧
        frame.owner = st.owner) ∨
      ∃ frame₀ ∈ c.frames, frame₀.owner = frame.owner := by
  have hold : ∀ {frame₀ outside}, c.frames = frame₀ :: outside → frame ∈ outside →
      ∃ frame₀ ∈ c.frames, frame₀.owner = frame.owner :=
    fun hframes hin => ⟨frame, by rw [hframes]; exact .tail _ hin, rfl⟩
  cases h with
  | limiter _ rule => cases rule <;> exact .inr ⟨frame, hmem, rfl⟩
  | bulkhead _ rule =>
    cases rule with
    | @entered st inner _ entering owner =>
      obtain rfl | hin := List.mem_cons.mp hmem
      · exact .inl ⟨st, inner, by rw [entering]; rfl, rfl, owner.symm⟩
      · exact .inr ⟨frame, hin, rfl⟩
    | @resumed due inner _ waiting =>
      obtain rfl | hin := List.mem_cons.mp hmem
      · exact .inl ⟨.layer .bulkhead, inner, by rw [waiting]; rfl, rfl, rfl⟩
      · exact .inr ⟨frame, hin, rfl⟩
    | released _ frames => exact .inr (hold frames hmem)
    | _ => exact .inr ⟨frame, hmem, rfl⟩
  | breaker _ rule =>
    cases rule with
    | @admitted st inner _ p entering owner =>
      obtain rfl | hin := List.mem_cons.mp hmem
      · exact .inl ⟨st, inner, by rw [entering]; rfl, rfl, owner.symm⟩
      · exact .inr ⟨frame, hin, rfl⟩
    | settled _ frames => exact .inr (hold frames hmem)
    | spent _ frames => exact .inr (hold frames hmem)
    | _ => exact .inr ⟨frame, hmem, rfl⟩
  | inner rule =>
    cases rule with
    | @attempted inner _ entering =>
      obtain rfl | hin := List.mem_cons.mp hmem
      · exact .inl ⟨.layer .retry, inner, by rw [entering]; rfl, rfl, rfl⟩
      · exact .inr ⟨frame, hin, rfl⟩
    | @repeated due n inner outside _ frames =>
      obtain rfl | hin := List.mem_cons.mp hmem
      · exact .inr ⟨.attempt n inner, by rw [frames]; exact .head _, rfl⟩
      · exact .inr (hold frames hin)
    | attemptLeft _ frames => exact .inr (hold frames hmem)
    | interrupted _ frames => exact .inr (hold frames hmem)
    | unowned _ frames => exact .inr (hold frames hmem)
    | _ => exact .inr ⟨frame, hmem, rfl⟩

/-- An invocation starts inside all layers that are not repeated. -/
theorem Rule.invocations_eq {layers : Layers} {runs : List (Run α)}
    (h : Rule tr id c layers runs c')
    (hnow : c'.activity.ahead ≠ [] ∨ ∃ outcome, c'.activity = .leaving outcome) :
    c'.invocations = c.invocations := by
  cases h with
  | limiter _ rule => cases rule <;> rfl
  | bulkhead _ rule => cases rule <;> rfl
  | breaker _ rule => cases rule <;> rfl
  | inner rule =>
    cases rule with
    | raced =>
      obtain hahead | ⟨outcome, hleaving⟩ := hnow
      · exact absurd rfl hahead
      · cases hleaving
    | invoked =>
      obtain hahead | ⟨outcome, hleaving⟩ := hnow
      · exact absurd rfl hahead
      · cases hleaving
    | _ => rfl

/-- A step at a layer changes no deeper one. -/
theorem Rule.sameAt_of_ahead {layers : Layers} {runs : List (Run α)}
    (h : Rule tr id c layers runs c') {st : Stage} {inner : List Stage}
    (hahead : c.activity.ahead = st :: inner) (hl : st.owner.depth < l.depth) :
    tr.layers.SameAt layers l := by
  refine h.sameAt (fun st' inner' hahead' howner => ?_) fun outcome frame outside hleaving => ?_
  · obtain ⟨rfl, -⟩ := List.cons_eq_cons.mp (hahead.symm.trans hahead')
    rw [howner] at hl
    exact Nat.lt_irrefl _ hl
  · rw [hleaving] at hahead
    cases hahead

/-- A call at a stage does not come past a layer that is not before the one of the stage, unless
it passes that layer. -/
theorem Untouched.step (h : Untouched log id c l) (hrule : Rule tr id c tr'.layers tr'.runs c')
    {st : Stage} {inner : List Stage} (hahead : c.activity.ahead = st :: inner)
    (hl : st.owner.depth ≤ l.depth)
    (hpasses : c'.activity = .entering inner → st.owner.depth < l.depth)
    (hnow : c'.activity.ahead ≠ [] ∨ ∃ outcome, c'.activity = .leaving outcome) :
    Untouched (log ++ [⟨tr, .step id, tr'⟩]) id c' l := by
  refine ⟨(hrule.invocations_eq hnow).trans h.uninvoked, fun frame hmem => ?_, fun l' hl' => ?_⟩
  · obtain ⟨st', inner', hahead', hentering, howner⟩ | ⟨frame₀, hmem₀, howner⟩ :=
      hrule.frame_mem hmem
    · obtain ⟨rfl, rfl⟩ := List.cons_eq_cons.mp (hahead.symm.trans hahead')
      rw [howner]
      exact hpasses hentering
    · rw [← howner]
      exact h.outside frame₀ hmem₀
  · exact (h.spares l' hl').snoc fun _ => hrule.sameAt_of_ahead hahead (Nat.lt_of_le_of_lt hl hl')

namespace Traffic

variable {layers : Layers} {attached : Attachments} {tr₀ : Traffic α}

/-- Calls that take steps are there. -/
theorem Course.step_lt (h : Course tr₀ log tr) {ch : Change α} (hch : ch ∈ log)
    (hm : ch.move = .step id) : id < tr.calls.length := by
  refine Nat.lt_of_lt_of_le ?_ (h.calls_length_le hch)
  have heffect := h.effect hch
  rw [hm] at heffect
  cases heffect with
  | stepped hc => exact (List.getElem?_eq_some_iff.mp hc).1
  | aside kind => cases kind

/-- A call whose layers are in their order has not come past what is ahead of it, apart from
what is repeated. -/
theorem follows_untouched (layers : Layers) (attached : Attachments) :
    Follows (α := α) (.start layers attached) fun o log _ id c =>
      Layer.Ordered (o.stages.map Stage.owner) →
        ∀ l ∈ c.activity.ahead.map Stage.owner, l ≠ .timeout → Untouched log id c l where
  begun := by
    intro log tr token stages work tr' hcourse _ l _ _
    refine ⟨rfl, nofun, fun l' _ => ?_⟩
    have hspares : Spares log tr.calls.length l' := fun ch hch hm =>
      absurd (hcourse.step_lt hch hm) (Nat.lt_irrefl _)
    exact hspares.snoc nofun
  stepped := by
    intro o log tr tr' id c c' hcourse ho hc hstep ih hls l hl hne
    have hrouted := (hcourse.call_of_origin (follows_route _) hc ho hls).1
    have hdepth : ∀ {st inner}, c.activity.ahead = st :: inner →
        ∀ l ∈ inner.map Stage.owner, st.owner.depth < l.depth := by
      intro st inner hahead l hl
      have hsuffix := hrouted.ahead
      rw [hahead, List.map_cons] at hsuffix
      exact hls.depth_lt hsuffix hl
    have hnow : c'.activity.ahead ≠ [] := by
      intro hnil
      rw [hnil] at hl
      cases hl
    have hnone : c'.activity.ahead = [] → Untouched (log ++ [⟨tr, .step id, tr'⟩]) id c' l :=
      fun hnil => absurd hnil hnow
    cases hstep.rule.goes with
    | @passes st inner ahead now =>
      rw [now] at hl
      have hlt := hdepth ahead l hl
      refine (ih hls l ?_ hne).step hstep.rule ahead (Nat.le_of_lt hlt) (fun _ => hlt) (.inl hnow)
      rw [ahead]
      exact .tail _ hl
    | @waits st st' inner entering owner ahead waiting =>
      have hahead : c.activity.ahead = st :: inner := by rw [entering]; rfl
      rw [ahead, List.map_cons, owner] at hl
      have hle : st.owner.depth ≤ l.depth := by
        obtain rfl | hin := List.mem_cons.mp hl
        · exact Nat.le_refl _
        · exact Nat.le_of_lt (hdepth hahead l hin)
      refine (ih hls l ?_ hne).step hstep.rule hahead hle (fun now => ?_) (.inl hnow)
      · rw [hahead]
        exact hl
      · rw [now] at waiting
        cases waiting
    | refused _ now => exact hnone (by rw [now]; rfl)
    | quits _ _ now => exact hnone (by rw [now]; rfl)
    | breaks message _ _ now => exact hnone (by rw [now]; rfl)
    | races _ now => exact hnone (by rw [now]; rfl)
    | repeats _ frames now =>
      -- Only a deadline may be ahead again.
      rw [now] at hl
      exact absurd (hrouted.eq_timeout hls (by rw [frames]; exact .head _) hl) hne
    | inside _ ahead' => exact hnone ahead'
  dropped := by
    intro o log tr tr' id c _ _ _ _ _ l hl
    cases hl
  told := by
    intro o log tr tr' id c _ _ _ ih hls l hl hne
    obtain ⟨huninvoked, houtside, hspares⟩ := ih hls l hl hne
    exact ⟨huninvoked, houtside, fun l' hl' => (hspares l' hl').snoc nofun⟩
  other := by
    intro o log tr tr' m id c _ _ hm _ _ _ ih hls l hl hne
    obtain ⟨huninvoked, houtside, hspares⟩ := ih hls l hl hne
    exact ⟨huninvoked, houtside, fun l' hl' => (hspares l' hl').snoc fun h => absurd h hm⟩

end Traffic

end Safeguard
