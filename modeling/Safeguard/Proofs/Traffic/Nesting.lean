import Safeguard.Proofs.Traffic.Untouched

/-!
# What a call is inside

Some layers lend a call something when it passes them, and the call is inside such a layer
until it gives that back. A call that follows its layers in their order is inside them in that
order: what it has passed is what it holds, and on its way out it gives back the innermost
first. So it holds at most one slot and one permit, and whoever holds a permit holds a slot, if
there is a bulkhead.

## Main definitions

* `Layer.lends`: whether a call can be inside a layer.
* `Call.inside`: the layers that a call is inside.
* `Call.Nested`: a call is inside the layers that it has passed.

## Main results

* `Traffic.follows_nested`: every call that follows its layers in their order is nested.
* `Call.Nested.slots_of_permit`: whoever holds a permit holds a slot.
-/

namespace Safeguard

open Resilience (Layers)
open CircuitBreaker (Permit)

variable {α : Type} {tr tr' : Traffic α} {id : Nat} {c c' : Call α} {ls : List Layer} {p : Permit}

/-- Whether a call can be inside a layer. -/
def Layer.lends : Layer → Bool
  | .bulkhead | .circuitBreaker | .retry => true
  | .rateLimiter | .timeout => false

/-- The layers that a call is inside, outermost first. -/
def Call.inside (c : Call α) : List Layer := (c.frames.map Frame.owner).reverse

/-- A call is inside the layers that it has passed, or inside the outer ones of them if it is on
its way out. -/
structure Call.Nested (ls : List Layer) (c : Call α) : Prop where
  inside : c.inside <+: ls.filter Layer.lends
  passed : ∀ st inner, c.activity.ahead = st :: inner → ∃ passed,
    ls = passed ++ (st :: inner).map Stage.owner ∧ c.inside = passed.filter Layer.lends

theorem Call.inside_congr (h : c'.frames = c.frames) : c'.inside = c.inside := by
  rw [inside, h, inside]

/-- What a call leaves, or comes inside, is the innermost layer. -/
theorem Call.inside_cons {frame : Frame} (h : c.frames = frame :: c'.frames) :
    c.inside = c'.inside ++ [frame.owner] := by
  simp only [inside, h, List.map_cons, List.reverse_cons]

/-! ## Steps -/

namespace Call.Nested

/-- A call has one more stage behind it. -/
theorem advance (h : c.Nested ls) {st : Stage} {inner : List Stage}
    (hahead : c.activity.ahead = st :: inner) (hnow : c'.activity = .entering inner)
    (hinside : c'.inside = c.inside ++ [st.owner].filter Layer.lends) : c'.Nested ls := by
  obtain ⟨passed, rfl, hpassed⟩ := h.passed st inner hahead
  have hsame : c'.inside = (passed ++ [st.owner]).filter Layer.lends := by
    rw [hinside, hpassed, List.filter_append]
  have hls : passed ++ (st :: inner).map Stage.owner =
      (passed ++ [st.owner]) ++ inner.map Stage.owner := by simp
  rw [hls]
  refine ⟨?_, fun st' inner' hahead' => ?_⟩
  · rw [hsame, List.filter_append (passed ++ [st.owner])]
    exact List.prefix_append ..
  · rw [hnow] at hahead'
    obtain rfl : inner = st' :: inner' := hahead'
    exact ⟨_, rfl, hsame⟩

/-- A call passes a layer that lends nothing. -/
theorem passes (h : c.Nested ls) {st : Stage} {inner : List Stage}
    (hahead : c.activity.ahead = st :: inner) (hlends : st.owner.lends = false)
    (hnow : c'.activity = .entering inner) (hframes : c'.frames = c.frames) : c'.Nested ls := by
  refine h.advance hahead hnow ?_
  rw [List.filter_cons_of_neg (Bool.not_eq_true _ ▸ hlends), Call.inside_congr hframes]
  exact (List.append_nil _).symm

/-- A call comes inside a layer. -/
theorem enters (h : c.Nested ls) {st : Stage} {inner : List Stage} (frame : Frame)
    (hahead : c.activity.ahead = st :: inner) (howner : frame.owner = st.owner)
    (hnow : c'.activity = .entering inner) (hframes : c'.frames = frame :: c.frames) :
    c'.Nested ls := by
  have hlends : st.owner.lends = true := by
    rw [← howner]
    cases frame <;> rfl
  refine h.advance hahead hnow ?_
  rw [List.filter_cons_of_pos hlends, Call.inside_cons hframes, howner]
  rfl

/-- A call starts to wait at a stage. -/
theorem waits (h : c.Nested ls) {st st' : Stage} {inner : List Stage}
    (hahead : c.activity.ahead = st :: inner) (hnow : c'.activity.ahead = st' :: inner)
    (howner : st'.owner = st.owner) (hframes : c'.frames = c.frames) : c'.Nested ls := by
  have hinside := Call.inside_congr hframes
  refine ⟨by rw [hinside]; exact h.inside, fun st'' inner'' hahead'' => ?_⟩
  obtain ⟨rfl, rfl⟩ := List.cons_eq_cons.mp (hnow.symm.trans hahead'')
  obtain ⟨passed, hls, hpassed⟩ := h.passed st _ hahead
  refine ⟨passed, ?_, hinside.trans hpassed⟩
  rw [hls, List.map_cons, List.map_cons, howner]

/-- A call is on its way out, or inside all its layers. -/
theorem outwards (h : c.Nested ls) (hnow : c'.activity.ahead = [])
    (hinside : c'.inside <+: c.inside) : c'.Nested ls :=
  ⟨hinside.trans h.inside, fun st inner hahead => by rw [hnow] at hahead; cases hahead⟩

/-- A call starts its next attempt: it is inside the layers up to the retry layer. -/
theorem repeats (h : c.Nested ls) (hrouted : c.Routed ls) (hls : Layer.Ordered ls)
    {number : Nat} {inner : List Stage} {outside : List Frame}
    (hframes : c.frames = .attempt number inner :: outside)
    (hnow : c'.activity = .entering inner) (hinside : c'.inside = c.inside) : c'.Nested ls := by
  have hmem : .attempt number inner ∈ c.frames := by rw [hframes]; exact .head _
  obtain ⟨before, hbefore⟩ := hrouted.attempts number inner hmem
  have hprefix := h.inside
  refine ⟨hinside ▸ hprefix, fun st inner' hahead => ⟨before ++ [.retry], ?_, ?_⟩⟩
  · rw [hnow] at hahead
    obtain rfl : inner = st :: inner' := hahead
    rw [← hbefore]
    simp
  · -- No other layer is inside the retry layer, and none before it is one.
    have hdeep : (inner.map Stage.owner).filter Layer.lends = [] :=
      List.filter_eq_nil_iff.mpr fun l hl => by
        rw [hrouted.eq_timeout hls hmem hl]
        exact Bool.false_ne_true
    have hfirst : Layer.retry ∉ before.filter Layer.lends := fun hmem => by
      rw [← hbefore] at hls
      have hlt := (List.pairwise_append.mp hls).2.2 _ (List.mem_of_mem_filter hmem) _ (.head _)
      exact Nat.lt_irrefl _ hlt
    have hcons : c.inside = { c with frames := outside }.inside ++ [.retry] := by
      rw [Call.inside, hframes, List.map_cons, List.reverse_cons]
      rfl
    rw [← hbefore, List.filter_append, List.filter_cons_of_pos rfl, hdeep, hcons,
      List.prefix_concat_iff] at hprefix
    rw [hinside, hcons, List.filter_append]
    obtain heq | hshort := hprefix
    · exact heq
    · exact absurd (hshort.subset (List.mem_append_right _ (.head _))) hfirst

end Call.Nested

/-- Every step keeps calls nested. -/
theorem Rule.nested {layers : Layers} {runs : List (Run α)} (hrule : Rule tr id c layers runs c')
    (hhas : ∀ l ∈ ls, tr.layers.has l = true) (hls : Layer.Ordered ls) (hrouted : c.Routed ls)
    (h : c.Nested ls) : c'.Nested ls := by
  have hsame : ∀ {c' : Call α}, c'.activity.ahead = [] → c'.frames = c.frames → c'.Nested ls :=
    fun hnow hframes => h.outwards hnow (Call.inside_congr hframes ▸ List.prefix_refl _)
  have hleft : ∀ {c' : Call α} {frame}, c.frames = frame :: c'.frames →
      c'.activity.ahead = [] → c'.Nested ls :=
    fun hframes hnow => h.outwards hnow (Call.inside_cons hframes ▸ List.prefix_append ..)
  cases hrule with
  | limiter _ rule =>
    cases rule with
    | granted ahead owner =>
      exact h.passes ahead (by rw [owner]; rfl) rfl rfl
    | pending entering owner => exact h.waits (by rw [entering]; rfl) rfl owner.symm rfl
    | _ => exact hsame rfl rfl
  | bulkhead _ rule =>
    cases rule with
    | entered entering owner =>
      exact h.enters .slot (by rw [entering]; rfl) owner.symm rfl rfl
    | queued entering owner => exact h.waits (by rw [entering]; rfl) rfl owner.symm rfl
    | resumed waiting => exact h.enters .slot (by rw [waiting]; rfl) rfl rfl rfl
    | released _ frames => exact hleft frames rfl
    | _ => exact hsame rfl rfl
  | breaker _ rule =>
    cases rule with
    | admitted entering owner =>
      exact h.enters (.permit _) (by rw [entering]; rfl) owner.symm rfl rfl
    | settled _ frames => exact hleft frames rfl
    | spent _ frames => exact hleft frames rfl
    | _ => exact hsame rfl rfl
  | inner rule =>
    cases rule with
    | @skipped st inner ahead idle =>
      -- A layer of the list is there, so what is skipped is a deadline.
      have hin : st.owner ∈ ls := by
        obtain ⟨passed, rfl, -⟩ := h.passed st inner ahead
        exact List.mem_append_right _ (.head _)
      obtain habsent | ⟨howner, -⟩ := idle
      · rw [hhas _ hin] at habsent
        cases habsent
      · exact h.passes ahead (by rw [howner]; rfl) rfl rfl
    | attempted entering => exact h.enters (.attempt _ _) (by rw [entering]; rfl) rfl rfl rfl
    | repeated _ frames =>
      refine h.repeats hrouted hls frames rfl ?_
      simp only [Call.inside, frames, List.map_cons]
      rfl
    | attemptLeft _ frames => exact hleft frames rfl
    | interrupted _ frames => exact hleft frames rfl
    | unowned _ frames => exact hleft frames rfl
    | _ => exact hsame rfl rfl

namespace Traffic

/-- Every call that follows its layers in their order is nested. -/
theorem follows_nested (layers : Layers) (attached : Attachments) :
    Follows (α := α) (.start layers attached) fun o _ _ _ c =>
      Layer.Ordered (o.stages.map Stage.owner) →
        (∀ l ∈ o.stages.map Stage.owner, layers.has l = true) →
          c.Nested (o.stages.map Stage.owner) where
  begun := by
    intro log tr token stages work tr' _ _ _
    refine ⟨List.nil_prefix, fun st inner hahead => ⟨[], ?_, rfl⟩⟩
    rw [show stages = st :: inner from hahead]
    rfl
  stepped := by
    intro o log tr tr' id c c' hcourse ho hc hstep ih hls hhas
    refine hstep.rule.nested (fun l hl => ?_) hls
      (hcourse.call_of_origin (follows_route _) hc ho hls).1 (ih hls hhas)
    rw [hcourse.keeps (f := fun tr => tr.layers.has l) fun heffect => heffect.has_eq l]
    exact hhas l hl
  dropped _ _ _ _ _ _ := ⟨List.nil_prefix, nofun⟩
  told _ _ _ ih hls hhas := ⟨(ih hls hhas).inside, (ih hls hhas).passed⟩
  other _ _ _ _ _ _ h := h

end Traffic

/-! ## What nested calls hold -/

/-- Whether a frame is a permit of the circuit breaker. -/
def Frame.isPermit : Frame → Bool
  | .permit _ => true
  | _ => false

theorem Frame.length_permits (frames : List Frame) :
    (Frame.permits frames).length = frames.countP Frame.isPermit := by
  induction frames with
  | nil => rfl
  | cons frame frames ih =>
    cases frame <;> simp [Frame.permits, List.countP_cons, Frame.isPermit, ih]

theorem Call.count_inside (c : Call α) (l : Layer) :
    c.inside.count l = c.frames.countP (·.owner = l) := by
  rw [inside, List.count_reverse, List.count_eq_countP, List.countP_map]
  refine List.countP_congr fun frame _ => ?_
  simp [Function.comp]

theorem Call.slots_eq (c : Call α) : c.slots = c.inside.count .bulkhead := by
  rw [count_inside, slots]
  refine List.countP_congr fun frame _ => ?_
  cases frame <;> simp [Frame.isSlot, Frame.owner]

theorem Call.length_permits (c : Call α) :
    c.permits.length = c.inside.count .circuitBreaker := by
  rw [count_inside, permits, Frame.length_permits]
  refine List.countP_congr fun frame _ => ?_
  cases frame <;> simp [Frame.isPermit, Frame.owner]

namespace Call.Nested

/-- A call is inside a layer at most once. -/
theorem count_le (h : c.Nested ls) (hls : Layer.Ordered ls) (l : Layer) :
    c.inside.count l ≤ 1 := by
  have hnodup : (ls.filter Layer.lends).Nodup :=
    (hls.imp fun hlt heq => by simp [heq] at hlt : ls.Nodup).filter _
  exact List.nodup_iff_count.mp (hnodup.sublist h.inside.sublist) l

/-- A call holds one permit at most. -/
theorem permits_eq (h : c.Nested ls) (hls : Layer.Ordered ls) (hp : p ∈ c.permits) :
    c.permits = [p] := by
  have hle : c.permits.length ≤ 1 := c.length_permits ▸ h.count_le hls _
  obtain ⟨q, hq⟩ := List.length_eq_one_iff.mp
    (Nat.le_antisymm hle (List.length_pos_of_mem hp))
  rw [hq] at hp ⊢
  rw [List.mem_singleton.mp hp]

/-- Whoever holds a permit is inside the circuit breaker. -/
theorem breaker_mem (hp : p ∈ c.permits) : .circuitBreaker ∈ c.inside :=
  List.count_pos_iff.mp (c.length_permits ▸ List.length_pos_of_mem hp)

/-- Whoever holds a permit holds a slot. -/
theorem slots_of_permit (h : c.Nested ls) (hls : Layer.Ordered ls) (hbulkhead : .bulkhead ∈ ls)
    (hp : p ∈ c.permits) : c.slots = 1 := by
  have hin : .bulkhead ∈ c.inside := by
    obtain ⟨deeper, hdeeper⟩ := h.inside
    have hmem : Layer.bulkhead ∈ ls.filter Layer.lends := List.mem_filter.mpr ⟨hbulkhead, rfl⟩
    have hordered := hls.sublist (List.filter_sublist (p := Layer.lends))
    rw [← hdeeper] at hmem hordered
    refine (List.mem_append.mp hmem).resolve_right fun hdeep => ?_
    -- The bulkhead is not inside the circuit breaker.
    have hlt := (List.pairwise_append.mp hordered).2.2 _ (breaker_mem hp) _ hdeep
    exact absurd hlt (by decide)
  have hpos := List.count_pos_iff.mpr hin
  have hle := h.count_le hls .bulkhead
  rw [c.slots_eq]
  omega

/-- Whoever holds a permit waits for no slot. -/
theorem awaitsSlot_of_permit (h : c.Nested ls) (hls : Layer.Ordered ls) (hp : p ∈ c.permits) :
    c.activity.awaitsSlot = false := by
  cases hactivity : c.activity with
  | awaitingSlot due inner =>
    obtain ⟨passed, rfl, hinside⟩ :=
      h.passed (.layer .bulkhead) inner (by rw [hactivity]; rfl)
    have hin := breaker_mem hp
    rw [hinside] at hin
    have hlt := (List.pairwise_append.mp hls).2.2 _ (List.mem_of_mem_filter hin) _ (.head _)
    exact absurd hlt (by decide)
  | _ => rfl

end Call.Nested

end Safeguard
