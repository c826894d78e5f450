import Safeguard.Proofs.Bulkhead.Conservation
import Safeguard.Proofs.Traffic.Journeys

/-!
# The flow of calls through the layers

What comes to a layer passes it, is refused, is given up there, or still waits; and what passes
a layer comes to the next one. Both are conservation laws: one step of one call keeps them, so
every course does, under every schedule.

## Main definitions

* `Activity.atDoor`, `Activity.waitsAt`: where a call is.
* `Passage.lost`: a call was given up, by cancelling or dropping it, where it waited.
* `Conserved`: what goes in comes out again.

## Main results

* `Traffic.Course.balance`: whatever came to a layer has passed it, was refused, was given up,
  or still waits.
* `Traffic.Course.delivered`: whatever passed a layer has come to the next one, or is about to.
-/

namespace Safeguard

open Resilience (Layers)

variable {α : Type} {tr tr' : Traffic α} {id : Nat} {c c' : Call α} {l l' : Layer}
  {ls : List Layer} {log : List (Change α)}

/-- Whether a call is about to ask a layer for the first time. -/
def Activity.atDoor (a : Activity α) (l : Layer) : Bool :=
  a.arrives ∧ a.ahead.head?.map Stage.owner = some l

/-- Whether a call waits at a layer. -/
def Activity.waitsAt (a : Activity α) (l : Layer) : Bool :=
  a.arrives = false ∧ a.ahead.head?.map Stage.owner = some l

/-- A call was given up where it waited: it was cancelled, or its caller dropped it. -/
def Passage.lost (l : Layer) (p : Passage) : Bool :=
  p.layer = l ∧ (p.fate = .refused .cancelled ∨ p.fate = .dropped ∧ p.arrives = false)

/-- A call was dropped before it could ask a layer anything. -/
def Passage.droppedAtDoor (l : Layer) (p : Passage) : Bool :=
  p.layer = l ∧ p.fate = .dropped ∧ p.arrives

/-- A call passed a layer, if there is one. -/
def Passage.leaves (before : Option Layer) (p : Passage) : Bool :=
  before = some p.layer ∧ p.fate = .passed

theorem Passage.leaves_some (l : Layer) : Passage.leaves (some l) = Passage.is l .passed := by
  funext p
  simp only [leaves, is, Option.some.injEq, eq_comm]

theorem Passage.leaves_none (p : Passage) : Passage.leaves none p = false := by
  simp [leaves]

/-! ## Balances

Both laws have one form: the passages of some kinds, together with the calls that were in
between before, are as many as the passages of other kinds with the calls in between now. Such
laws add up along a log, and along the list of calls. -/

/-- What goes in comes out again: with kinds of passages that count on either side, and with
the number of calls that were in between before, and that are there now. -/
def Conserved (ins outs : List (Passage → Bool)) (ps : List Passage) (before now : Nat) : Prop :=
  (ins.map ps.countP).sum + before = (outs.map ps.countP).sum + now

section Conserved

variable {ins outs : List (Passage → Bool)} {ps ps' : List Passage} {m n k x y : Nat}

theorem sum_countP_append (fs : List (Passage → Bool)) (ps ps' : List Passage) :
    (fs.map (ps ++ ps').countP).sum = (fs.map ps.countP).sum + (fs.map ps'.countP).sum := by
  induction fs with
  | nil => rfl
  | cons f fs ih =>
    rw [List.map_cons, List.sum_cons, List.countP_append, ih]
    simp only [List.map_cons, List.sum_cons]
    omega

theorem Conserved.append (h : Conserved ins outs ps m n) (h' : Conserved ins outs ps' n k) :
    Conserved ins outs (ps ++ ps') m k := by
  unfold Conserved at *
  rw [sum_countP_append, sum_countP_append]
  omega

theorem conserved_nil (n : Nat) : Conserved ins outs [] n n := by
  have hnone : ∀ fs : List (Passage → Bool), (fs.map ([] : List Passage).countP).sum = 0 := by
    intro fs
    induction fs with
    | nil => rfl
    | cons f fs ih => simp
  rw [Conserved, hnone, hnone]

/-- Something new, on neither side. -/
theorem Conserved.add (h : Conserved ins outs ps m n) (k : Nat) :
    Conserved ins outs ps (m + k) (n + k) := by
  unfold Conserved at *
  omega

/-- What one call conserves is conserved among all calls. -/
theorem Conserved.of_add (h : Conserved ins outs ps x y) (hset : n + x = m + y) :
    Conserved ins outs ps m n := by
  unfold Conserved at *
  omega

end Conserved

/-- What came to a layer, and what waited there, has passed it, was refused, was given up, or
waits there now. -/
def Balanced (l : Layer) : List Passage → Nat → Nat → Prop :=
  Conserved [Passage.came l]
    [Passage.is l .passed, Passage.is l (.refused l.refusal), Passage.lost l]

/-- What passed the layer before a layer, if there is one, and what was at its door, has come
there, was dropped at the door, or is at the door now. -/
def Delivered (before : Option Layer) (l : Layer) : List Passage → Nat → Nat → Prop :=
  Conserved [Passage.leaves before] [Passage.came l, Passage.droppedAtDoor l]

theorem Balanced.eq {ps : List Passage} {m n : Nat} (h : Balanced l ps m n) :
    ps.countP (Passage.came l) + m = ps.countP (Passage.is l .passed) +
      ps.countP (Passage.is l (.refused l.refusal)) + ps.countP (Passage.lost l) + n := by
  simpa [Balanced, Conserved, Nat.add_assoc] using h

theorem Delivered.eq {ps : List Passage} {m n : Nat} (h : Delivered (some l) l' ps m n) :
    ps.countP (Passage.is l .passed) + m =
      ps.countP (Passage.came l') + ps.countP (Passage.droppedAtDoor l') + n := by
  simpa [Delivered, Conserved, Passage.leaves_some] using h

/-- Calls start at the first layer. -/
theorem Delivered.eq_of_none {ps : List Passage} {m n : Nat} (h : Delivered none l ps m n) :
    m = ps.countP (Passage.came l) + ps.countP (Passage.droppedAtDoor l) + n := by
  simpa [Delivered, Conserved, funext Passage.leaves_none] using h

/-! ## One step -/

/-- A call at a stage that does not wait there any more. -/
theorem balanced_of_ahead {st : Stage} {inner : List Stage}
    (hahead : c.activity.ahead = st :: inner) (hwaits : c'.activity.waitsAt l = false)
    (hfate : c'.activity.fate = .passed ∨ c'.activity.fate = .refused st.owner.refusal ∨
      c'.activity.fate = .refused .cancelled ∨ st.owner ≠ l) :
    Balanced l (c.passage? id c'.activity).toList (if c.activity.waitsAt l then 1 else 0)
      (if c'.activity.waitsAt l then 1 else 0) := by
  have hwaited : c.activity.waitsAt l = decide (c.activity.arrives = false ∧ st.owner = l) := by
    simp [Activity.waitsAt, hahead]
  rw [Call.passage?_of_ahead hahead, hwaits, hwaited, Option.toList_some]
  generalize c'.activity.fate = fate at hfate
  generalize c.activity.arrives = arrives
  unfold Balanced Conserved
  by_cases howner : st.owner = l
  · subst howner
    have hrefusal := st.owner.refusal_ne_cancelled
    rcases hfate with rfl | rfl | rfl | hne
    · cases arrives <;> simp [Passage.is, Passage.came, Passage.lost]
    · cases arrives <;> simp [Passage.is, Passage.came, Passage.lost, hrefusal]
    · cases arrives <;> simp [Passage.is, Passage.came, Passage.lost, hrefusal.symm]
    · exact absurd rfl hne
  · simp [Passage.is, Passage.came, Passage.lost, howner]

/-- Where a call goes in a step is a balance; only at the circuit breaker a hook may panic. -/
theorem Call.Goes.balanced (h : c.Goes c') (id : Nat) (hl : l ≠ .circuitBreaker) :
    Balanced l (c.passage? id c'.activity).toList (if c.activity.waitsAt l then 1 else 0)
      (if c'.activity.waitsAt l then 1 else 0) := by
  have hleaving : ∀ {outcome}, c'.activity = .leaving outcome → c'.activity.waitsAt l = false := by
    intro outcome now
    simp [Activity.waitsAt, Activity.ahead, now]
  cases h with
  | passes ahead now =>
    refine balanced_of_ahead ahead ?_ (.inl (by rw [now]; rfl))
    simp [Activity.waitsAt, Activity.arrives, now]
  | @waits st st' inner entering owner ahead waiting fate =>
    have hahead : c.activity.ahead = st :: inner := by rw [entering]; rfl
    have harrives : c.activity.arrives = true := by rw [entering]; rfl
    rw [Call.passage?_of_ahead hahead, fate]
    unfold Balanced Conserved
    by_cases howner : st.owner = l <;>
      simp [Activity.waitsAt, Passage.is, Passage.came, Passage.lost, ahead, hahead, harrives,
        waiting, owner, howner]
  | refused ahead now =>
    exact balanced_of_ahead ahead (hleaving now) (.inr (.inl (by rw [now]; rfl)))
  | quits ahead owner now =>
    exact balanced_of_ahead ahead (hleaving now) (.inr (.inr (.inl (by rw [now]; rfl))))
  | breaks message ahead owner now =>
    exact balanced_of_ahead ahead (hleaving now) (.inr (.inr (.inr (by rw [owner]; exact hl.symm))))
  | races entering now =>
    refine balanced_of_ahead (by rw [entering]; rfl) ?_ (.inl (by rw [now]; rfl))
    simp [Activity.waitsAt, Activity.ahead, now]
  | repeats pausing frames now =>
    rw [Call.passage?_of_nil (by rw [pausing]; rfl), pausing, now]
    rfl
  | inside ahead ahead' =>
    rw [Call.passage?_of_nil ahead]
    simp [Balanced, Conserved, Activity.waitsAt, ahead, ahead']

/-- So is its end. -/
theorem balanced_of_dropped (c : Call α) (id : Nat) (l : Layer) :
    Balanced l (c.passage? id .ended).toList (if c.activity.waitsAt l then 1 else 0) 0 := by
  unfold Balanced Conserved
  cases hahead : c.activity.ahead with
  | nil => simp [Call.passage?_of_nil hahead, Activity.waitsAt, hahead]
  | cons st inner =>
    rw [Call.passage?_of_ahead hahead]
    by_cases howner : st.owner = l <;>
      simp [Activity.waitsAt, Activity.fate, Passage.is, Passage.came, Passage.lost, hahead,
        howner]

/-! ### From a layer to the next -/

theorem Layer.Ordered.eq_of_suffix (h : Layer.Ordered ls) {xs ys : List Layer}
    (hx : l :: xs <:+ ls) (hy : l :: ys <:+ ls) : xs = ys := by
  have hnot : ∀ {xs ys : List Layer}, l :: ys <:+ ls → l :: xs <:+ l :: ys → xs = ys := by
    intro xs ys hy hxy
    obtain heq | hxy := List.suffix_cons_iff.mp hxy
    · exact (List.cons_eq_cons.mp heq).2
    · exact absurd (h.depth_lt hy (hxy.subset (.head _))) (Nat.lt_irrefl _)
  obtain hxy | hyx := List.suffix_or_suffix_of_suffix hx hy
  · exact hnot hy hxy
  · exact (hnot hx hyx).symm

/-- The layer before a layer in a list, if there is one: it is the only one that leads there. -/
def Layer.Before (ls : List Layer) (before : Option Layer) (l : Layer) : Prop :=
  ∀ x xs, x :: xs <:+ ls → (before = some x ↔ xs.head? = some l)

theorem Layer.Ordered.before_of_suffix (h : Layer.Ordered ls) {rest : List Layer}
    (hnext : l :: l' :: rest <:+ ls) : Layer.Before ls (some l) l' := by
  intro x xs hx
  constructor
  · rintro heq
    obtain rfl := Option.some.inj heq
    rw [h.eq_of_suffix hx hnext]
    rfl
  · intro hhead
    obtain ⟨xs, rfl⟩ := List.head?_eq_some_iff.mp hhead
    have htail : xs = rest := h.eq_of_suffix ((List.suffix_cons _ _).trans hx)
      ((List.suffix_cons _ _).trans hnext)
    subst htail
    -- Two suffixes of the same length are the same.
    have hlength : (x :: l' :: xs).length = (l :: l' :: xs).length := rfl
    obtain hsuffix | hsuffix := List.suffix_or_suffix_of_suffix hx hnext
    · rw [(List.cons_eq_cons.mp (hsuffix.eq_of_length hlength)).1]
    · rw [(List.cons_eq_cons.mp (hsuffix.eq_of_length hlength.symm)).1]

/-- Nothing comes before the first layer. -/
theorem Layer.Ordered.before_none (h : Layer.Ordered (l :: ls)) :
    Layer.Before (l :: ls) none l := by
  intro x xs hx
  refine ⟨nofun, fun hhead => ?_⟩
  have hmem := List.mem_of_mem_head? hhead
  have hlt := h.depth_lt hx hmem
  obtain heq | hsuffix := List.suffix_cons_iff.mp hx
  · obtain ⟨rfl, -⟩ := List.cons_eq_cons.mp heq
    exact absurd hlt (Nat.lt_irrefl _)
  · have hgt := h.depth_lt List.suffix_rfl (hsuffix.subset (.head _))
    exact absurd (Nat.lt_trans hlt hgt) (Nat.lt_irrefl _)

/-- A deadline leads to no other layer. -/
theorem Layer.Before.ne_timeout {before : Option Layer} (h : Layer.Before ls before l)
    (hls : Layer.Ordered ls) {rest : List Layer} (hsuffix : .timeout :: rest <:+ ls) :
    before ≠ some .timeout := by
  intro hbefore
  have hdepth := hls.depth_lt hsuffix (List.mem_of_mem_head? ((h _ _ hsuffix).mp hbefore))
  cases l <;> simp [Layer.depth] at hdepth

/-- Where a call goes in a step, it delivers what passed a layer to the next one. -/
theorem Call.Goes.delivered (h : c.Goes c') (id : Nat) (hrouted : c.Routed ls)
    (hls : Layer.Ordered ls) {before : Option Layer} (hbefore : Layer.Before ls before l)
    (hl : l ≠ .timeout) :
    Delivered before l (c.passage? id c'.activity).toList (if c.activity.atDoor l then 1 else 0)
      (if c'.activity.atDoor l then 1 else 0) := by
  -- The call was at a stage, and does not stand at a door now.
  have hdone : ∀ {st inner}, c.activity.ahead = st :: inner → c'.activity.atDoor l = false →
      c'.activity.fate ≠ .passed → c'.activity.fate ≠ .dropped →
      Delivered before l (c.passage? id c'.activity).toList (if c.activity.atDoor l then 1 else 0)
        (if c'.activity.atDoor l then 1 else 0) := by
    intro st inner hahead hdoor hpassed hdropped
    rw [Call.passage?_of_ahead hahead, hdoor]
    unfold Delivered Conserved
    by_cases howner : st.owner = l <;> cases harrives : c.activity.arrives <;>
      simp [Activity.atDoor, Passage.leaves, Passage.came, Passage.droppedAtDoor, hahead, harrives,
        howner, hpassed, hdropped]
  have hleaving : ∀ {outcome}, c'.activity = .leaving outcome →
      c'.activity.atDoor l = false := by
    intro outcome now
    simp [Activity.atDoor, Activity.ahead, now]
  cases h with
  | @passes st inner ahead now =>
    -- The call stands at the door of the next layer now: at this one if it passed the one before.
    have hsuffix := hrouted.ahead
    rw [ahead, List.map_cons] at hsuffix
    have hiff := hbefore _ _ hsuffix
    rw [List.head?_map] at hiff
    have hstood : c.activity.atDoor l = decide (c.activity.arrives = true ∧ st.owner = l) := by
      simp [Activity.atDoor, ahead]
    have hstands : (Activity.entering inner : Activity α).atDoor l =
        decide (before = some st.owner) := by
      simp only [hiff]
      simp [Activity.atDoor, Activity.arrives, Activity.ahead]
    have hfate : (Activity.entering inner : Activity α).fate = .passed := rfl
    rw [Call.passage?_of_ahead ahead, now, hstood, hstands, hfate]
    unfold Delivered Conserved
    by_cases howner : st.owner = l <;> cases c.activity.arrives <;>
      simp [Passage.leaves, Passage.came, Passage.droppedAtDoor, howner, Nat.add_comm]
  | @waits st st' inner entering owner ahead waiting fate =>
    refine hdone (by rw [entering]; rfl) ?_ (by simp [fate]) (by simp [fate])
    simp [Activity.atDoor, waiting]
  | refused ahead now =>
    exact hdone ahead (hleaving now) (by simp [now, Activity.fate]) (by simp [now, Activity.fate])
  | quits ahead owner now =>
    exact hdone ahead (hleaving now) (by simp [now, Activity.fate]) (by simp [now, Activity.fate])
  | breaks message ahead _ now =>
    exact hdone ahead (hleaving now) (by simp [now, Activity.fate]) (by simp [now, Activity.fate])
  | @races inner run deadline due entering now =>
    have hsuffix := hrouted.ahead
    rw [entering] at hsuffix
    have hnot := hbefore.ne_timeout hls hsuffix
    rw [Call.passage?_of_ahead (by rw [entering]; rfl), entering, now]
    simp [Delivered, Conserved, Activity.atDoor, Activity.ahead, Passage.leaves, Passage.came,
      Passage.droppedAtDoor, Stage.owner, hnot, hl.symm]
  | @repeats number due inner outside pausing frames now =>
    -- What is repeated starts at a deadline, if anywhere.
    have hnot : inner.head?.map Stage.owner ≠ some l := by
      intro hhead
      rw [← List.head?_map] at hhead
      exact hl (hrouted.eq_timeout hls (by rw [frames]; exact .head _) (List.mem_of_head? hhead))
    rw [Call.passage?_of_nil (by rw [pausing]; rfl), pausing, now]
    simp [Delivered, Conserved, Activity.atDoor, Activity.ahead, hnot]
  | inside ahead ahead' =>
    rw [Call.passage?_of_nil ahead]
    simp [Delivered, Conserved, Activity.atDoor, ahead, ahead']

theorem delivered_of_dropped (c : Call α) (id : Nat) (before : Option Layer) (l : Layer) :
    Delivered before l (c.passage? id .ended).toList (if c.activity.atDoor l then 1 else 0) 0 := by
  unfold Delivered Conserved
  cases hahead : c.activity.ahead with
  | nil => simp [Call.passage?_of_nil hahead, Activity.atDoor, hahead]
  | cons st inner =>
    rw [Call.passage?_of_ahead hahead]
    by_cases howner : st.owner = l <;>
      simp [Activity.atDoor, Activity.fate, Passage.leaves, Passage.came, Passage.droppedAtDoor,
        hahead, howner]

/-! ## Courses -/

namespace Traffic

open CircuitBreaker.Ledger (countP_set_add)

variable {layers : Layers} {attached : Attachments}

/-- The number of calls that wait at a layer. -/
def waitingAt (tr : Traffic α) (l : Layer) : Nat := tr.calls.countP (·.activity.waitsAt l)

/-- The number of calls that are about to ask a layer for the first time. -/
def atDoorOf (tr : Traffic α) (l : Layer) : Nat := tr.calls.countP (·.activity.atDoor l)

/-- What every step of a call and every end conserve is conserved in every course; calls may
start at a place that counts. -/
theorem Course.conserved {ins outs : List (Passage → Bool)} {f : Activity α → Bool}
    (hended : f .ended = false)
    (hstep : ∀ {log' tr tr' id c c'}, log' <+: log → Course (.start layers attached) log' tr →
      tr.calls[id]? = some c → Stepped tr id c tr' c' →
      Conserved ins outs (c.passage? id c'.activity).toList (if f c.activity then 1 else 0)
        (if f c'.activity then 1 else 0))
    (hdrop : ∀ (c : Call α) (id : Nat),
      Conserved ins outs (c.passage? id .ended).toList (if f c.activity then 1 else 0) 0)
    (h : Course (.start layers attached) log tr) :
    Conserved ins outs (passages log) ((origins log).countP fun o => f (.entering o.stages))
      (tr.calls.countP fun c => f c.activity) := by
  induction h with
  | start => exact conserved_nil 0
  | @move log tr tr' m hcourse hm ih =>
    have hprefix : log <+: log ++ [⟨tr, m, tr'⟩] := List.prefix_append _ _
    have hbefore := ih fun hlog => hstep (hlog.trans hprefix)
    rw [passages_snoc, origins_snoc]
    -- No call starts: what is conserved up to now goes on.
    have hgoes : ∀ {ch : Change α} {ps : List Passage} {n : Nat}, ch.origin? = none →
        Conserved ins outs ps (tr.calls.countP fun c => f c.activity) n →
        Conserved ins outs (passages log ++ ps)
          ((origins log ++ ch.origin?.toList).countP fun o => f (.entering o.stages)) n := by
      intro ch ps n horigin hps
      rw [horigin, Option.toList_none, List.append_nil]
      exact hbefore.append hps
    cases effect_of_move hm with
    | stepped hc hstepped =>
      rw [passage?_of_stepped hc hstepped]
      refine hgoes rfl ((hstep hprefix hcourse hc hstepped).of_add ?_)
      rw [hstepped.calls]
      exact countP_set_add hc
    | dropped hc _ hdropped =>
      rw [passage?_of_dropped hc hdropped]
      refine hgoes rfl ((hdrop _ _).of_add ?_)
      rw [hdropped.calls, countP_set_add hc, hended]
      rfl
    | begun token stages work ready =>
      rw [List.countP_append, List.countP_append]
      exact (hbefore.append (conserved_nil _)).add _
    | @told id c hc work ready =>
      have hset : (tr.calls.set id { c with work := .hold true }).countP (fun c => f c.activity) +
          (if f c.activity then 1 else 0) =
          tr.calls.countP (fun c => f c.activity) + if f c.activity then 1 else 0 :=
        countP_set_add hc
      exact hgoes rfl ((conserved_nil _).of_add hset)
    | limiter use => exact hgoes rfl (conserved_nil _)
    | breaker use => exact hgoes rfl (conserved_nil _)
    | idle ended =>
      rw [passage?_of_ended ended]
      exact hgoes rfl (conserved_nil _)
    | aside kind haside =>
      rw [passage?_of_aside kind, haside.calls]
      refine hgoes ?_ (conserved_nil _)
      cases m with
      | begin => cases kind
      | _ => rfl

/-- Whatever came to a layer has passed it, was refused, was given up, or still waits. -/
theorem Course.balance (h : Course (.start layers attached) log tr) (hl : l ≠ .circuitBreaker) :
    Balanced l (passages log) 0 (tr.waitingAt l) := by
  have hconserved : Balanced l (passages log) _ (tr.waitingAt l) :=
    Course.conserved (f := (·.waitsAt l)) rfl
      (fun _ _ _ hstepped => hstepped.rule.goes.balanced _ hl)
      (fun c id => balanced_of_dropped c id l) h
  have hnone : (origins log).countP
      (fun o => (Activity.entering o.stages : Activity α).waitsAt l) = 0 :=
    List.countP_eq_zero.mpr fun o _ => by simp [Activity.waitsAt, Activity.arrives]
  rwa [hnone] at hconserved

/-- Among calls that follow the same layers, whatever started at a layer or passed the one
before it has come to the layer, was dropped before it could, or is about to. -/
theorem Course.delivered (h : Course (.start layers attached) log tr) (hls : Layer.Ordered ls)
    (hroute : ∀ o ∈ origins log, o.stages.map Stage.owner = ls) {before : Option Layer}
    (hbefore : Layer.Before ls before l) (hl : l ≠ .timeout) :
    Delivered before l (passages log) (if ls.head? = some l then tr.calls.length else 0)
      (tr.atDoorOf l) := by
  have hconserved : Delivered before l (passages log) _ (tr.atDoorOf l) :=
    Course.conserved (f := (·.atDoor l)) rfl (fun hlog hcourse hc hstepped => by
      obtain ⟨o, ho, hfollows⟩ := hcourse.call (follows_route _) hc
      have hstages := hroute o ((hlog.filterMap _).subset (List.mem_of_getElem? ho))
      rw [hstages] at hfollows
      exact hstepped.rule.goes.delivered _ (hfollows hls).1 hls hbefore hl)
      (fun c id => delivered_of_dropped c id before l) h
  have hdoor : ∀ o ∈ origins log,
      (Activity.entering o.stages : Activity α).atDoor l = decide (ls.head? = some l) := by
    intro o ho
    rw [← hroute o ho, List.head?_map]
    simp [Activity.atDoor, Activity.arrives, Activity.ahead]
  rw [List.countP_congr fun o ho => by rw [hdoor o ho]] at hconserved
  rw [h.calls_length]
  split
  · rename_i hhead
    simpa [hhead] using hconserved
  · rename_i hhead
    simpa [hhead] using hconserved

end Traffic

end Safeguard
