import Safeguard.Proofs.Traffic.Passages

/-!
# Journeys of calls

Seen from one call, a course is a journey: the call passes its stages one after the other, may
wait at some of them, and comes back to the innermost ones when it repeats an attempt. This
file forgets what components do and keeps where a call is, and says how a fact about every
call is proved by following calls from their start.

## Main definitions

* `Activity.coming`: the stages that a call has not come to yet.
* `Call.Goes`: where a call goes in a step.
* `Call.Routed`: a call follows a list of layers.
* `Traffic.Follows`: a fact about calls that every change keeps.

## Main results

* `Traffic.Course.call`: what every change keeps holds of every call.
* `Traffic.Course.nodup_came`: a call whose layers are in their order comes at most once to
  each layer that is not repeated.
-/

namespace Safeguard

open Resilience (Layers)

variable {α : Type} {tr tr' : Traffic α} {id : Nat} {c c' : Call α}

/-- The stages that a call has not come to yet. -/
def Activity.coming : Activity α → List Stage
  | .entering stages => stages
  | .awaitingTokens _ _ inner => inner
  | .awaitingSlot _ inner => inner
  | _ => []

theorem Activity.coming_of_ahead {a : Activity α} {st : Stage} {inner : List Stage}
    (h : a.ahead = st :: inner) : a.coming = if a.arrives then st :: inner else inner := by
  cases a with
  | entering stages => exact h
  | awaitingTokens n due rest => exact (List.cons_eq_cons.mp h).2
  | awaitingSlot due rest => exact (List.cons_eq_cons.mp h).2
  | _ => cases h

/-- A call that waits does so at the rate limiter or at the bulkhead. -/
theorem Activity.owner_of_ahead {a : Activity α} {st : Stage} {inner : List Stage}
    (h : a.ahead = st :: inner) (hwait : ∀ stages, a ≠ .entering stages) :
    st.owner = .rateLimiter ∨ st.owner = .bulkhead := by
  cases a with
  | entering stages => exact absurd rfl (hwait stages)
  | awaitingTokens n due rest =>
    obtain ⟨rfl, -⟩ := List.cons_eq_cons.mp h
    exact .inl rfl
  | awaitingSlot due rest =>
    obtain ⟨rfl, -⟩ := List.cons_eq_cons.mp h
    exact .inr rfl
  | _ => cases h

/-! ## Steps -/

/-- The error with which a layer refuses a call, or gives it up. -/
def Layer.refusal : Layer → LayerError
  | .rateLimiter => .rateLimited
  | .bulkhead => .bulkheadFull
  | .circuitBreaker => .circuitOpen
  | .retry => .attemptsExceeded
  | .timeout => .timedOut

theorem Layer.refusal_ne_cancelled (l : Layer) : l.refusal ≠ .cancelled := by
  cases l <;> decide

theorem Layer.refusal_injective : Function.Injective Layer.refusal := by
  intro l l' h
  cases l <;> cases l' <;> first | rfl | cases h

/-- Where a call goes in a step. -/
inductive Call.Goes (c c' : Call α) : Prop where
  /-- It passes a stage. -/
  | passes {st : Stage} {inner : List Stage} (ahead : c.activity.ahead = st :: inner)
      (now : c'.activity = .entering inner)
  /-- It starts to wait at a stage. -/
  | waits {st st' : Stage} {inner : List Stage} (entering : c.activity = .entering (st :: inner))
      (owner : st'.owner = st.owner) (ahead : c'.activity.ahead = st' :: inner)
      (waiting : c'.activity.arrives = false) (fate : c'.activity.fate = .waits)
  /-- It is refused at a stage. -/
  | refused {st : Stage} {inner : List Stage} (ahead : c.activity.ahead = st :: inner)
      (now : c'.activity = .leaving (.error (.layer st.owner.refusal)))
  /-- Its caller gave it up where it had to wait. -/
  | quits {st : Stage} {inner : List Stage} (ahead : c.activity.ahead = st :: inner)
      (owner : st.owner = .rateLimiter ∨ st.owner = .bulkhead)
      (now : c'.activity = .leaving (.error (.layer .cancelled)))
  /-- A hook panics. -/
  | breaks {st : Stage} {inner : List Stage} (message : String)
      (ahead : c.activity.ahead = st :: inner) (owner : st.owner = .circuitBreaker)
      (now : c'.activity = .leaving (.panic message))
  /-- It races its operation against a deadline. -/
  | races {inner : List Stage} {run deadline due : Nat}
      (entering : c.activity = .entering (.layer .timeout :: inner))
      (now : c'.activity = .racing run deadline due)
  /-- It starts its next attempt. -/
  | repeats {number due : Nat} {inner : List Stage} {outside : List Frame}
      (pausing : c.activity = .pausing due) (frames : c.frames = .attempt number inner :: outside)
      (now : c'.activity = .entering inner)
  /-- It is inside all its layers, or on its way out. -/
  | inside (ahead : c.activity.ahead = []) (ahead' : c'.activity.ahead = [])
      (coming' : c'.activity.coming = [])

theorem Rule.goes {layers : Layers} {runs : List (Run α)} (h : Rule tr id c layers runs c') :
    c.Goes c' := by
  cases h with
  | limiter _ rule =>
    cases rule with
    | granted ahead => exact .passes ahead rfl
    | refused ahead owner => exact .refused ahead (by rw [owner]; rfl)
    | impossible entering owner => exact .refused (by rw [entering]; rfl) (by rw [owner]; rfl)
    | @pending st inner entering owner =>
      have hsame : (Stage.tokens st.demand).owner = st.owner := owner.symm
      exact .waits entering hsame rfl rfl rfl
  | bulkhead _ rule =>
    cases rule with
    | entered entering => exact .passes (by rw [entering]; rfl) rfl
    | full entering owner => exact .refused (by rw [entering]; rfl) (by rw [owner]; rfl)
    | shunned entering owner => exact .quits (by rw [entering]; rfl) (.inr owner) rfl
    | @queued st inner entering owner =>
      have hsame : (Stage.layer .bulkhead).owner = st.owner := owner.symm
      exact .waits entering hsame rfl rfl rfl
    | resumed waiting => exact .passes (by rw [waiting]; rfl) rfl
    | expired waiting => exact .refused (by rw [waiting]; rfl) rfl
    | quit waiting => exact .quits (by rw [waiting]; rfl) (.inr rfl) rfl
    | released leaving => exact .inside (by rw [leaving]; rfl) rfl rfl
  | breaker _ rule =>
    cases rule with
    | admitted entering => exact .passes (by rw [entering]; rfl) rfl
    | rejected entering owner => exact .refused (by rw [entering]; rfl) (by rw [owner]; rfl)
    | spoiled entering owner => exact .breaks _ (by rw [entering]; rfl) owner rfl
    | settled leaving => exact .inside (by rw [leaving]; rfl) rfl rfl
    | spent leaving => exact .inside (by rw [leaving]; rfl) rfl rfl
  | inner rule =>
    cases rule with
    | skipped ahead => exact .passes ahead rfl
    | quit ahead waiting => exact .quits ahead (Activity.owner_of_ahead ahead waiting) rfl
    | exhausted entering => exact .refused (by rw [entering]; rfl) rfl
    | attempted entering => exact .passes (by rw [entering]; rfl) rfl
    | raced entering => exact .races entering rfl
    | repeated pausing frames => exact .repeats pausing frames rfl
    | _ => exact .inside (by simp_all only [Activity.ahead]) rfl rfl

/-- Attempts that a call is inside were started at the retry stage. -/
theorem Rule.attempt_mem {layers : Layers} {runs : List (Run α)}
    (h : Rule tr id c layers runs c') {number : Nat} {inner : List Stage}
    (hmem : .attempt number inner ∈ c'.frames) :
    (∃ number, .attempt number inner ∈ c.frames) ∨
      c.activity.ahead = .layer .retry :: inner := by
  have hold : ∀ {frame outside}, c.frames = frame :: outside →
      .attempt number inner ∈ outside → ∃ number, .attempt number inner ∈ c.frames :=
    fun hframes hin => ⟨number, by rw [hframes]; exact .tail _ hin⟩
  cases h with
  | limiter _ rule => cases rule <;> exact .inl ⟨number, hmem⟩
  | bulkhead _ rule =>
    cases rule with
    | entered => exact .inl ⟨number, (List.mem_cons.mp hmem).resolve_left nofun⟩
    | resumed => exact .inl ⟨number, (List.mem_cons.mp hmem).resolve_left nofun⟩
    | released _ frames => exact .inl (hold frames hmem)
    | _ => exact .inl ⟨number, hmem⟩
  | breaker _ rule =>
    cases rule with
    | admitted => exact .inl ⟨number, (List.mem_cons.mp hmem).resolve_left nofun⟩
    | settled _ frames => exact .inl (hold frames hmem)
    | spent _ frames => exact .inl (hold frames hmem)
    | _ => exact .inl ⟨number, hmem⟩
  | inner rule =>
    cases rule with
    | attempted entering =>
      obtain hnew | hin := List.mem_cons.mp hmem
      · obtain ⟨-, rfl⟩ := Frame.attempt.inj hnew
        exact .inr (by rw [entering]; rfl)
      · exact .inl ⟨number, hin⟩
    | @repeated due n rest outside pausing frames =>
      obtain hnew | hin := List.mem_cons.mp hmem
      · obtain ⟨-, rfl⟩ := Frame.attempt.inj hnew
        exact .inl ⟨n, by rw [frames]; exact .head _⟩
      · exact .inl (hold frames hin)
    | attemptLeft _ frames => exact .inl (hold frames hmem)
    | interrupted _ frames => exact .inl (hold frames hmem)
    | unowned _ frames => exact .inl (hold frames hmem)
    | _ => exact .inl ⟨number, hmem⟩

/-! ## Routes -/

/-- A call follows a list of layers, outermost first: what is ahead of it is the rest of the
list, and what it repeats in an attempt is what follows the retry layer. -/
structure Call.Routed (ls : List Layer) (c : Call α) : Prop where
  ahead : c.activity.ahead.map Stage.owner <:+ ls
  attempts : ∀ number inner, .attempt number inner ∈ c.frames →
    .retry :: inner.map Stage.owner <:+ ls

variable {ls : List Layer}

theorem Call.routed_begun (token : TokenId) (work : Work α) (stages : List Stage) :
    Call.Routed (stages.map Stage.owner) ⟨token, work, 0, [], .entering stages, 0⟩ :=
  ⟨List.suffix_refl _, fun _ _ h => nomatch h⟩

theorem Call.Routed.ended (c : Call α) :
    Call.Routed ls { c with frames := [], activity := .ended } :=
  ⟨List.nil_suffix, fun _ _ h => nomatch h⟩

theorem Call.Routed.step (h : c.Routed ls) {layers : Layers} {runs : List (Run α)}
    (hrule : Rule tr id c layers runs c') : c'.Routed ls := by
  refine ⟨?_, fun number inner hmem => ?_⟩
  · cases hrule.goes with
    | passes ahead now =>
      have hsuffix := h.ahead
      rw [ahead] at hsuffix
      rw [now]
      exact (List.suffix_cons _ _).trans hsuffix
    | waits entering owner ahead =>
      have hsuffix := h.ahead
      rw [entering] at hsuffix
      rw [ahead, List.map_cons, owner]
      exact hsuffix
    | refused _ now => rw [now]; exact List.nil_suffix
    | quits _ _ now => rw [now]; exact List.nil_suffix
    | breaks message _ _ now => rw [now]; exact List.nil_suffix
    | races _ now => rw [now]; exact List.nil_suffix
    | @repeats number due inner outside _ frames now =>
      have hsuffix := h.attempts number inner (by rw [frames]; exact .head _)
      rw [now]
      exact (List.suffix_cons _ _).trans hsuffix
    | inside _ ahead' => rw [ahead']; exact List.nil_suffix
  · obtain ⟨number, hin⟩ | hahead := hrule.attempt_mem hmem
    · exact h.attempts number inner hin
    · have hsuffix := h.ahead
      rw [hahead] at hsuffix
      exact hsuffix

/-! ## Following calls

A fact about calls that speaks of the log is proved by following one call: how it starts, what
its own steps do, how its caller may end it, and that all other changes leave it alone. Which
change concerns which call is sorted out once, in `Course.call`. -/

namespace Traffic

/-- What every change keeps of a call. A fact about a call may depend on how it started, and
on the log and the traffic at the moment. -/
structure Follows (tr₀ : Traffic α)
    (P : Origin α → List (Change α) → Traffic α → Nat → Call α → Prop) : Prop where
  begun : ∀ {log tr token stages work tr'}, Course tr₀ log tr →
    P ⟨token, stages, work⟩ (log ++ [⟨tr, .begin token stages work, tr'⟩]) tr' tr.calls.length
      ⟨token, work, 0, [], .entering stages, 0⟩
  stepped : ∀ {o log tr tr' id c c'}, Course tr₀ log tr → (origins log)[id]? = some o →
    tr.calls[id]? = some c → Stepped tr id c tr' c' → P o log tr id c →
    P o (log ++ [⟨tr, .step id, tr'⟩]) tr' id c'
  dropped : ∀ {o log tr tr' id c}, Course tr₀ log tr → tr.calls[id]? = some c →
    Dropped tr id c tr' → P o log tr id c →
    P o (log ++ [⟨tr, .drop id, tr'⟩]) tr' id { c with frames := [], activity := .ended }
  told : ∀ {o log tr tr' id c}, Course tr₀ log tr → Effect tr (.letGo id) tr' →
    c.work = .hold false → P o log tr id c →
    P o (log ++ [⟨tr, .letGo id, tr'⟩]) tr' id { c with work := .hold true }
  /-- A change that is none of this call. -/
  other : ∀ {o log tr tr' m id c}, Course tr₀ log tr → Effect tr m tr' → m ≠ .step id →
    tr.calls[id]? = some c → tr'.calls[id]? = some c →
    (⟨tr, m, tr'⟩ : Change α).passage?.map Passage.call ≠ some id → P o log tr id c →
    P o (log ++ [⟨tr, m, tr'⟩]) tr' id c

variable {layers : Layers} {attached : Attachments} {log : List (Change α)}
  {P : Origin α → List (Change α) → Traffic α → Nat → Call α → Prop}

/-- No call is forgotten. -/
theorem Effect.calls_length_le {m : Move α} (h : Effect tr m tr') :
    tr.calls.length ≤ tr'.calls.length := by
  cases h with
  | begun => simp
  | stepped _ h => simp [h.calls]
  | dropped _ _ h => simp [h.calls]
  | told => simp
  | aside _ h => simp [h.calls]
  | _ => exact Nat.le_refl _

theorem origins_snoc (log : List (Change α)) (ch : Change α) :
    origins (log ++ [ch]) = origins log ++ ch.origin?.toList := by
  rw [origins_append]
  cases h : ch.origin? <;> simp [origins, h]

/-- Every call has an origin, and every origin is one of a call. -/
theorem Course.calls_length (h : Course (.start layers attached) log tr) :
    tr.calls.length = (origins log).length := by
  induction h with
  | start => rfl
  | @move log tr tr' m _ hm ih =>
    rw [origins_snoc, List.length_append, ← ih]
    cases effect_of_move hm with
    | begun => exact List.length_append
    | stepped _ h => rw [h.calls, List.length_set]; rfl
    | dropped _ _ h => rw [h.calls, List.length_set]; rfl
    | told => exact List.length_set
    | aside kind h =>
      rw [h.calls]
      cases m with
      | begin => cases kind
      | _ => rfl
    | _ => rfl

theorem call_of_passage? (c : Call α) {i id : Nat} (hi : i ≠ id) (a : Activity α) :
    (c.passage? i a).map Passage.call ≠ some id := by
  cases hahead : c.activity.ahead with
  | nil => simp [Call.passage?_of_nil hahead]
  | cons st inner => simp [Call.passage?_of_ahead hahead, hi]

/-- How a call started stays what it was. -/
theorem origins_getElem?_append {o : Origin α} (log' : List (Change α))
    (h : (origins log)[id]? = some o) : (origins (log ++ log'))[id]? = some o := by
  rw [origins_append, List.getElem?_append_left (List.getElem?_eq_some_iff.mp h).1, h]

/-- When a call is replaced, what is there now is the new one, or it is another call. -/
theorem call_of_set {calls : List (Call α)} {i : Nat} (h : (calls.set i c')[id]? = some c) :
    i = id ∧ c = c' ∨ i ≠ id ∧ calls[id]? = some c := by
  by_cases hi : i = id
  · subst hi
    have hlt : i < calls.length := by simpa using (List.getElem?_eq_some_iff.mp h).1
    rw [List.getElem?_set_self hlt] at h
    exact .inl ⟨rfl, (Option.some.inj h).symm⟩
  · rw [List.getElem?_set_ne hi] at h
    exact .inr ⟨hi, h⟩

/-- What every change keeps holds of every call, at every moment. -/
theorem Course.call (hP : Follows (.start layers attached) P)
    (h : Course (.start layers attached) log tr) (hc : tr.calls[id]? = some c) :
    ∃ o, (origins log)[id]? = some o ∧ P o log tr id c := by
  induction h generalizing id c with
  | start => cases hc
  | @move log tr tr' m hcourse hm ih =>
    have heffect := effect_of_move hm
    -- A change of another call, or of none.
    have hother : m ≠ .step id → tr.calls[id]? = some c →
        (⟨tr, m, tr'⟩ : Change α).passage?.map Passage.call ≠ some id →
        ∃ o, (origins (log ++ [⟨tr, m, tr'⟩]))[id]? = some o ∧
          P o (log ++ [⟨tr, m, tr'⟩]) tr' id c := by
      intro hm hold hpassage
      obtain ⟨o, ho, hPo⟩ := ih hold
      exact ⟨o, origins_getElem?_append _ ho, hP.other hcourse heffect hm hold hc hpassage hPo⟩
    cases heffect with
    | @stepped i c₀ c₀' _ hc₀ hstep =>
      obtain ⟨rfl, rfl⟩ | ⟨hi, hold⟩ := call_of_set (hstep.calls ▸ hc)
      · obtain ⟨o, ho, hPo⟩ := ih hc₀
        exact ⟨o, origins_getElem?_append _ ho, hP.stepped hcourse ho hc₀ hstep hPo⟩
      · refine hother (fun h => hi (Move.step.inj h)) hold ?_
        rw [passage?_of_stepped hc₀ hstep]
        exact call_of_passage? c₀ hi _
    | @dropped i c₀ _ hc₀ _ hdrop =>
      obtain ⟨rfl, rfl⟩ | ⟨hi, hold⟩ := call_of_set (hdrop.calls ▸ hc)
      · obtain ⟨o, ho, hPo⟩ := ih hc₀
        exact ⟨o, origins_getElem?_append _ ho, hP.dropped hcourse hc₀ hdrop hPo⟩
      · refine hother nofun hold ?_
        rw [passage?_of_dropped hc₀ hdrop]
        exact call_of_passage? c₀ hi _
    | begun token stages work ready =>
      by_cases hi : id < tr.calls.length
      · have hold := hc
        rw [List.getElem?_append_left hi] at hold
        exact hother nofun hold nofun
      · rw [List.getElem?_append_right (Nat.le_of_not_lt hi)] at hc
        obtain ⟨hlt, rfl⟩ := List.getElem?_eq_some_iff.mp hc
        -- The call is the one that starts now, and its origin is the newest one.
        have hid : id = tr.calls.length := by
          rw [List.length_singleton] at hlt
          omega
        subst hid
        refine ⟨⟨token, stages, work⟩, ?_, by simpa using hP.begun hcourse⟩
        rw [hcourse.calls_length, origins_snoc]
        exact List.getElem?_concat_length
    | @told i c₀ hc₀ hwork ready =>
      obtain ⟨rfl, rfl⟩ | ⟨-, hold⟩ := call_of_set hc
      · obtain ⟨o, ho, hPo⟩ := ih hc₀
        exact ⟨o, origins_getElem?_append _ ho, hP.told hcourse (.told hc₀ hwork ready) hwork hPo⟩
      · exact hother nofun hold nofun
    | limiter => exact hother nofun hc nofun
    | breaker => exact hother nofun hc nofun
    | idle ended =>
      refine hother nofun hc ?_
      rw [passage?_of_ended ended]
      exact nofun
    | aside kind haside =>
      have hold := hc
      rw [haside.calls] at hold
      refine hother ?_ hold ?_
      · rintro rfl
        cases kind
      · rw [passage?_of_aside kind]
        exact nofun

/-- The same of a call whose origin is known. -/
theorem Course.call_of_origin (hP : Follows (.start layers attached) P)
    (h : Course (.start layers attached) log tr) (hc : tr.calls[id]? = some c) {o : Origin α}
    (ho : (origins log)[id]? = some o) : P o log tr id c := by
  obtain ⟨o', ho', hPo⟩ := h.call hP hc
  obtain rfl := Option.some.inj (ho.symm.trans ho')
  exact hPo

/-- A fact that depends on nothing but the call itself and how it started. -/
theorem Follows.of_own {tr₀ : Traffic α} {P : Origin α → Call α → Prop}
    (begun : ∀ token stages work, P ⟨token, stages, work⟩ ⟨token, work, 0, [], .entering stages, 0⟩)
    (stepped : ∀ {o tr tr' id c c'}, Stepped tr id c tr' c' → P o c → P o c')
    (dropped : ∀ {o c}, P o c → P o { c with frames := [], activity := .ended })
    (told : ∀ {o c}, c.work = .hold false → P o c → P o { c with work := .hold true }) :
    Follows tr₀ fun o _ _ _ c => P o c where
  begun _ := begun _ _ _
  stepped _ _ _ hstep := stepped hstep
  dropped _ _ _ := dropped
  told _ _ := told
  other _ _ _ _ _ _ h := h

end Traffic

/-! ## Arrivals

A call comes to the layers of its route from the outside in, and only what is inside an attempt
is repeated. The retry layer is the innermost but one, so nothing but a deadline is. -/

/-- How deep a layer is; calls enter layers in this order. -/
def Layer.depth : Layer → Nat
  | .rateLimiter => 0
  | .bulkhead => 1
  | .circuitBreaker => 2
  | .retry => 3
  | .timeout => 4

/-- Layers in their order, each at most once. -/
def Layer.Ordered (ls : List Layer) : Prop := ls.Pairwise fun l l' => l.depth < l'.depth

/-- Stages that are layers belong to these layers. -/
theorem Stage.map_owner_layer (ls : List Layer) : (ls.map Stage.layer).map Stage.owner = ls := by
  rw [List.map_map]
  exact List.map_id _

theorem Layer.Ordered.of_sublist (h : ls.Sublist Layer.all) : Layer.Ordered ls := by
  have hall : Layer.Ordered Layer.all := by
    unfold Layer.Ordered
    decide
  exact hall.sublist h

/-- Only deeper layers follow a layer. -/
theorem Layer.Ordered.depth_lt {l l' : Layer} {rest : List Layer} (h : Layer.Ordered ls)
    (hsuffix : l :: rest <:+ ls) (hl' : l' ∈ rest) : l.depth < l'.depth :=
  List.rel_of_pairwise_cons (h.sublist hsuffix.sublist) hl'

/-- What is repeated is a deadline at most. -/
theorem Call.Routed.eq_timeout (h : c.Routed ls) (hls : Layer.Ordered ls) {number : Nat}
    {inner : List Stage} (hmem : .attempt number inner ∈ c.frames) {l : Layer}
    (hl : l ∈ inner.map Stage.owner) : l = .timeout := by
  have hdepth := hls.depth_lt (h.attempts number inner hmem) hl
  cases l <;> simp_all [Layer.depth]

variable {log : List (Change α)} {l : Layer}

/-- A call arrives at a layer at most once, and never at one that it has not come to yet. -/
theorem Call.Goes.count_coming (h : c.Goes c') (id : Nat) (hrouted : c.Routed ls)
    (hls : Layer.Ordered ls) (hl : l ≠ .timeout) :
    (c.passage? id c'.activity).toList.countP (Passage.came l) +
        (c'.activity.coming.map Stage.owner).count l ≤
      (c.activity.coming.map Stage.owner).count l := by
  -- At a stage, coming to it is what makes the difference.
  have hstage : ∀ {st inner}, c.activity.ahead = st :: inner →
      c'.activity.coming = inner ∨ c'.activity.coming = [] →
      (c.passage? id c'.activity).toList.countP (Passage.came l) +
        (c'.activity.coming.map Stage.owner).count l ≤
      (c.activity.coming.map Stage.owner).count l := by
    intro st inner hahead hcoming
    have hrest : (c'.activity.coming.map Stage.owner).count l ≤
        (inner.map Stage.owner).count l := by
      rcases hcoming with h | h <;> simp [h]
    rw [Call.passage?_of_ahead hahead, Activity.coming_of_ahead hahead, Option.toList_some,
      List.countP_singleton]
    cases harrives : c.activity.arrives with
    | false => simpa [Passage.came] using hrest
    | true =>
      by_cases howner : st.owner = l
      · simp only [if_true, List.map_cons, howner, List.count_cons_self]
        split <;> omega
      · simpa [Passage.came, howner] using hrest
  cases h with
  | passes ahead now => exact hstage ahead (.inl (by rw [now]; rfl))
  | waits entering owner ahead waiting =>
    refine hstage (by rw [entering]; rfl) (.inl ?_)
    rw [Activity.coming_of_ahead ahead, waiting]
    rfl
  | refused ahead now => exact hstage ahead (.inr (by rw [now]; rfl))
  | quits ahead _ now => exact hstage ahead (.inr (by rw [now]; rfl))
  | breaks message ahead _ now => exact hstage ahead (.inr (by rw [now]; rfl))
  | races entering now => exact hstage (by rw [entering]; rfl) (.inr (by rw [now]; rfl))
  | @repeats number due inner outside pausing frames now =>
    have hnone : l ∉ inner.map Stage.owner := fun hin =>
      hl (hrouted.eq_timeout hls (by rw [frames]; exact .head _) hin)
    rw [Call.passage?_of_nil (by rw [pausing]; rfl), now]
    simp [Activity.coming, List.count_eq_zero.mpr hnone]
  | inside ahead _ coming' =>
    rw [Call.passage?_of_nil ahead, coming']
    exact Nat.zero_le _

namespace Traffic

variable {layers : Layers} {attached : Attachments} {tr₀ : Traffic α}

/-- What has happened concerns calls that there are. -/
theorem Course.calls_length_le (h : Course tr₀ log tr) {ch : Change α} (hch : ch ∈ log) :
    ch.before.calls.length ≤ tr.calls.length := by
  induction h with
  | start => cases hch
  | move _ hm ih =>
    have hle := (effect_of_move hm).calls_length_le
    obtain hch | hch := List.mem_append.mp hch
    · exact Nat.le_trans (ih hch) hle
    · obtain rfl := List.mem_singleton.mp hch
      exact hle

theorem Course.call_lt (h : Course tr₀ log tr) {p : Passage} (hp : p ∈ passages log) :
    p.call < tr.calls.length := by
  obtain ⟨ch, hch, hp⟩ := List.mem_filterMap.mp hp
  obtain ⟨id, c, c', hc, -, hp⟩ := Change.exists_of_passage? hp
  obtain ⟨st, -, rfl⟩ := Option.map_eq_some_iff.mp hp
  exact Nat.lt_of_lt_of_le (List.getElem?_eq_some_iff.mp hc).1 (h.calls_length_le hch)

/-- Only at the rate limiter and at the bulkhead something comes of calls that waited. -/
theorem arrives_of_mem {p : Passage} (hp : p ∈ passages log) (hr : p.layer ≠ .rateLimiter)
    (hb : p.layer ≠ .bulkhead) : p.arrives = true := by
  obtain ⟨ch, -, hp⟩ := List.mem_filterMap.mp hp
  obtain ⟨id, c, c', -, -, hp⟩ := Change.exists_of_passage? hp
  obtain ⟨st, hst, rfl⟩ := Option.map_eq_some_iff.mp hp
  obtain ⟨inner, hahead⟩ := List.head?_eq_some_iff.mp hst
  by_cases hwait : ∀ stages, c.activity ≠ .entering stages
  · rcases Activity.owner_of_ahead hahead hwait with h | h
    · exact absurd h hr
    · exact absurd h hb
  · obtain ⟨stages, hentering⟩ := not_forall_not.mp hwait
    simp only [hentering]
    rfl

/-- A call that passes a layer came to it, unless it had waited. -/
theorem callsOf_passed_sublist {l : Layer} (hr : l ≠ .rateLimiter) (hb : l ≠ .bulkhead) :
    (callsOf (Passage.is l .passed) log).Sublist (callsOf (Passage.came l) log) := by
  refine List.Sublist.map _ ?_
  have hsame : (passages log).filter (Passage.is l .passed) =
      ((passages log).filter (Passage.came l)).filter (Passage.is l .passed) := by
    rw [List.filter_filter]
    refine List.filter_congr fun p hp => ?_
    by_cases his : Passage.is l .passed p = true
    · obtain ⟨rfl, hfate⟩ := of_decide_eq_true his
      simp [Passage.is, Passage.came, hfate, arrives_of_mem hp hr hb]
    · simp [his]
  rw [hsame]
  exact List.filter_sublist

theorem Course.lt_of_mem_callsOf (h : Course tr₀ log tr) {q : Passage → Bool}
    (hid : id ∈ callsOf q log) : id < tr.calls.length := by
  obtain ⟨p, hp, rfl⟩ := List.mem_map.mp hid
  exact h.call_lt (List.mem_of_mem_filter hp)

/-- Nothing came of a call yet that is about to start. -/
theorem Course.count_callsOf_length (h : Course tr₀ log tr) (q : Passage → Bool) :
    (callsOf q log).count tr.calls.length = 0 :=
  List.count_eq_zero.mpr fun hid => Nat.lt_irrefl _ (h.lt_of_mem_callsOf hid)

/-- A call that starts with layers in their order follows them, and comes at most once to each
that is not repeated. -/
theorem follows_route (tr₀ : Traffic α) : Follows tr₀ fun o log _ id c =>
    Layer.Ordered (o.stages.map Stage.owner) → c.Routed (o.stages.map Stage.owner) ∧
      ∀ l ≠ .timeout, (callsOf (Passage.came l) log).count id +
        (c.activity.coming.map Stage.owner).count l ≤ 1 where
  begun := by
    intro log tr token stages work tr' hcourse hls
    have hnone : (⟨tr, .begin token stages work, tr'⟩ : Change α).passage?.map Passage.call ≠
        some tr.calls.length := nofun
    refine ⟨Call.routed_begun token work stages, fun l hl => ?_⟩
    rw [count_callsOf_of_ne hnone, hcourse.count_callsOf_length, Nat.zero_add]
    exact List.nodup_iff_count.mp (hls.imp fun hlt heq => by simp [heq] at hlt) l
  stepped := by
    intro o log tr tr' id c c' _ _ hc hstep ih hls
    obtain ⟨hrouted, hcount⟩ := ih hls
    refine ⟨hrouted.step hstep.rule, fun l hl => ?_⟩
    -- What the log gains, the stages to come lose.
    have hgoes := hstep.rule.goes.count_coming id hrouted hls hl
    have hl := hcount l hl
    rw [count_callsOf_of_eq (passage?_of_stepped hc hstep)]
    omega
  dropped := by
    intro o log tr tr' id c _ hc hdrop ih hls
    obtain ⟨hrouted, hcount⟩ := ih hls
    refine ⟨.ended c, fun l hl => ?_⟩
    rw [count_callsOf_of_eq (passage?_of_dropped hc hdrop), Call.countP_came_ended]
    exact Nat.le_trans (Nat.add_le_add_left (Nat.zero_le _) _) (hcount l hl)
  told := by
    intro o log tr tr' id c _ _ _ ih hls
    obtain ⟨⟨hahead, hattempts⟩, hcount⟩ := ih hls
    have hnone : (⟨tr, .letGo id, tr'⟩ : Change α).passage?.map Passage.call ≠ some id := nofun
    refine ⟨⟨hahead, hattempts⟩, fun l hl => ?_⟩
    rw [count_callsOf_of_ne hnone]
    exact hcount l hl
  other := by
    intro o log tr tr' m id c _ _ _ _ _ hpassage ih hls
    obtain ⟨hrouted, hcount⟩ := ih hls
    refine ⟨hrouted, fun l hl => ?_⟩
    rw [count_callsOf_of_ne hpassage]
    exact hcount l hl

/-- Calls whose layers are in their order come at most once to each that is not repeated. -/
theorem Course.nodup_came (h : Course (.start layers attached) log tr)
    (hls : ∀ o ∈ origins log, Layer.Ordered (o.stages.map Stage.owner)) {l : Layer}
    (hl : l ≠ .timeout) : (callsOf (Passage.came l) log).Nodup := by
  refine List.nodup_iff_count.mpr fun id => ?_
  by_cases hid : id < tr.calls.length
  · obtain ⟨o, ho, hroute⟩ := h.call (follows_route _) (List.getElem?_eq_getElem hid)
    have hcount := (hroute (hls o (List.mem_of_getElem? ho))).2 l hl
    omega
  · rw [List.count_eq_zero.mpr fun hmem => hid (h.lt_of_mem_callsOf hmem)]
    exact Nat.zero_le 1

end Traffic

end Safeguard
