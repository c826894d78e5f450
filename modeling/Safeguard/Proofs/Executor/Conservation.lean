import Safeguard.Proofs.Bulkhead.Conservation
import Safeguard.Proofs.Traffic.Flow
import Safeguard.Proofs.Traffic.Results

/-!
# Conservation of calls in an executor

An executor sends every call through the layers that it has, outermost first. With a rate
limiter, a bulkhead and a circuit breaker, three components count the same calls, each on its
own. At every moment, and under every schedule, their counters fit together.

## Main definitions

* `Executor.Only`: nobody but an executor uses its components; `Executor.allows` computes it.
* `Executor.Flow`: how the counters of the three components fit together.

## Main results

* `Executor.flow_conserved`: they do in every course.
-/

namespace Safeguard

variable {α : Type}

/-- A step does not drop a call. -/
theorem Call.Goes.fate_ne_dropped {c c' : Call α} (h : c.Goes c') {st : Stage}
    {inner : List Stage} (hahead : c.activity.ahead = st :: inner) :
    c'.activity.fate ≠ .dropped := by
  cases h with
  | waits _ _ _ _ fate => rw [fate]; exact nofun
  | inside ahead => rw [ahead] at hahead; cases hahead
  | passes _ now => rw [now]; exact nofun
  | refused _ now => rw [now]; exact nofun
  | quits _ _ now => rw [now]; exact nofun
  | breaks message _ _ now => rw [now]; exact nofun
  | races _ now => rw [now]; exact nofun
  | repeats _ _ now => rw [now]; exact nofun

namespace Executor

open Resilience (Layers)
open Traffic (Course)

/-- The stages of every call: all layers that are present. -/
def route (layers : Layers) : List Stage := layers.present.map .layer

/-- Nobody but an executor uses its components: all calls follow its route, and nobody else asks
the rate limiter for tokens. Callers drop calls that have not started yet or that sleep, as a
call does not pause between two layers. -/
structure Only (layers : Layers) (log : List (Change α)) : Prop where
  stages : ∀ o ∈ origins log, o.stages = route layers
  tokens : ∀ ch ∈ log, ∀ n, ch.move ≠ .limiter (.allow n)
  drops : ∀ ch ∈ log, ∀ id c stages, ch.move = .drop id → ch.before.calls[id]? = some c →
    c.activity = .entering stages → stages = route layers

/-- How the counters of the three components fit together. -/
structure Flow (layers : Layers) (log : List (Change α)) (tr : Traffic α)
    (limiter : RateLimiter Float) (bulkhead : Bulkhead Nat) (breaker : CircuitBreaker) : Prop where
  /-- Every call has started, was dropped before it could, or is about to start. -/
  calls : tr.calls.length = (callsOf (Passage.came .rateLimiter) log).length +
    (passages log).countP (Passage.droppedAtDoor .rateLimiter) + tr.atDoorOf .rateLimiter
  /-- No call starts twice. -/
  started : (callsOf (Passage.came .rateLimiter) log).Nodup
  /-- Every call that has started was admitted or rejected by the rate limiter, was cancelled or
  dropped while it waited there, or still waits. -/
  atLimiter : (callsOf (Passage.came .rateLimiter) log).length = limiter.admitted +
    limiter.rejected + (passages log).countP (Passage.lost .rateLimiter) +
    tr.waitingAt .rateLimiter
  /-- Every call that the rate limiter admitted was granted a slot of the bulkhead or rejected,
  was cancelled or dropped while it waited there, still waits, or is about to ask. -/
  atBulkhead : limiter.admitted = (callsOf (Passage.is .bulkhead .passed) log).length +
    bulkhead.rejected + (passages log).countP (Passage.lost .bulkhead) +
    tr.waitingAt .bulkhead + tr.atDoorOf .bulkhead
  /-- Every call that was granted a slot asked the circuit breaker, or is about to. -/
  atBreaker : (callsOf (Passage.is .bulkhead .passed) log).length =
    breaker.totalRequests + tr.atDoorOf .circuitBreaker
  /-- Those that the circuit breaker did not reject have entered what is inside. -/
  inside : breaker.totalRequests =
    breaker.rejectedRequests + (callsOf (Passage.is .circuitBreaker .passed) log).length
  /-- No call enters twice. -/
  entered : (callsOf (Passage.is .circuitBreaker .passed) log).Nodup
  /-- A call that has entered tells the circuit breaker at most one result, however many
  attempts it makes, and no other call tells one. -/
  told : ((results log).map Prod.fst).Nodup
  tellers : (results log).map Prod.fst ⊆ callsOf (Passage.is .circuitBreaker .passed) log
  /-- Nothing else tells the circuit breaker a result. -/
  hears : ∀ ch ∈ log, ∃ b b', ch.before.layers.circuitBreaker = some b ∧
    ch.after.layers.circuitBreaker = some b' ∧ b.Hears ch.before.now (ch.result?.map Prod.snd) b'
  /-- Between the turns of calls, none of them is between two layers. -/
  doors : (∀ c ∈ tr.calls, ∀ stages, c.activity = .entering stages → stages = route layers) →
    tr.atDoorOf .bulkhead = 0 ∧ tr.atDoorOf .circuitBreaker = 0

/-- Whether an executor alone, or its callers, may make a change. -/
def allows (layers : Layers) (ch : Change α) : Bool :=
  match ch.move with
  | .begin _ stages _ => stages = route layers
  | .limiter (.allow _) => false
  | .drop id => ch.before.calls[id]?.all fun c =>
    match c.activity with
    | .entering stages => stages = route layers
    | _ => true
  | _ => true

variable {layers : Layers} {attached : Attachments} {log : List (Change α)} {tr : Traffic α}
  {l first : Layer} {rest : List Layer}

theorem only_of_allows (h : log.all (allows layers) = true) : Only layers log := by
  have hall := List.all_eq_true.mp h
  refine ⟨fun o ho => ?_, fun ch hch n hm => ?_, fun ch hch id c stages hm hc hentering => ?_⟩
  · obtain ⟨⟨before, m, after⟩, hch, horigin⟩ := List.mem_filterMap.mp ho
    have hallowed := hall _ hch
    cases m with
    | begin token stages work =>
      obtain rfl := Option.some.inj horigin
      exact of_decide_eq_true hallowed
    | _ => cases horigin
  · have hallowed := hall ch hch
    simp [allows, hm] at hallowed
  · have hallowed := hall ch hch
    simpa [allows, hm, hc, hentering] using hallowed

/-! ## The route -/

theorem owners_route (layers : Layers) : (route layers).map Stage.owner = layers.present :=
  Stage.map_owner_layer _

theorem ordered_present (layers : Layers) : Layer.Ordered layers.present :=
  .of_sublist List.filter_sublist

theorem ordered_route (layers : Layers) : Layer.Ordered ((route layers).map Stage.owner) := by
  rw [owners_route]
  exact ordered_present layers

/-- A call that follows the route has its layers in their order, whatever comes after it. -/
theorem ordered_of_origin {id : Nat} {token : TokenId} {work : Work α}
    (horigin : (origins log)[id]? = some ⟨token, route layers, work⟩) (log' : List (Change α))
    (o : Origin α) (ho : (origins (log ++ log'))[id]? = some o) :
    Layer.Ordered (o.stages.map Stage.owner) := by
  have hsame := Traffic.origins_getElem?_append log' horigin
  obtain rfl := Option.some.inj (hsame.symm.trans ho)
  exact ordered_route layers

/-- The route of an executor that has all three components. -/
theorem exists_present (hr : layers.rateLimiter.isSome = true) (hb : layers.bulkhead.isSome = true)
    (hk : layers.circuitBreaker.isSome = true) :
    ∃ rest, layers.present = .rateLimiter :: .bulkhead :: .circuitBreaker :: rest := by
  refine ⟨[.retry, .timeout].filter layers.has, ?_⟩
  simp [Layers.present, Layer.all, Layers.has, hr, hb, hk]

/-- A call that follows the whole route stands before the first layer. -/
theorem owner_of_route (hpresent : layers.present = first :: rest) {st : Stage}
    {inner : List Stage} (hroute : st :: inner = route layers) : st.owner = first := by
  have howners := owners_route layers
  rw [← hroute, hpresent] at howners
  exact (List.cons_eq_cons.mp howners).1

/-- Nothing is dropped between two layers. -/
theorem Only.countP_droppedAtDoor (h : Only layers log)
    (hcourse : Course (.start layers attached) log tr) (hpresent : layers.present = first :: rest)
    (hl : l ≠ first) : (passages log).countP (Passage.droppedAtDoor l) = 0 := by
  refine List.countP_eq_zero.mpr fun p hp hdoor => ?_
  obtain ⟨hlayer, hfate, harrives⟩ := of_decide_eq_true hdoor
  obtain ⟨⟨before, m, after⟩, hch, hp⟩ := List.mem_filterMap.mp hp
  have heffect : Traffic.Effect before m after := hcourse.effect hch
  cases heffect with
  | stepped hc hstep =>
    rw [Traffic.passage?_of_stepped hc hstep] at hp
    obtain ⟨st, hst, rfl⟩ := Option.map_eq_some_iff.mp hp
    obtain ⟨inner, hahead⟩ := List.head?_eq_some_iff.mp hst
    exact hstep.rule.goes.fate_ne_dropped hahead hfate
  | @dropped id c _ hc _ hdrop =>
    rw [Traffic.passage?_of_dropped hc hdrop] at hp
    obtain ⟨st, hst, rfl⟩ := Option.map_eq_some_iff.mp hp
    obtain ⟨inner, hahead⟩ := List.head?_eq_some_iff.mp hst
    cases hactivity : c.activity with
    | entering stages =>
      have hroute := h.drops _ hch id c stages rfl hc hactivity
      rw [hactivity] at hahead
      exact hl (hlayer.symm.trans (owner_of_route hpresent (hahead.symm.trans hroute)))
    | _ => simp [hactivity, Activity.arrives] at harrives
  | idle ended =>
    rw [Traffic.passage?_of_ended ended] at hp
    cases hp
  | aside kind =>
    rw [Traffic.passage?_of_aside kind] at hp
    cases hp
  | _ => cases hp

/-- Between the turns of calls, all calls that have started are past the first layer, and stand
before none. -/
theorem atDoorOf_eq_zero (hpresent : layers.present = first :: rest) (hl : l ≠ first)
    (hturns : ∀ c ∈ tr.calls, ∀ stages, c.activity = .entering stages → stages = route layers) :
    tr.atDoorOf l = 0 := by
  refine List.countP_eq_zero.mpr fun c hc hdoor => ?_
  obtain ⟨harrives, hhead⟩ := of_decide_eq_true hdoor
  obtain ⟨st, hst, howner⟩ := Option.map_eq_some_iff.mp hhead
  obtain ⟨inner, hahead⟩ := List.head?_eq_some_iff.mp hst
  cases hactivity : c.activity with
  | entering stages =>
    rw [hactivity] at hahead
    have hroute := hturns c hc stages hactivity
    exact hl (howner.symm.trans (owner_of_route hpresent (hahead.symm.trans hroute)))
  | _ => simp [hactivity, Activity.arrives] at harrives

/-! ## The flow -/

section Flow

variable {limit : RateLimiter.Config Float} {t : Instant} {slots : Bulkhead.Config}
  {circuit : CircuitBreaker.Config}

/-- Calls of an executor come at most once to each layer that is not repeated. -/
theorem Only.nodup_came (h : Only layers log) (hcourse : Course (.start layers attached) log tr)
    (hl : l ≠ .timeout) : (callsOf (Passage.came l) log).Nodup := by
  refine hcourse.nodup_came (fun o ho => ?_) hl
  rw [h.stages o ho]
  exact ordered_route layers

/-- Calls of an executor that pass a layer ask the next one, or are about to. -/
theorem Only.delivered (h : Only layers log) (hcourse : Course (.start layers attached) log tr)
    {before : Option Layer} (hbefore : Layer.Before layers.present before l) (hl : l ≠ .timeout) :
    Delivered before l (passages log)
      (if layers.present.head? = some l then tr.calls.length else 0) (tr.atDoorOf l) := by
  refine hcourse.delivered (ordered_present layers) (fun o ho => ?_) hbefore hl
  rw [h.stages o ho, owners_route]

/-- **The flow of calls is conserved.** In every course of an executor with a rate limiter, a
bulkhead and a circuit breaker whose hook does not panic, at every moment, the counters of the
three components fit together. -/
theorem flow_conserved (hr : layers.rateLimiter = some (.new limit t))
    (hb : layers.bulkhead = some (.new slots)) (hk : layers.circuitBreaker = some (.new circuit))
    (hhook : attached.HookReturns) (hcourse : Course (.start layers attached) log tr)
    (honly : Only layers log) :
    ∃ r b k, tr.layers.rateLimiter = some r ∧ tr.layers.bulkhead = some b ∧
      tr.layers.circuitBreaker = some k ∧ Flow layers log tr r b k := by
  obtain ⟨rest, hpresent⟩ : ∃ rest,
      layers.present = .rateLimiter :: .bulkhead :: .circuitBreaker :: rest :=
    exists_present (by rw [hr]; rfl) (by rw [hb]; rfl) (by rw [hk]; rfl)
  have hordered := ordered_present layers
  have hfirst : Layer.Before layers.present none .rateLimiter := by
    rw [hpresent] at hordered ⊢
    exact hordered.before_none
  have hsuffix : .rateLimiter :: .bulkhead :: .circuitBreaker :: rest <:+ layers.present :=
    ⟨[], hpresent.symm⟩
  have hsecond : Layer.Before layers.present (some .rateLimiter) .bulkhead :=
    hordered.before_of_suffix hsuffix
  have hthird : Layer.Before layers.present (some .bulkhead) .circuitBreaker :=
    hordered.before_of_suffix ((List.suffix_cons _ _).trans hsuffix)
  -- What the components count.
  obtain ⟨r, hr', hadmitted, hrejected⟩ := hcourse.limiter_counts hr honly.tokens
  obtain ⟨b, hagrees, -, -, hturned⟩ := Bulkhead.exists_agrees hb hcourse
  obtain ⟨k, hk', htotal, hshut, hpassed⟩ := hcourse.breaker_counts hk hhook
  -- Where the calls are.
  have hcalls := (honly.delivered hcourse hfirst nofun).eq_of_none
  have hadmissions := (honly.delivered hcourse hsecond nofun).eq
  have hgrants := (honly.delivered hcourse hthird nofun).eq
  have hlimiter := (hcourse.balance (show Layer.rateLimiter ≠ .circuitBreaker by decide)).eq
  have hbulkhead := (hcourse.balance (show Layer.bulkhead ≠ .circuitBreaker by decide)).eq
  have hnone := honly.countP_droppedAtDoor hcourse hpresent (l := .bulkhead) nofun
  have hnone' := honly.countP_droppedAtDoor hcourse hpresent (l := .circuitBreaker) nofun
  rw [if_pos (by rw [hpresent]; rfl)] at hcalls
  rw [if_neg (by rw [hpresent]; exact nofun)] at hadmissions hgrants
  simp only [Layer.refusal] at hlimiter hbulkhead
  -- All components start from zero.
  replace hadmitted := hadmitted.trans (Nat.zero_add _)
  replace hrejected := hrejected.trans (Nat.zero_add _)
  replace htotal := htotal.trans (Nat.zero_add _)
  replace hshut := hshut.trans (Nat.zero_add _)
  have hentered : (callsOf (Passage.is .circuitBreaker .passed) log).Nodup :=
    (honly.nodup_came hcourse (show Layer.circuitBreaker ≠ .timeout by decide)).sublist
      (Traffic.callsOf_passed_sublist nofun nofun)
  have hresults := hcourse.count_results_le hk
  refine ⟨r, b, k, hr', hagrees.present, hk', ?_⟩
  constructor
  case calls => rw [length_callsOf]; exact hcalls
  case started => exact honly.nodup_came hcourse nofun
  case atLimiter =>
    rw [length_callsOf, hadmitted, hrejected]
    exact hlimiter
  case atBulkhead =>
    rw [length_callsOf, hadmitted, hturned]
    omega
  case atBreaker =>
    rw [length_callsOf, htotal]
    omega
  case inside =>
    rw [length_callsOf, htotal, hshut, hpassed, Nat.add_comm]
  case entered => exact hentered
  case told =>
    exact List.nodup_iff_count.mpr fun id =>
      Nat.le_trans (hresults id) (List.nodup_iff_count.mp hentered id)
  case tellers =>
    intro id hid
    exact List.count_pos_iff.mp (Nat.lt_of_lt_of_le (List.count_pos_iff.mpr hid) (hresults id))
  case hears => exact fun ch hch => hcourse.hears hk hch
  case doors =>
    exact fun hturns =>
      ⟨atDoorOf_eq_zero hpresent nofun hturns, atDoorOf_eq_zero hpresent nofun hturns⟩

end Flow

/-! ## A rush

At a narrow gate every term of the sums counts something. Of the calls that ask for a token, some
get it, and others are rejected, give up or go on waiting, and so it is with those that ask for
the slot. The first call with a slot opens the circuit, and the next one is rejected there. -/

/-- A bucket of three tokens, for which calls wait, a single slot, a circuit breaker that opens at
the first failure, and two attempts without a pause between them. -/
def gate : Resilience.Config where
  rateLimiter := some { RateLimiter.Config.default with burst := 3, wait := true }
  bulkhead := some ⟨1, .ofMillis 20⟩
  circuitBreaker := some { CircuitBreaker.Config.default with failureThreshold := 1 }
  retry := some ⟨2, .zero, .zero, 1, .constant, false⟩
  timeout := none

/-- An operation that fails after some milliseconds. -/
def failingAfter (millis : Nat) : Operation Unit :=
  ⟨some millis, .failure Operation.stoppedFailure, false⟩

/-- A call comes to the gate. -/
def comes (script : List (Operation Unit)) : Move Unit :=
  .begin 0 (route (gate.assemble 0)) (.operation script)

/-- A call takes some steps. -/
def takes (id steps : Nat) : List (Move Unit) := .replicate steps (.step id)

/-- Ten calls, one for each way to come through the gate or not to. -/
def rush : List (Move Unit) :=
  [.mint none, comes [failingAfter 0, failingAfter 25], comes [], comes [], comes [], comes [],
    comes []] ++
  -- The first call has the slot, two others wait for it, and three more for tokens.
  takes 0 9 ++ takes 1 2 ++ takes 2 2 ++ takes 3 1 ++ takes 4 1 ++ takes 5 1 ++
  -- In either line somebody gives up.
  [.drop 2, .drop 5] ++
  -- A single token has come: there is one call that gets it, and one that is rejected.
  [.elapse 10] ++ takes 3 2 ++ takes 4 2 ++
  -- The slot did not come in time for the call that was first in line.
  [.elapse 10] ++ takes 1 2 ++ [comes []] ++ takes 6 2 ++
  -- The first call fails, and the circuit is open for the one that gets its slot.
  [.elapse 5] ++ takes 0 5 ++ takes 3 4 ++
  -- One more waits for a token, one is dropped before it starts, and one is about to start.
  [comes []] ++ takes 7 1 ++ [comes [], .drop 8, comes []]

/-- The log of the rush, and what it led to. -/
def rushed : List (Change Unit) × Traffic Unit :=
  ((Traffic.start (gate.assemble 0) .none).play rush).get (by decide +kernel)

/-- No term of the sums is zero, but for the doors between two layers, where nobody stands between
turns. The configuration passes its check. The only call that enters makes two attempts and tells
one result. -/
theorem flow_conserved_rush :
    gate.build 0 = .ok (gate.assemble 0) ∧
    ∃ (log : List (Change Unit)) (tr : Traffic Unit) (r : RateLimiter Float) (b : Bulkhead Nat)
      (k : CircuitBreaker), Course (.start (gate.assemble 0) .none) log tr ∧
      Only (gate.assemble 0) log ∧ tr.layers.rateLimiter = some r ∧ tr.layers.bulkhead = some b ∧
      tr.layers.circuitBreaker = some k ∧ Flow (gate.assemble 0) log tr r b k ∧
      (r.admitted, r.rejected) = (5, 1) ∧ b.rejected = 1 ∧
      (k.totalRequests, k.rejectedRequests) = (2, 1) ∧
      -- Eight of ten calls have started; one was dropped before, and one is about to start.
      tr.calls.length = 10 ∧ (passages log).countP (Passage.droppedAtDoor .rateLimiter) = 1 ∧
      tr.atDoorOf .rateLimiter = 1 ∧
      -- In either line one call has given up, and one still waits.
      (passages log).countP (Passage.lost .rateLimiter) = 1 ∧ tr.waitingAt .rateLimiter = 1 ∧
      (passages log).countP (Passage.lost .bulkhead) = 1 ∧ tr.waitingAt .bulkhead = 1 ∧
      -- Two calls had a slot, and one of them entered.
      callsOf (Passage.is .bulkhead .passed) log = [0, 3] ∧
      callsOf (Passage.is .circuitBreaker .passed) log = [0] ∧ results log = [(0, true)] ∧
      tr.calls[0]?.map Call.invocations = some 2 := by
  have hvalid : gate.validate = .ok () := by decide +kernel
  have hcourse : Course (.start (gate.assemble 0) .none) rushed.1 rushed.2 :=
    Traffic.course_played (by decide +kernel)
  have honly : Only (gate.assemble 0) rushed.1 := only_of_allows (by decide +kernel)
  have hhook : Attachments.none.HookReturns := by
    intro _ hook
    cases hook
  obtain ⟨r, b, k, hr, hb, hk, hflow⟩ := flow_conserved rfl rfl rfl hhook hcourse honly
  have hcounters : rushed.2.layers.rateLimiter.map (fun r => (r.admitted, r.rejected)) =
        some (5, 1) ∧ rushed.2.layers.bulkhead.map Bulkhead.rejected = some 1 ∧
      rushed.2.layers.circuitBreaker.map (fun k => (k.totalRequests, k.rejectedRequests)) =
        some (2, 1) := by decide +kernel
  rw [hr, hb, hk] at hcounters
  obtain ⟨hlimiter, hbulkhead, hbreaker⟩ := hcounters
  refine ⟨by rw [Resilience.Config.build, hvalid]; rfl, _, _, r, b, k, hcourse, honly, hr, hb, hk,
    hflow, Option.some.inj hlimiter, Option.some.inj hbulkhead, Option.some.inj hbreaker, ?_⟩
  decide +kernel

end Executor

end Safeguard
