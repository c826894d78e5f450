import Safeguard.Proofs.Traffic.Journeys

/-!
# What the counters count

The rate limiter and the circuit breaker count calls. What they count is what the log tells of
the calls: the counters stand where one gets by counting fates in the log. For the bulkhead
this is part of `Bulkhead.exists_agrees`.

## Main definitions

* `RateLimiter.Counts`, `CircuitBreaker.Counts`: what happens to the counters of a component.

## Main results

* `Traffic.Course.limiter_counts`: the rate limiter counts the calls that pass it and those it
  refuses.
* `Traffic.Course.breaker_counts`: the circuit breaker counts the calls that come to it and
  those it refuses, and lets all others pass.
-/

namespace Safeguard

open CircuitBreaker (Permit Watched)
open Resilience (Layers)

variable {α : Type} {tr tr' : Traffic α} {id : Nat} {c c' : Call α} {l : Layer}

/-! ## Steps that ask another layer -/

/-- A call asks one layer at a time. -/
theorem Call.owner_eq_of_ahead {st : Stage} {inner : List Stage}
    (hahead : c.activity.ahead = st :: inner) (howner : st.owner = l) :
    ∀ st' inner', c.activity.ahead = st' :: inner' → st'.owner = l := by
  intro st' inner' hahead'
  obtain ⟨rfl, -⟩ := List.cons_eq_cons.mp (hahead.symm.trans hahead')
  exact howner

theorem Call.owner_eq_of_leaving {outcome : Outcome α} (hleaving : c.activity = .leaving outcome) :
    ∀ st inner, c.activity.ahead = st :: inner → st.owner = l := by
  intro st inner hahead
  rw [hleaving] at hahead
  cases hahead

theorem LimiterRule.owner_eq {b b' : RateLimiter Float} (h : LimiterRule tr c b b' c') :
    ∀ st inner, c.activity.ahead = st :: inner → st.owner = .rateLimiter := by
  obtain ⟨st, inner, hahead, howner⟩ := h.exists_ahead
  exact Call.owner_eq_of_ahead hahead howner

theorem BulkheadRule.owner_eq {b b' : Bulkhead Nat} (h : BulkheadRule tr id c b b' c') :
    ∀ st inner, c.activity.ahead = st :: inner → st.owner = .bulkhead := by
  obtain ⟨st, inner, hahead, howner⟩ | ⟨outcome, outside, hleaving, -⟩ := h.exists_ahead_or
  · exact Call.owner_eq_of_ahead hahead howner
  · exact Call.owner_eq_of_leaving hleaving

theorem BreakerRule.owner_eq {b b' : CircuitBreaker} (h : BreakerRule tr c b b' c') :
    ∀ st inner, c.activity.ahead = st :: inner → st.owner = .circuitBreaker := by
  obtain ⟨st, inner, hahead, howner⟩ | ⟨outcome, p, outside, hleaving, -⟩ := h.exists_ahead_or
  · exact Call.owner_eq_of_ahead hahead howner
  · exact Call.owner_eq_of_leaving hleaving

/-- A step that asks none of the three components asks neither of them that is present, unless
the call is given up while it waits. -/
theorem InnerRule.fate_of_owner {runs : List (Run α)} (h : InnerRule tr id c runs c')
    (hpresent : tr.layers.has l = true) (hretry : l ≠ .retry) (htimeout : l ≠ .timeout)
    {st : Stage} {inner : List Stage} (hahead : c.activity.ahead = st :: inner)
    (howner : st.owner = l) :
    (l = .rateLimiter ∨ l = .bulkhead) ∧ c'.activity.fate = .refused .cancelled := by
  subst howner
  have hsame : ∀ {st' inner'}, c.activity.ahead = st' :: inner' → st' = st := fun hahead' =>
    (List.cons_eq_cons.mp (hahead'.symm.trans hahead)).1
  have hnone : c.activity.ahead ≠ [] := by simp [hahead]
  cases h with
  | skipped ahead idle =>
    obtain rfl := hsame ahead
    obtain habsent | ⟨howner, -⟩ := idle
    · rw [hpresent] at habsent
      cases habsent
    · exact absurd howner htimeout
  | quit ahead waiting =>
    obtain rfl := hsame ahead
    exact ⟨Activity.owner_of_ahead ahead waiting, rfl⟩
  | exhausted entering =>
    obtain rfl := hsame (by rw [entering]; rfl)
    exact absurd rfl hretry
  | attempted entering =>
    obtain rfl := hsame (by rw [entering]; rfl)
    exact absurd rfl hretry
  | raced entering =>
    obtain rfl := hsame (by rw [entering]; rfl)
    exact absurd rfl htimeout
  | _ => exact absurd (by simp_all only [Activity.ahead]) hnone

/-! ## The rate limiter -/

/-- What a rate limiter counts when these things come of calls. -/
structure RateLimiter.Counts (r : RateLimiter Float) (ps : List Passage)
    (r' : RateLimiter Float) : Prop where
  admitted : r'.admitted = r.admitted + ps.countP (Passage.is .rateLimiter .passed)
  rejected : r'.rejected =
    r.rejected + ps.countP (Passage.is .rateLimiter (.refused .rateLimited))

variable {r r' r'' : RateLimiter Float} {ps ps' : List Passage}

namespace RateLimiter

theorem Counts.append (h : r.Counts ps r') (h' : r'.Counts ps' r'') :
    r.Counts (ps ++ ps') r'' :=
  ⟨by rw [h'.admitted, h.admitted, List.countP_append, Nat.add_assoc],
    by rw [h'.rejected, h.rejected, List.countP_append, Nat.add_assoc]⟩

theorem Counts.refl (r : RateLimiter Float) : r.Counts [] r := ⟨rfl, rfl⟩

/-- A request is counted by its answer. -/
theorem counters_allow {n : UInt32} {now : Instant} {granted : Bool}
    (h : r.allow n now = (r', granted)) :
    r'.admitted = r.admitted + (if granted then 1 else 0) ∧
      r'.rejected = r.rejected + if granted then 0 else 1 := by
  unfold allow at h
  dsimp only at h
  split at h
  · obtain ⟨rfl, rfl⟩ := Prod.mk.inj h
    exact ⟨rfl, rfl⟩
  · obtain ⟨rfl, rfl⟩ := Prod.mk.inj h
    exact ⟨rfl, rfl⟩

end RateLimiter

/-- Nothing is counted of a call that is not at the rate limiter. -/
theorem Call.limiter_counts (h : ∀ st inner, c.activity.ahead = st :: inner →
    st.owner ≠ .rateLimiter) (a : Activity α) : r.Counts (c.passage? id a).toList r :=
  ⟨by rw [Call.countP_passage?_eq_zero h id a fun _ => Passage.layer_of_is]; rfl,
    by rw [Call.countP_passage?_eq_zero h id a fun _ => Passage.layer_of_is]; rfl⟩

/-- A step counts a call that passes the rate limiter, or is refused there. -/
theorem LimiterRule.counts (h : LimiterRule tr c r r' c') :
    r.Counts (c.passage? id c'.activity).toList r' := by
  obtain ⟨st, inner, hahead, howner⟩ := h.exists_ahead
  have hone := Call.countP_passage?_is hahead howner id c'.activity
  cases h with
  | granted _ _ allow =>
    obtain ⟨hadmitted, hrejected⟩ := RateLimiter.counters_allow allow
    exact ⟨by rw [hone]; exact hadmitted, by rw [hone]; exact hrejected⟩
  | refused _ _ allow =>
    obtain ⟨hadmitted, hrejected⟩ := RateLimiter.counters_allow allow
    exact ⟨by rw [hone]; exact hadmitted, by rw [hone]; exact hrejected⟩
  | impossible => exact ⟨by rw [hone]; rfl, by rw [hone]; rfl⟩
  | pending => exact ⟨by rw [hone]; rfl, by rw [hone]; rfl⟩

/-- Another step counts nothing there. -/
theorem Rule.limiter_counts {layers : Layers} {runs : List (Run α)}
    (h : Rule tr id c layers runs c') (hr : tr.layers.rateLimiter = some r) :
    ∃ r', layers.rateLimiter = some r' ∧ r.Counts (c.passage? id c'.activity).toList r' := by
  cases h with
  | @limiter r₀ r' _ present rule =>
    obtain rfl : r₀ = r := Option.some.inj (present.symm.trans hr)
    exact ⟨r', rfl, rule.counts⟩
  | bulkhead _ rule =>
    have hne : ∀ st inner, c.activity.ahead = st :: inner → st.owner ≠ .rateLimiter :=
      fun st inner hahead => by simp [rule.owner_eq st inner hahead]
    exact ⟨r, hr, Call.limiter_counts hne _⟩
  | breaker _ rule =>
    have hne : ∀ st inner, c.activity.ahead = st :: inner → st.owner ≠ .rateLimiter :=
      fun st inner hahead => by simp [rule.owner_eq st inner hahead]
    exact ⟨r, hr, Call.limiter_counts hne _⟩
  | @inner _ c' rule =>
    have hpresent : tr.layers.has .rateLimiter = true := by rw [Layers.has, hr]; rfl
    refine ⟨r, hr, ?_⟩
    by_cases hat : ∃ st inner, c.activity.ahead = st :: inner ∧ st.owner = .rateLimiter
    -- The call can only have been given up there, and that is not counted.
    · obtain ⟨st, inner, hahead, howner⟩ := hat
      obtain ⟨-, hfate⟩ := rule.fate_of_owner hpresent (by decide) (by decide) hahead howner
      have hone := Call.countP_passage?_is hahead howner id c'.activity
      rw [hfate] at hone
      exact ⟨by rw [hone]; rfl, by rw [hone]; rfl⟩
    · exact Call.limiter_counts (fun st inner hahead howner => hat ⟨st, inner, hahead, howner⟩) _

/-! ## The circuit breaker -/

/-- What a circuit breaker counts when these things come of calls. A call that comes to it
passes it or is refused. -/
structure CircuitBreaker.Counts (b : CircuitBreaker) (ps : List Passage) (b' : CircuitBreaker) :
    Prop where
  total : b'.totalRequests = b.totalRequests + ps.countP (Passage.came .circuitBreaker)
  rejected : b'.rejectedRequests =
    b.rejectedRequests + ps.countP (Passage.is .circuitBreaker (.refused .circuitOpen))
  came : ps.countP (Passage.came .circuitBreaker) = ps.countP (Passage.is .circuitBreaker .passed) +
    ps.countP (Passage.is .circuitBreaker (.refused .circuitOpen))

/-- So many requests are added, and so many of them are rejected. -/
structure CircuitBreaker.Adds (b : CircuitBreaker) (asked rejected : Nat) (b' : CircuitBreaker) :
    Prop where
  total : b'.totalRequests = b.totalRequests + asked
  rejected : b'.rejectedRequests = b.rejectedRequests + rejected

variable {b b' b'' : CircuitBreaker} {now : Instant}

namespace CircuitBreaker

theorem Counts.append (h : b.Counts ps b') (h' : b'.Counts ps' b'') :
    b.Counts (ps ++ ps') b'' := by
  obtain ⟨htotal, hrejected, hcame⟩ := h
  obtain ⟨htotal', hrejected', hcame'⟩ := h'
  refine ⟨?_, ?_, ?_⟩ <;> simp only [List.countP_append] <;> omega

theorem Adds.counts (h : b.Adds 0 0 b') : b.Counts [] b' := ⟨h.total, h.rejected, rfl⟩

theorem Adds.watched {m n : Nat} (h : b.Adds m n b') (hw : Watched now b' b'') : b.Adds m n b'' :=
  ⟨hw.requests.1.trans h.total, hw.requests.2.trans h.rejected⟩

theorem Adds.trans (h : b.Adds 0 0 b') (h' : b'.Adds 0 0 b'') : b.Adds 0 0 b'' :=
  ⟨h'.total.trans h.total, h'.rejected.trans h.rejected⟩

theorem Adds.refl (b : CircuitBreaker) : b.Adds 0 0 b := ⟨rfl, rfl⟩

theorem adds_enter (b : CircuitBreaker) (s : State) : b.Adds 0 0 (b.enter s) := by
  cases s <;> exact ⟨rfl, rfl⟩

theorem adds_observe (b : CircuitBreaker) (now : Instant) : b.Adds 0 0 (b.observe now).1 :=
  ⟨(b.requests_observe now).1, (b.requests_observe now).2⟩

/-- Every request counts, and those that are rejected count twice. -/
theorem adds_request (b : CircuitBreaker) (now : Instant) :
    b.Adds 1 (if (b.request now).2.2 = none then 1 else 0) (b.request now).1 := by
  -- A request looks at the clock first, and counts before it decides.
  have hlook : b.Adds 0 0 (b.refresh now).1 := b.adds_observe now
  have hasked : b.Adds 1 0 { (b.refresh now).1 with
      totalRequests := (b.refresh now).1.totalRequests + 1 } :=
    ⟨congrArg (· + 1) hlook.total, hlook.rejected⟩
  cases hstate : (b.refresh now).1.state with
  | closed =>
    simp only [request, hstate]
    exact ⟨hasked.total, hasked.rejected⟩
  | opened =>
    simp only [request, hstate]
    exact ⟨hasked.total, congrArg (· + 1) hasked.rejected⟩
  | halfOpen =>
    by_cases hroom : (b.refresh now).1.probes < (b.refresh now).1.config.maxHalfOpenProbes.toNat
    · simp only [request, hstate, hroom, if_true]
      exact ⟨hasked.total, hasked.rejected⟩
    · simp only [request, hstate, hroom, if_false]
      exact ⟨hasked.total, congrArg (· + 1) hasked.rejected⟩

theorem adds_freeProbe (b : CircuitBreaker) (p : Permit) : b.Adds 0 0 (b.freeProbe p) := by
  unfold freeProbe
  split <;> exact ⟨rfl, rfl⟩

theorem adds_settle (b : CircuitBreaker) (p : Permit) (failed : Bool) (now : Instant) :
    b.Adds 0 0 (b.settle p failed now).1 := by
  have hfree := b.adds_freeProbe p
  cases failed with
  | true =>
    obtain ⟨-, h⟩ | ⟨-, h⟩ := b.settle_failure_cases p now
    · rw [h]
      exact ⟨hfree.total, hfree.rejected⟩
    · rw [h]
      exact ⟨hfree.total, hfree.rejected⟩
  | false =>
    obtain ⟨-, h⟩ | ⟨-, -, h⟩ | ⟨-, -, h⟩ | ⟨-, h⟩ := b.settle_success_cases p now
    · rw [h]
      exact ⟨hfree.total, hfree.rejected⟩
    · rw [h]
      exact ⟨hfree.total, hfree.rejected⟩
    · rw [h]
      exact ⟨hfree.total, hfree.rejected⟩
    · rw [h]
      exact hfree

theorem adds_abandon (ps : List Permit) (b : CircuitBreaker) :
    b.Adds 0 0 (ps.foldl abandon b) := by
  induction ps generalizing b with
  | nil => exact .refl b
  | cons p ps ih => exact (b.adds_freeProbe p).trans (ih (b.abandon p))

theorem adds_reset (b : CircuitBreaker) : b.Adds 0 0 b.reset.1 := by
  obtain ⟨-, h⟩ | ⟨-, h⟩ := b.reset_cases
  · rw [h]
    exact ⟨rfl, rfl⟩
  · rw [h]
    exact b.adds_enter .closed

theorem adds_forceOpen (b : CircuitBreaker) (now : Instant) :
    b.Adds 0 0 (b.forceOpen now).1 := by
  obtain ⟨-, h⟩ | ⟨-, h⟩ := b.forceOpen_cases now
  · rw [h]
    exact ⟨rfl, rfl⟩
  · rw [h]
    exact ⟨rfl, rfl⟩

theorem adds_apply (use : BreakerUse) (b : CircuitBreaker) (now : Instant) :
    b.Adds 0 0 (use.apply b now).1 := by
  cases use with
  | observe => exact b.adds_observe now
  | reset => exact b.adds_reset
  | forceOpen => exact b.adds_forceOpen now

end CircuitBreaker

/-- Nothing is counted of a call that is not at the circuit breaker. -/
theorem Call.breaker_counts (h : ∀ st inner, c.activity.ahead = st :: inner →
    st.owner ≠ .circuitBreaker) (hb : b.Adds 0 0 b') (a : Activity α) :
    b.Counts (c.passage? id a).toList b' := by
  have hcame := Call.countP_passage?_eq_zero h id a fun _ => Passage.layer_of_came
  have his := fun f => Call.countP_passage?_eq_zero h id a fun _ => Passage.layer_of_is (f := f)
  exact ⟨by rw [hcame]; exact hb.total, by rw [his]; exact hb.rejected, by rw [hcame, his, his]⟩

/-- A step counts a call that comes to the circuit breaker, and again if it is refused there.
All others pass, unless a hook panics. -/
theorem BreakerRule.counts (h : BreakerRule tr c b b' c') (hhook : tr.attached.HookReturns) :
    b.Counts (c.passage? id c'.activity).toList b' := by
  have hcame : ∀ {st inner}, c.activity = .entering (st :: inner) → st.owner = .circuitBreaker →
      c'.activity.fate = .passed ∨ c'.activity.fate = .refused .circuitOpen →
      (c.passage? id c'.activity).toList.countP (Passage.came .circuitBreaker) = 1 := by
    intro st inner entering owner hfate
    have hne : c'.activity.fate ≠ .dropped := by rcases hfate with h | h <;> simp [h]
    rw [Call.passage?_of_ahead (by rw [entering]; rfl), entering]
    simp [Passage.came, owner, hne, Activity.arrives]
  have hone : ∀ {st inner}, c.activity = .entering (st :: inner) → st.owner = .circuitBreaker →
      ∀ f, (c.passage? id c'.activity).toList.countP (Passage.is .circuitBreaker f) =
        if c'.activity.fate = f then 1 else 0 :=
    fun entering owner f => Call.countP_passage?_is (by rw [entering]; rfl) owner id c'.activity f
  have hadds := b.adds_request tr.now
  cases h with
  | admitted entering owner request watched =>
    rw [request] at hadds
    obtain ⟨htotal, hrejected⟩ := hadds.watched watched
    refine ⟨?_, ?_, ?_⟩ <;> simp only [hcame entering owner (.inl rfl), hone entering owner]
    exacts [htotal, hrejected, rfl]
  | rejected entering owner request watched =>
    rw [request] at hadds
    obtain ⟨htotal, hrejected⟩ := hadds.watched watched
    refine ⟨?_, ?_, ?_⟩ <;> simp only [hcame entering owner (.inr rfl), hone entering owner]
    exacts [htotal, hrejected, rfl]
  | spoiled _ _ hook => exact absurd hhook hook
  | @settled outcome outcome' p outside failed b' leaving frames verdict watched =>
    rw [Call.passage?_of_nil (by rw [leaving]; rfl)]
    exact ((b.adds_settle p failed tr.now).watched watched).counts
  | @spent outcome p outside message leaving =>
    rw [Call.passage?_of_nil (by rw [leaving]; rfl)]
    exact (b.adds_freeProbe p).counts

/-- Another step counts nothing there. -/
theorem Rule.breaker_counts {layers : Layers} {runs : List (Run α)}
    (h : Rule tr id c layers runs c') (hb : tr.layers.circuitBreaker = some b)
    (hhook : tr.attached.HookReturns) :
    ∃ b', layers.circuitBreaker = some b' ∧ b.Counts (c.passage? id c'.activity).toList b' := by
  cases h with
  | limiter _ rule =>
    have hne : ∀ st inner, c.activity.ahead = st :: inner → st.owner ≠ .circuitBreaker :=
      fun st inner hahead => by simp [rule.owner_eq st inner hahead]
    exact ⟨b, hb, Call.breaker_counts hne (.refl b) _⟩
  | bulkhead _ rule =>
    have hne : ∀ st inner, c.activity.ahead = st :: inner → st.owner ≠ .circuitBreaker :=
      fun st inner hahead => by simp [rule.owner_eq st inner hahead]
    exact ⟨b, hb, Call.breaker_counts hne (.refl b) _⟩
  | @breaker b₀ b' _ present rule =>
    obtain rfl : b₀ = b := Option.some.inj (present.symm.trans hb)
    exact ⟨b', rfl, rule.counts hhook⟩
  | inner rule =>
    have hpresent : tr.layers.has .circuitBreaker = true := by rw [Layers.has, hb]; rfl
    refine ⟨b, hb, Call.breaker_counts (fun st inner hahead howner => ?_) (.refl b) _⟩
    obtain ⟨howner, -⟩ := rule.fate_of_owner hpresent (by decide) (by decide) hahead howner
    simp at howner

/-! ## Courses -/

namespace Traffic

variable {m : Move α} {layers : Layers} {attached : Attachments} {log : List (Change α)}

theorem Effect.limiter_counts (h : Effect tr m tr') (hr : tr.layers.rateLimiter = some r)
    (hm : ∀ n, m ≠ .limiter (.allow n)) :
    ∃ r', tr'.layers.rateLimiter = some r' ∧
      r.Counts (⟨tr, m, tr'⟩ : Change α).passage?.toList r' := by
  cases h with
  | stepped hc hstep =>
    rw [passage?_of_stepped hc hstep]
    exact hstep.rule.limiter_counts hr
  | dropped hc _ hdrop =>
    rw [passage?_of_dropped hc hdrop]
    refine ⟨r, by rw [hdrop.layers]; exact hr, ?_, ?_⟩ <;> simp [Call.countP_is_ended]
  | limiter use present =>
    obtain rfl := Option.some.inj (present.symm.trans hr)
    refine ⟨_, rfl, ?_⟩
    cases use with
    | allow n => exact absurd rfl (hm n)
    | level => exact ⟨rfl, rfl⟩
    | reset => exact ⟨rfl, rfl⟩
  | idle ended =>
    rw [passage?_of_ended ended]
    exact ⟨r, hr, .refl r⟩
  | aside kind haside =>
    rw [passage?_of_aside kind]
    exact ⟨r, by rw [haside.layers]; exact hr, .refl r⟩
  | begun => exact ⟨r, hr, .refl r⟩
  | told => exact ⟨r, hr, .refl r⟩
  | breaker => exact ⟨r, hr, .refl r⟩

/-- **The rate limiter counts** the calls that pass it, and those it refuses, as long as nobody
else asks it for tokens. -/
theorem Course.limiter_counts (h : Course (.start layers attached) log tr)
    (hr : layers.rateLimiter = some r) (honly : ∀ ch ∈ log, ∀ n, ch.move ≠ .limiter (.allow n)) :
    ∃ r', tr.layers.rateLimiter = some r' ∧ r.Counts (passages log) r' := by
  induction h with
  | start => exact ⟨r, hr, .refl r⟩
  | @move log tr tr' m _ hm ih =>
    obtain ⟨r', hr', hcounts⟩ := ih fun ch hch => honly ch (List.mem_append_left _ hch)
    have hmove : ∀ n, m ≠ .limiter (.allow n) :=
      honly ⟨tr, m, tr'⟩ (List.mem_append_right _ (.head _))
    obtain ⟨r'', hr'', hmore⟩ := (effect_of_move hm).limiter_counts hr' hmove
    rw [passages_snoc]
    exact ⟨r'', hr'', hcounts.append hmore⟩

theorem Effect.breaker_counts (h : Effect tr m tr') (hb : tr.layers.circuitBreaker = some b)
    (hhook : tr.attached.HookReturns) :
    ∃ b', tr'.layers.circuitBreaker = some b' ∧
      b.Counts (⟨tr, m, tr'⟩ : Change α).passage?.toList b' := by
  have hsame : b.Counts [] b := (CircuitBreaker.Adds.refl b).counts
  cases h with
  | stepped hc hstep =>
    rw [passage?_of_stepped hc hstep]
    exact hstep.rule.breaker_counts hb hhook
  | @dropped id c _ hc _ hdrop =>
    rw [passage?_of_dropped hc hdrop]
    obtain ⟨htotal, hrejected⟩ := CircuitBreaker.adds_abandon c.permits b
    refine ⟨c.permits.foldl CircuitBreaker.abandon b, by rw [hdrop.layers, hb]; rfl, ?_, ?_, ?_⟩ <;>
      simp [Call.countP_is_ended, Call.countP_came_ended, htotal, hrejected]
  | @breaker use b₀ b' present watched =>
    obtain rfl : b₀ = b := Option.some.inj (present.symm.trans hb)
    exact ⟨b', rfl, ((CircuitBreaker.adds_apply use b₀ tr.now).watched watched).counts⟩
  | idle ended =>
    rw [passage?_of_ended ended]
    exact ⟨b, hb, hsame⟩
  | aside kind haside =>
    rw [passage?_of_aside kind]
    exact ⟨b, by rw [haside.layers]; exact hb, hsame⟩
  | begun => exact ⟨b, hb, hsame⟩
  | told => exact ⟨b, hb, hsame⟩
  | limiter => exact ⟨b, hb, hsame⟩

/-- **The circuit breaker counts** the calls that come to it, and those it refuses; all others
pass, as long as no hook panics. -/
theorem Course.breaker_counts (h : Course (.start layers attached) log tr)
    (hb : layers.circuitBreaker = some b) (hhook : attached.HookReturns) :
    ∃ b', tr.layers.circuitBreaker = some b' ∧ b.Counts (passages log) b' := by
  induction h with
  | start => exact ⟨b, hb, (CircuitBreaker.Adds.refl b).counts⟩
  | @move log tr tr' m hcourse hm ih =>
    obtain ⟨b', hb', hcounts⟩ := ih
    have hattached : tr.attached = attached := hcourse.keeps fun heffect => heffect.attached_eq
    have hhook : tr.attached.HookReturns := by rw [hattached]; exact hhook
    obtain ⟨b'', hb'', hmore⟩ := (effect_of_move hm).breaker_counts hb' hhook
    rw [passages_snoc]
    exact ⟨b'', hb'', hcounts.append hmore⟩

end Traffic

end Safeguard
