import Safeguard.Proofs.RateLimiter.Bound

/-!
# Limiters that keep in step

A bucket is brought up to date when it is looked at, and never in between. How often that happens
makes no difference: what accrues is cut off at the size of the bucket, and cutting it off after
every part of a span of time leaves the same as cutting it off once at the end.

So two limiters may hold different numbers, brought up to date at different times, and yet show
the same level whenever they are looked at from now on. They then answer alike, and go on doing so
whatever is done to both of them. This file carries that from buckets to whole runs. One of the
runs may have counted more refusals than the other, and may have a request on its way that the
other one lacks: neither is of any consequence to the buckets.

## Main definitions

* `InStep`: two limiters that show the same levels from now on.
* `Ledger.story`: what acts are answered from now on.
* `Ledger.Alike`: two ledgers whose limiters are in step, and whose requests sleep alike.
* `Ledger.Follows`: everything goes the same in both ledgers from now on.

## Main results

* `refill_refill`: refilling in two steps is refilling once.
* `Ledger.Alike.run`: ledgers that are alike are answered alike and stay alike.
-/

namespace Safeguard.RateLimiter

variable {b b' : RateLimiter ℚ} {now s t : Instant} {extra : ℕ}

/-! ## Refilling in steps -/

theorem tokens_refill_eq (b : RateLimiter ℚ) (t : Instant) :
    (b.refill t).tokens =
      min (b.tokens + Ledger.accrual b.config (t - b.refilledAt)) b.capacity :=
  tokens_refill b t

/-- Bringing a bucket up to date in between changes nothing: what the first cut takes away would
not have fitted in the end either. -/
theorem refill_refill (hs : b.refilledAt ≤ s) (hst : s ≤ t) :
    (b.refill s).refill t = b.refill t := by
  have hsplit : t - b.refilledAt = (s - b.refilledAt) + (t - s) := by
    rw [Nat.add_comm]
    exact (Nat.sub_add_sub_cancel hst hs).symm
  have hroom : b.capacity ≤ b.capacity + Ledger.accrual b.config (t - s) :=
    le_add_of_nonneg_right (Ledger.accrual_nonneg _ _)
  have htokens : ((b.refill s).refill t).tokens = (b.refill t).tokens := by
    calc ((b.refill s).refill t).tokens
        = min ((b.refill s).tokens + Ledger.accrual b.config (t - s)) b.capacity :=
          tokens_refill_eq (b.refill s) t
      _ = min (min (b.tokens + Ledger.accrual b.config (s - b.refilledAt) +
            Ledger.accrual b.config (t - s)) (b.capacity + Ledger.accrual b.config (t - s)))
            b.capacity := by
          rw [tokens_refill_eq, min_add_add_right]
      _ = min (b.tokens + Ledger.accrual b.config (t - b.refilledAt)) b.capacity := by
          rw [min_assoc, min_eq_right hroom, add_assoc, ← Ledger.accrual_add, ← hsplit]
      _ = (b.refill t).tokens := (tokens_refill_eq b t).symm
  show { b with tokens := ((b.refill s).refill t).tokens, refilledAt := t } = b.refill t
  rw [htokens]
  rfl

/-- The level after some time, from the level now. -/
theorem level_eq (h : b.refilledAt ≤ now) (hle : now ≤ t) :
    (b.level t).2 = min b.capacity ((b.level now).2 + Ledger.accrual b.config (t - now)) := by
  show (b.refill t).tokens = _
  rw [← refill_refill h hle, tokens_refill_eq, min_comm]
  rfl

/-- Buckets that are the same show the same levels. -/
theorem SameBucket.tokens_refill_eq (h : b.SameBucket b') (t : Instant) :
    (b'.refill t).tokens = (b.refill t).tokens := by
  rw [tokens_refill, tokens_refill, capacity, capacity, h.config, h.tokens, h.refilledAt]

/-! ## Two limiters -/

/-- Two limiters that show the same levels whenever they are looked at from now on. The first one
has refused that many requests more. -/
structure InStep (extra : ℕ) (now : Instant) (b b' : RateLimiter ℚ) : Prop where
  config : b.config = b'.config
  tokens : ∀ t, now ≤ t → (b.refill t).tokens = (b'.refill t).tokens
  admitted : b.admitted = b'.admitted
  rejected : b.rejected = b'.rejected + extra

namespace InStep

theorem refl (now : Instant) (b : RateLimiter ℚ) : InStep 0 now b b :=
  ⟨rfl, fun _ _ => rfl, rfl, rfl⟩

/-- Limiters that were brought up to date at the same time and hold the same then. -/
theorem of_tokens (config : b.config = b'.config) (tokens : b.tokens = b'.tokens)
    (refilledAt : b.refilledAt = b'.refilledAt) (admitted : b.admitted = b'.admitted)
    (rejected : b.rejected = b'.rejected + extra) : InStep extra now b b' where
  config := config
  tokens t _ := by
    have hsame : b'.SameBucket b := ⟨config, tokens, refilledAt⟩
    exact hsame.tokens_refill_eq t
  admitted := admitted
  rejected := rejected

theorem later (h : InStep extra now b b') (hle : now ≤ t) : InStep extra t b b' :=
  { h with tokens := fun u hu => h.tokens u (hle.trans hu) }

theorem refill (h : InStep extra now b b') : InStep extra now (b.refill now) (b'.refill now) :=
  .of_tokens h.config (h.tokens now le_rfl) rfl h.admitted h.rejected

/-- Only the first one is brought up to date. -/
theorem refill_left (h : InStep extra now b b') (hnow : b.refilledAt ≤ now) :
    InStep extra now (b.refill now) b' where
  config := h.config
  tokens t ht := by rw [refill_refill hnow ht, h.tokens t ht]
  admitted := h.admitted
  rejected := h.rejected

theorem holds (h : InStep extra now b b') (n : UInt32) :
    (b.refill now).holds n = (b'.refill now).holds n := by
  unfold RateLimiter.holds
  rw [h.tokens now le_rfl]

theorem record (h : InStep extra now b b') (granted : Bool) :
    InStep extra now (b.record granted) (b'.record granted) := by
  cases granted with
  | true => exact { h with admitted := congrArg (· + 1) h.admitted }
  | false =>
    refine { h with rejected := ?_ }
    show b.rejected + 1 = b'.rejected + 1 + extra
    rw [h.rejected, Nat.add_right_comm]

/-- The same tokens are taken out of both. -/
theorem spend (h : InStep extra now b b') (n : UInt32) :
    InStep extra now ((b.refill now).spend n) ((b'.refill now).spend n) := by
  refine .of_tokens h.config ?_ rfl h.admitted h.rejected
  rw [tokens_spend, tokens_spend, h.tokens now le_rfl]

theorem allow (h : InStep extra now b b') (n : UInt32) :
    (b.allow n now).2 = (b'.allow n now).2 ∧
      InStep extra now (b.allow n now).1 (b'.allow n now).1 := by
  unfold RateLimiter.allow
  dsimp only
  rw [h.holds n]
  split
  · exact ⟨rfl, (h.spend n).record true⟩
  · exact ⟨rfl, h.refill.record false⟩

theorem beginWait (h : InStep extra now b b') (n : UInt32) :
    (b.beginWait n now).2 = (b'.beginWait n now).2 ∧
      InStep extra now (b.beginWait n now).1 (b'.beginWait n now).1 := by
  unfold RateLimiter.beginWait
  rw [h.config]
  split
  · exact ⟨rfl, h.record false⟩
  · dsimp only
    rw [h.holds n]
    split
    · exact ⟨rfl, (h.spend n).record true⟩
    · refine ⟨?_, h.refill⟩
      rw [h.tokens now le_rfl, config_refill, config_refill, h.config]

theorem reset (h : InStep extra now b b') : InStep extra now (b.reset now) (b'.reset now) := by
  refine .of_tokens h.config ?_ rfl h.admitted h.rejected
  show b.capacity = b'.capacity
  rw [capacity, capacity, h.config]

end InStep

namespace Ledger

variable {l l' r r' m m' : Ledger ℚ} {a : Act} {acts : List Act} {hidden : Option Nat} {id : Nat}
  {xs : List (Instant × Answer ℚ)}

/-! ## Stories -/

/-- What acts are answered from now on. -/
def story (l : Ledger ℚ) (acts : List Act) : List (Instant × Answer ℚ) :=
  (l.run acts).answers.drop l.answers.length

theorem story_eq (h : (l.run acts).answers = l.answers ++ xs) : l.story acts = xs := by
  rw [story, h, List.drop_left]

/-- Answers that were given stay. -/
theorem answers_run (l : Ledger ℚ) (acts : List Act) :
    (l.run acts).answers = l.answers ++ l.story acts := by
  have hexists : ∃ xs, (l.run acts).answers = l.answers ++ xs := by
    induction acts generalizing l with
    | nil => exact ⟨[], (List.append_nil _).symm⟩
    | cons a acts ih =>
      obtain ⟨xs, hxs, -⟩ := (l.effect_step a).exists_answers
      obtain ⟨ys, hys⟩ := ih (l.step a)
      exact ⟨xs ++ ys, hys.trans (by rw [hxs, List.append_assoc])⟩
  obtain ⟨xs, hxs⟩ := hexists
  rw [story_eq hxs, hxs]

theorem story_cons (l : Ledger ℚ) (a : Act) (acts : List Act) :
    l.story (a :: acts) = l.story [a] ++ (l.step a).story acts := by
  apply story_eq
  calc (l.run (a :: acts)).answers
      = (l.step a).answers ++ (l.step a).story acts := (l.step a).answers_run acts
    _ = l.answers ++ l.story [a] ++ (l.step a).story acts := by
      rw [show (l.step a).answers = _ from l.answers_run [a]]
    _ = l.answers ++ (l.story [a] ++ (l.step a).story acts) := List.append_assoc ..

/-! ## Two ledgers -/

/-- The answer of a limiter that has refused that many requests more. -/
def Answer.plus (extra : ℕ) : Answer ℚ → Answer ℚ
  | .metrics m => .metrics { m with rejected := m.rejected + extra }
  | x => x

@[simp] theorem Answer.plus_zero (x : Answer ℚ) : x.plus 0 = x := by
  cases x <;> rfl

/-- Whether an act has nothing to do with a request. -/
def Act.Spares (hidden : Option Nat) : Act → Prop
  | .wake id | .giveUp id => hidden ≠ some id
  | _ => True

theorem Act.spares_none (a : Act) : a.Spares none := by
  cases a <;> simp [Act.Spares]

/-- Two ledgers whose limiters are in step, and whose requests sleep alike. The first one may have
a request on its way that the second one lacks. -/
structure Alike (extra : ℕ) (hidden : Option Nat) (l r : Ledger ℚ) : Prop where
  now : l.now = r.now
  limiter : InStep extra l.now l.limiter r.limiter
  length : l.waiters.length = r.waiters.length
  waiters : ∀ id, hidden ≠ some id → l.waiters[id]? = r.waiters[id]?

/-- The same was answered on both sides, and led to ledgers that are alike. -/
structure Keeps (extra : ℕ) (hidden : Option Nat) (l r l' r' : Ledger ℚ) : Prop where
  alike : Alike extra hidden l' r'
  answers : ∃ xs, r'.answers = r.answers ++ xs ∧
    l'.answers = l.answers ++ xs.map fun x => (x.1, x.2.plus extra)

theorem Keeps.trans (h : Keeps extra hidden l r l' r') (h' : Keeps extra hidden l' r' m m') :
    Keeps extra hidden l r m m' := by
  obtain ⟨xs, hr, hl⟩ := h.answers
  obtain ⟨ys, hr', hl'⟩ := h'.answers
  refine ⟨h'.alike, xs ++ ys, ?_, ?_⟩
  · rw [hr', hr, List.append_assoc]
  · rw [hl', hl, List.append_assoc, List.map_append]

/-- Answers do not depend on who sleeps. -/
theorem Keeps.of_awaken (h : Keeps extra hidden (l.awaken id) (r.awaken id) l' r') :
    Keeps extra hidden l r l' r' :=
  ⟨h.alike, h.answers⟩

namespace Alike

theorem refl (l : Ledger ℚ) : Alike 0 none l l := ⟨rfl, .refl _ _, rfl, fun _ _ => rfl⟩

theorem keeps (h : Alike extra hidden l r) : Keeps extra hidden l r l r :=
  ⟨h, [], (List.append_nil _).symm, (List.append_nil _).symm⟩

/-- Both limiters have changed, and both changes are answered alike. -/
theorem after (h : Alike extra hidden l r) (hb : InStep extra l.now b b') {x : Answer ℚ} :
    Keeps extra hidden l r (l.after b (x.plus extra)) (r.after b' x) where
  alike := { h with limiter := hb }
  answers := ⟨[(r.now, x)], rfl, by rw [← h.now]; rfl⟩

theorem ask (h : Alike extra hidden l r) (n : UInt32) :
    Keeps extra hidden l r (l.ask n) (r.ask n) := by
  obtain ⟨hverdict, hlimiter⟩ := h.limiter.allow n
  unfold Ledger.ask
  dsimp only
  rw [hverdict, ← h.now]
  cases (r.limiter.allow n l.now).2 with
  | true => exact h.after (x := .granted n) hlimiter
  | false => exact h.after (x := .refused n) hlimiter

/-- A request goes to sleep on both sides, under the same number. -/
theorem sleep (h : Alike extra hidden l r) (w : Waiter) :
    Alike extra hidden { l with waiters := l.waiters ++ [some w] }
      { r with waiters := r.waiters ++ [some w] } where
  now := h.now
  limiter := h.limiter
  length := by simp [h.length]
  waiters id hid := by
    rw [List.getElem?_append, List.getElem?_append, h.length]
    split
    · exact h.waiters id hid
    · rfl

theorem start (h : Alike extra hidden l r) (n : UInt32) :
    Keeps extra hidden l r (l.start n) (r.start n) := by
  obtain ⟨hverdict, hlimiter⟩ := h.limiter.beginWait n
  unfold Ledger.start
  rw [← h.now]
  generalize l.limiter.beginWait n l.now = p at hverdict hlimiter ⊢
  generalize r.limiter.beginWait n l.now = p' at hverdict hlimiter ⊢
  obtain ⟨b, x⟩ := p
  obtain ⟨b', x'⟩ := p'
  obtain rfl : x = x' := hverdict
  cases x with
  | granted => exact h.after (x := .granted n) hlimiter
  | refused => exact h.after (x := .refused n) hlimiter
  | pending delay =>
    have hkeeps := h.after (x := .asleep n delay) hlimiter
    exact ⟨hkeeps.alike.sleep ⟨n, l.now + delay.nanos⟩, hkeeps.answers⟩

/-- A request no longer sleeps on either side. -/
theorem awaken (h : Alike extra hidden l r) (id : Nat) :
    Alike extra hidden (l.awaken id) (r.awaken id) where
  now := h.now
  limiter := h.limiter
  length := by simp [Ledger.awaken, h.length]
  waiters id' hid := by
    simp only [Ledger.awaken, List.getElem?_set, h.length, h.waiters id' hid]

/-- Every act that has nothing to do with the request on its way is answered alike. -/
theorem step (h : Alike extra hidden l r) (ha : a.Spares hidden) :
    Keeps extra hidden l r (l.step a) (r.step a) := by
  cases a with
  | advance nanos =>
    have hle : l.now ≤ l.now + nanos := Nat.le_add_right ..
    exact ⟨{ h with now := congrArg (· + nanos) h.now, limiter := h.limiter.later hle },
      h.keeps.answers⟩
  | ask n => exact h.ask n
  | start n => exact h.start n
  | execute =>
    simp only [Ledger.step, h.limiter.config]
    split
    · exact h.start 1
    · exact h.ask 1
  | wake id =>
    have hwaiter : l.waiter? id = r.waiter? id := congrArg Option.join (h.waiters id ha)
    simp only [Ledger.step, hwaiter, h.now]
    split
    · split
      · exact ((h.awaken id).ask _).of_awaken
      · exact h.keeps
    · exact h.keeps
  | giveUp id =>
    have hwaiter : l.waiter? id = r.waiter? id := congrArg Option.join (h.waiters id ha)
    simp only [Ledger.step, hwaiter]
    split
    · exact ((h.awaken id).after (x := .abandoned _) h.limiter).of_awaken
    · exact h.keeps
  | look =>
    have htokens : (l.limiter.level l.now).2 = (r.limiter.level r.now).2 := by
      rw [← h.now]
      exact h.limiter.tokens l.now le_rfl
    simp only [Ledger.step, htokens]
    rw [← h.now]
    exact h.after (x := .level _) h.limiter.refill
  | snapshot =>
    have hmetrics : Answer.metrics (l.limiter.metrics l.now).2 =
        (Answer.metrics (r.limiter.metrics l.now).2).plus extra := by
      simp only [Answer.plus, metrics, level, config_refill, admitted_refill, rejected_refill,
        h.limiter.tokens l.now le_rfl, h.limiter.config, h.limiter.admitted, h.limiter.rejected]
    simp only [Ledger.step, hmetrics]
    rw [← h.now]
    exact h.after h.limiter.refill
  | reset =>
    simp only [Ledger.step]
    rw [← h.now]
    exact h.after (x := .filled) h.limiter.reset

/-- Runs that have nothing to do with the request on its way are answered alike. -/
theorem run (h : Alike extra hidden l r) (hacts : ∀ a ∈ acts, a.Spares hidden) :
    Keeps extra hidden l r (l.run acts) (r.run acts) := by
  induction acts generalizing l r with
  | nil => exact h.keeps
  | cons a acts ih =>
    obtain ⟨ha, hacts⟩ := List.forall_mem_cons.mp hacts
    have hstep := h.step ha
    exact hstep.trans (ih hstep.alike hacts)

theorem story_eq (h : Alike extra hidden l r) (hacts : ∀ a ∈ acts, a.Spares hidden) :
    l.story acts = (r.story acts).map fun x => (x.1, x.2.plus extra) := by
  obtain ⟨xs, hr, hl⟩ := (h.run hacts).answers
  rw [Ledger.story_eq hl, Ledger.story_eq hr]

end Alike

/-- From now on everything goes in the first run as in the second one, but for a request that is on
its way only in the first one, and for that many refusals that only the first one has counted. -/
structure Follows (extra : ℕ) (hidden : Option Nat) (l r : Ledger ℚ) : Prop where
  now : l.now = r.now
  /-- Whenever the buckets are looked at, they hold the same. -/
  level : ∀ t, l.now ≤ t → (l.limiter.level t).2 = (r.limiter.level t).2
  admitted : l.limiter.admitted = r.limiter.admitted
  rejected : l.limiter.rejected = r.limiter.rejected + extra
  /-- All verdicts, all delays and all levels that are seen are the same. -/
  story : ∀ acts, (∀ a ∈ acts, a.Spares hidden) →
    l.story acts = (r.story acts).map fun x => (x.1, x.2.plus extra)

theorem Alike.follows (h : Alike extra hidden l r) : Follows extra hidden l r where
  now := h.now
  level := h.limiter.tokens
  admitted := h.limiter.admitted
  rejected := h.limiter.rejected
  story _ hacts := h.story_eq hacts

end Ledger

end Safeguard.RateLimiter
