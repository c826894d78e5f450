import Mathlib.Tactic.Linarith
import Mathlib.Tactic.Positivity
import Mathlib.Tactic.Ring
import Safeguard.Proofs.RateLimiter.Runs
import Safeguard.Proofs.Scalar

/-!
# How much a limiter grants

Over exact numbers, what a limiter grants within a window of time is bounded by the bucket it
starts with, the buckets that resets fill, what accrues during the window, and the little that
every grant may overdraw. The tokens in the bucket are the potential of the argument: what was
granted since the start of the window and what could be granted at once now stay within the
bound together.

Nothing reserves tokens for a request that waits, so that it does not matter to the bound how
requests overlap.

## Main definitions

* `Ledger.amount`, `Ledger.grants`, `Ledger.resets`: what answers grant, how many do, and how
  often the bucket was filled.
* `Ledger.since`, `Ledger.during`: the answers of a window.
* `Ledger.Sound`: the bucket is within its bounds.
* `Ledger.Covered`: what was granted and what is left are covered by what came in.

## Main results

* `Ledger.amount_during_le`: the bound for every window of every run.
-/

namespace Safeguard.RateLimiter

/-! ## Buckets over exact numbers -/

section Exact

variable {l l' : RateLimiter ℚ} {n : UInt32} {now : Instant}

theorem tolerance_eq : (tolerance : ℚ) = 1 / nanosPerSecond := by simp [tolerance]

theorem tolerance_nonneg : (0 : ℚ) ≤ tolerance := by rw [tolerance_eq]; positivity

theorem capacity_nonneg (l : RateLimiter ℚ) : 0 ≤ l.capacity := by
  rw [capacity, Scalar.ofNat_eq_cast]
  positivity

theorem tokens_refill (l : RateLimiter ℚ) (now : Instant) :
    (l.refill now).tokens =
      min (l.tokens + (now - l.refilledAt : ℕ) / nanosPerSecond * max l.config.rate 0)
        l.capacity := by
  simp [refill]

theorem tokens_refill_nonneg (h : 0 ≤ l.tokens) : 0 ≤ (l.refill now).tokens := by
  rw [tokens_refill]
  have hrate : 0 ≤ max l.config.rate 0 := le_max_right ..
  exact le_min (by positivity) l.capacity_nonneg

theorem tokens_refill_le_capacity (l : RateLimiter ℚ) (now : Instant) :
    (l.refill now).tokens ≤ l.capacity := by
  rw [tokens_refill]
  exact min_le_right ..

/-- No more comes in than accrues. -/
theorem tokens_refill_le (l : RateLimiter ℚ) (now : Instant) :
    (l.refill now).tokens ≤
      l.tokens + (now - l.refilledAt : ℕ) / nanosPerSecond * max l.config.rate 0 := by
  rw [tokens_refill]
  exact min_le_left ..

theorem tokens_spend (l : RateLimiter ℚ) (n : UInt32) :
    (l.spend n).tokens = max (l.tokens - n.toNat) 0 := by
  simp [spend]

theorem holds_iff : l.holds n = true ↔ (n.toNat : ℚ) ≤ l.tokens + tolerance := by
  simp [holds]

/-- What is taken out of a bucket that holds it is overdrawn by the tolerance at most. -/
theorem tokens_spend_add_le (hholds : l.holds n = true) :
    (l.spend n).tokens + n.toNat ≤ l.tokens + tolerance := by
  rw [holds_iff] at hholds
  rw [tokens_spend]
  rcases max_cases (l.tokens - (n.toNat : ℚ)) 0 with ⟨hmax, -⟩ | ⟨hmax, -⟩
  · rw [hmax]
    linarith [tolerance_nonneg]
  · rw [hmax]
    linarith

end Exact

namespace Ledger

/-! ## Counting answers -/

section Counting

variable {R : Type} {xs ys : List (Instant × Answer R)}

/-- The tokens that an answer grants. -/
def Answer.amount : Answer R → Nat
  | .granted n => n.toNat
  | _ => 0

/-- Whether an answer grants tokens. -/
def Answer.isGrant : Answer R → Bool
  | .granted _ => true
  | _ => false

/-- Whether the bucket was filled. -/
def Answer.isFill : Answer R → Bool
  | .filled => true
  | _ => false

/-- The tokens that were granted in total. -/
def amount (xs : List (Instant × Answer R)) : Nat := (xs.map (·.2.amount)).sum

/-- How often tokens were granted. -/
def grants (xs : List (Instant × Answer R)) : Nat := xs.countP (·.2.isGrant)

/-- How often the bucket was filled. -/
def resets (xs : List (Instant × Answer R)) : Nat := xs.countP (·.2.isFill)

/-- The answers since a point of time. -/
def since (l : Ledger R) (s : Instant) : List (Instant × Answer R) :=
  l.answers.filter fun x => s ≤ x.1

/-- The answers between two points of time. -/
def during (l : Ledger R) (s e : Instant) : List (Instant × Answer R) :=
  l.answers.filter fun x => s ≤ x.1 ∧ x.1 ≤ e

/-- What was granted beyond what resets and the tolerance make up for. -/
def excess (capacity : ℚ) (xs : List (Instant × Answer R)) : ℚ :=
  amount xs - capacity * resets xs - tolerance * grants xs

variable {capacity : ℚ}

theorem excess_append :
    excess capacity (xs ++ ys) = excess capacity xs + excess capacity ys := by
  simp only [excess, amount, resets, grants, List.map_append, List.sum_append, List.countP_append,
    Nat.cast_add]
  ring

/-- Answers that do not touch the bucket do not count. -/
theorem excess_of_idle (h : ∀ x ∈ xs, x.2.isIdle = true) : excess capacity xs = 0 := by
  have hamount : ∀ x ∈ xs, x.2.amount = 0 ∧ x.2.isGrant = false ∧ x.2.isFill = false := by
    intro x hx
    have := h x hx
    cases hx2 : x.2 <;> simp_all [Answer.isIdle, Answer.amount, Answer.isGrant, Answer.isFill]
  have hsum : amount xs = 0 := List.sum_eq_zero fun n hn => by
    obtain ⟨x, hx, rfl⟩ := List.mem_map.mp hn
    exact (hamount x hx).1
  have hgrants : grants xs = 0 := List.countP_eq_zero.mpr fun x hx => by simp [(hamount x hx).2.1]
  have hresets : resets xs = 0 := List.countP_eq_zero.mpr fun x hx => by simp [(hamount x hx).2.2]
  simp [excess, hsum, hgrants, hresets]

@[simp] theorem excess_granted (now : Instant) (n : UInt32) :
    excess (R := R) capacity [(now, .granted n)] = n.toNat - tolerance := by
  simp [excess, amount, grants, resets, Answer.amount, Answer.isGrant, Answer.isFill]

@[simp] theorem excess_filled (now : Instant) :
    excess (R := R) capacity [(now, .filled)] = -capacity := by
  simp [excess, amount, grants, resets, Answer.amount, Answer.isGrant, Answer.isFill]

end Counting

variable {c : Config ℚ} {l l' : Ledger ℚ} {a : Act} {s e : Instant}

/-! ## The bucket within its bounds -/

/-- The bucket holds no more than fits, and whatever touched it did so before it was last
brought up to date. -/
structure Sound (c : Config ℚ) (l : Ledger ℚ) : Prop where
  config : l.limiter.config = c
  tokens_nonneg : 0 ≤ l.limiter.tokens
  tokens_le : l.limiter.tokens ≤ c.burst.toNat
  refilledAt_le : l.limiter.refilledAt ≤ l.now
  le_now : ∀ x ∈ l.answers, x.1 ≤ l.now
  le_refilledAt : ∀ x ∈ l.answers, x.2.isIdle = false → x.1 ≤ l.limiter.refilledAt

namespace Sound

theorem capacity_eq (h : Sound c l) : l.limiter.capacity = c.burst.toNat := by
  rw [capacity, h.config, Scalar.ofNat_eq_cast]

theorem blank (c : Config ℚ) (now : Instant) : Sound c (blank c now) where
  config := rfl
  tokens_nonneg := Nat.cast_nonneg _
  tokens_le := le_refl _
  refilledAt_le := Nat.le_refl _
  le_now := by simp [Ledger.blank]
  le_refilledAt := by simp [Ledger.blank]

/-- Whatever touches the bucket brings it up to date. -/
theorem touch (h : Sound c l) {xs : List (Instant × Answer ℚ)}
    (hconfig : l'.limiter.config = c) (hnonneg : 0 ≤ l'.limiter.tokens)
    (hle : l'.limiter.tokens ≤ c.burst.toNat) (hrefilled : l'.limiter.refilledAt = l.now)
    (hnow : l'.now = l.now) (hanswers : l'.answers = l.answers ++ xs)
    (hxs : ∀ x ∈ xs, x.1 = l.now) : Sound c l' where
  config := hconfig
  tokens_nonneg := hnonneg
  tokens_le := hle
  refilledAt_le := hrefilled ▸ hnow.ge
  le_now x hx := by
    rcases List.mem_append.mp (hanswers ▸ hx) with hx | hx
    · exact hnow ▸ h.le_now x hx
    · exact hnow ▸ (hxs x hx).le
  le_refilledAt x hx _ := by
    rcases List.mem_append.mp (hanswers ▸ hx) with hx | hx
    · exact hrefilled ▸ h.le_now x hx
    · exact hrefilled ▸ (hxs x hx).le

/-- Every act keeps the bucket within its bounds. -/
theorem effect (h : Sound c l) (heffect : Effect l l') : Sound c l' := by
  have hlevel : (l.limiter.refill l.now).tokens ≤ c.burst.toNat :=
    h.capacity_eq ▸ tokens_refill_le_capacity l.limiter l.now
  have hnonneg : 0 ≤ (l.limiter.refill l.now).tokens := tokens_refill_nonneg h.tokens_nonneg
  cases heffect with
  | idle bucket now answers =>
    obtain ⟨xs, hxs, hidle⟩ := answers
    exact
      { config := bucket.config.trans h.config
        tokens_nonneg := bucket.tokens ▸ h.tokens_nonneg
        tokens_le := bucket.tokens ▸ h.tokens_le
        refilledAt_le := bucket.refilledAt ▸ h.refilledAt_le.trans now
        le_now := fun x hx => by
          rcases List.mem_append.mp (hxs ▸ hx) with hx | hx
          · exact (h.le_now x hx).trans now
          · exact (hidle x hx).1 ▸ now
        le_refilledAt := fun x hx hx' => by
          rcases List.mem_append.mp (hxs ▸ hx) with hx | hx
          · exact bucket.refilledAt ▸ h.le_refilledAt x hx hx'
          · rw [(hidle x hx).2] at hx'
            cases hx' }
  | refill bucket now answers =>
    obtain ⟨xs, hxs, hidle⟩ := answers
    exact h.touch (bucket.config.trans h.config) (bucket.tokens ▸ hnonneg)
      (bucket.tokens ▸ hlevel) bucket.refilledAt now hxs fun x hx => (hidle x hx).1
  | grant n holds bucket now answers =>
    refine h.touch (bucket.config.trans h.config) ?_ ?_ bucket.refilledAt now answers (by simp)
    · rw [bucket.tokens, tokens_spend]
      exact le_max_right ..
    · rw [bucket.tokens, tokens_spend]
      have hn : (0 : ℚ) ≤ n.toNat := Nat.cast_nonneg _
      exact max_le (by linarith) (Nat.cast_nonneg _)
  | fill bucket now answers =>
    have htokens : l'.limiter.tokens = c.burst.toNat := bucket.tokens.trans h.capacity_eq
    exact h.touch (bucket.config.trans h.config) (htokens ▸ Nat.cast_nonneg _) htokens.le
      bucket.refilledAt now answers (by simp)

theorem run (h : Sound c l) (acts : List Act) : Sound c (l.run acts) :=
  run_induction (fun l a h => h.effect (l.effect_step a)) h acts

end Sound

/-! ## The potential -/

/-- What accrues over a span of time. -/
def accrual (c : Config ℚ) (nanos : Nat) : ℚ := nanos / nanosPerSecond * max c.rate 0

theorem accrual_nonneg (c : Config ℚ) (nanos : Nat) : 0 ≤ accrual c nanos := by
  have hrate : 0 ≤ max c.rate 0 := le_max_right ..
  unfold accrual
  positivity

theorem accrual_add (c : Config ℚ) (m n : Nat) : accrual c (m + n) = accrual c m + accrual c n := by
  simp only [accrual, Nat.cast_add]
  ring

theorem accrual_mono (c : Config ℚ) {m n : Nat} (h : m ≤ n) : accrual c m ≤ accrual c n := by
  obtain ⟨k, rfl⟩ := Nat.exists_eq_add_of_le h
  rw [accrual_add]
  linarith [accrual_nonneg c k]

/-- What was granted since a point of time and what is in the bucket are covered by a full
bucket and by what accrued since. -/
def Covered (c : Config ℚ) (s : Instant) (l : Ledger ℚ) : Prop :=
  s ≤ l.limiter.refilledAt →
    excess c.burst.toNat (l.since s) + l.limiter.tokens ≤
      c.burst.toNat + accrual c (l.limiter.refilledAt - s)

/-- Nothing counts that happened before the bucket was last brought up to date. -/
theorem Sound.excess_since_eq_zero (h : Sound c l) (hs : l.limiter.refilledAt < s) :
    excess c.burst.toNat (l.since s) = 0 := by
  refine excess_of_idle fun x hx => ?_
  obtain ⟨hmem, hle⟩ := List.mem_filter.mp hx
  by_contra hidle
  have hrefilled := h.le_refilledAt x hmem (Bool.eq_false_iff.mpr hidle)
  exact hs.not_ge ((of_decide_eq_true hle).trans hrefilled)

theorem since_append {xs : List (Instant × Answer ℚ)} (h : l'.answers = l.answers ++ xs) :
    l'.since s = l.since s ++ xs.filter fun x => s ≤ x.1 := by
  rw [since, h, List.filter_append, since]

/-- Bringing the bucket up to date keeps the cover. -/
theorem Covered.refill (h : Sound c l) (hcovered : Covered c s l) :
    excess c.burst.toNat (l.since s) + (l.limiter.refill l.now).tokens ≤
      c.burst.toNat + accrual c (l.now - s) := by
  by_cases hle : s ≤ l.limiter.refilledAt
  · have hsplit : l.now - s = (l.now - l.limiter.refilledAt) + (l.limiter.refilledAt - s) :=
      (Nat.sub_add_sub_cancel h.refilledAt_le hle).symm
    have hcover := hcovered hle
    have hlevel := tokens_refill_le l.limiter l.now
    rw [h.config] at hlevel
    rw [hsplit, accrual_add]
    simp only [accrual] at hcover ⊢
    linarith
  -- The bucket was last touched before: it can only be full.
  · rw [h.excess_since_eq_zero (Nat.lt_of_not_le hle)]
    have hlevel := tokens_refill_le_capacity l.limiter l.now
    rw [h.capacity_eq] at hlevel
    linarith [accrual_nonneg c (l.now - s)]

/-- Every act keeps the cover. -/
theorem Covered.effect (h : Sound c l) (hcovered : Covered c s l) (heffect : Effect l l') :
    Covered c s l' := by
  intro hs
  cases heffect with
  | idle bucket now answers =>
    obtain ⟨xs, hxs, hidle⟩ := answers
    have hzero : excess c.burst.toNat (xs.filter fun x => s ≤ x.1) = 0 :=
      excess_of_idle fun x hx => (hidle x (List.mem_of_mem_filter hx)).2
    rw [bucket.refilledAt] at hs
    rw [since_append hxs, excess_append, hzero, bucket.tokens, bucket.refilledAt, add_zero]
    exact hcovered hs
  | refill bucket now answers =>
    obtain ⟨xs, hxs, hidle⟩ := answers
    have hzero : excess c.burst.toNat (xs.filter fun x => s ≤ x.1) = 0 :=
      excess_of_idle fun x hx => (hidle x (List.mem_of_mem_filter hx)).2
    rw [bucket.refilledAt] at hs
    rw [since_append hxs, excess_append, hzero, bucket.tokens, bucket.refilledAt, add_zero]
    exact hcovered.refill h
  | grant n holds bucket now answers =>
    rw [bucket.refilledAt] at hs
    have hcover := hcovered.refill h
    have hspend := tokens_spend_add_le holds
    have hs' : s ≤ l.now := hs
    rw [since_append answers, bucket.tokens, bucket.refilledAt, excess_append,
      List.filter_cons_of_pos (by simpa using hs'), List.filter_nil, excess_granted]
    show _ ≤ _ + accrual c (l.now - s)
    linarith
  | fill bucket now answers =>
    rw [bucket.refilledAt] at hs
    have hcover := hcovered.refill h
    have hnonneg : 0 ≤ (l.limiter.refill l.now).tokens := tokens_refill_nonneg h.tokens_nonneg
    have hs' : s ≤ l.now := hs
    rw [since_append answers, bucket.tokens, bucket.refilledAt, excess_append,
      List.filter_cons_of_pos (by simpa using hs'), List.filter_nil, excess_filled]
    show _ + l.limiter.capacity ≤ _ + accrual c (l.now - s)
    rw [h.capacity_eq]
    linarith

/-! ## Windows -/

theorem during_eq_since (h : ∀ x ∈ l.answers, x.1 ≤ e) : l.during s e = l.since s := by
  refine List.filter_congr fun x hx => ?_
  simp [h x hx]

/-- Within a window of time no more is granted than a full bucket and what accrues. -/
def Bounded (c : Config ℚ) (s e : Instant) (l : Ledger ℚ) : Prop :=
  excess c.burst.toNat (l.during s e) ≤ c.burst.toNat + accrual c (e - s)

/-- While the window lasts, the bound follows from the cover. -/
theorem Covered.bounded (h : Sound c l) (hcovered : Covered c s l)
    (hanswers : ∀ x ∈ l.answers, x.1 ≤ e) (he : l.limiter.refilledAt ≤ e) : Bounded c s e l := by
  unfold Bounded
  rw [during_eq_since hanswers]
  have hburst : (0 : ℚ) ≤ c.burst.toNat := Nat.cast_nonneg _
  by_cases hs : s ≤ l.limiter.refilledAt
  · have hcover := hcovered hs
    have hmono := accrual_mono c (Nat.sub_le_sub_right he s)
    linarith [h.tokens_nonneg]
  · rw [h.excess_since_eq_zero (Nat.lt_of_not_le hs)]
    linarith [accrual_nonneg c (e - s)]

/-- What an act is answered is answered at once. -/
theorem Effect.exists_answers (h : Effect l l') :
    ∃ xs, l'.answers = l.answers ++ xs ∧ ∀ x ∈ xs, x.1 = l.now := by
  cases h with
  | idle _ _ answers | refill _ _ answers =>
    obtain ⟨xs, hxs, hidle⟩ := answers
    exact ⟨xs, hxs, fun x hx => (hidle x hx).1⟩
  | grant n _ _ _ answers => exact ⟨_, answers, by simp⟩
  | fill _ _ answers => exact ⟨_, answers, by simp⟩

theorem Effect.refilledAt_le (h : Sound c l) (heffect : Effect l l') :
    l'.limiter.refilledAt ≤ l.now := by
  cases heffect with
  | idle bucket => exact bucket.refilledAt ▸ h.refilledAt_le
  | refill bucket | grant _ _ bucket | fill bucket => exact bucket.refilledAt.le

/-- Every act keeps the bound, also after the end of the window. -/
theorem Bounded.effect (h : Sound c l) (hcovered : Covered c s l) (hbounded : Bounded c s e l)
    (heffect : Effect l l') : Bounded c s e l' := by
  obtain ⟨xs, hxs, hnow⟩ := heffect.exists_answers
  by_cases he : l.now ≤ e
  · refine (hcovered.effect h heffect).bounded (h.effect heffect) (fun x hx => ?_)
      ((heffect.refilledAt_le h).trans he)
    rcases List.mem_append.mp (hxs ▸ hx) with hx | hx
    · exact (h.le_now x hx).trans he
    · exact (hnow x hx).le.trans he
  · have hnone : xs.filter (fun x => s ≤ x.1 ∧ x.1 ≤ e) = [] :=
      List.filter_eq_nil_iff.mpr fun x hx => by simp [hnow x hx, he]
    unfold Bounded at *
    rwa [during, hxs, List.filter_append, hnone, List.append_nil]

theorem bounded_run (c : Config ℚ) (start : Instant) (acts : List Act) (s e : Instant) :
    Bounded c s e ((blank c start).run acts) := by
  have hall : ∀ l, Sound c l ∧ Covered c s l ∧ Bounded c s e l → ∀ a,
      Sound c (l.step a) ∧ Covered c s (l.step a) ∧ Bounded c s e (l.step a) := by
    rintro l ⟨h, hcovered, hbounded⟩ a
    have heffect := l.effect_step a
    exact ⟨h.effect heffect, hcovered.effect h heffect, hbounded.effect h hcovered heffect⟩
  have hblank : Bounded c s e (blank c start) := by
    have hburst : (0 : ℚ) ≤ c.burst.toNat := Nat.cast_nonneg _
    have hzero : excess c.burst.toNat ((blank c start).during s e) = 0 :=
      excess_of_idle (by simp [during, blank])
    unfold Bounded
    rw [hzero]
    linarith [accrual_nonneg c (e - s)]
  have hcovered : Covered c s (blank c start) := fun _ => by
    have hzero : excess c.burst.toNat ((blank c start).since s) = 0 :=
      excess_of_idle (by simp [since, blank])
    have hfull : (blank c start).limiter.tokens = c.burst.toNat := rfl
    rw [hzero, hfull]
    linarith [accrual_nonneg c ((blank c start).limiter.refilledAt - s)]
  exact (run_induction (P := fun l => Sound c l ∧ Covered c s l ∧ Bounded c s e l)
    (fun l a h => hall l h a) ⟨.blank c start, hcovered, hblank⟩ acts).2.2

/-- **How much a limiter grants.** Whatever is done with a limiter, between two points of time
it grants no more than a full bucket, a full bucket for each reset, what accrues between them,
and a billionth of a token for each grant. -/
theorem amount_during_le (c : Config ℚ) (start : Instant) (acts : List Act) (s e : Instant) :
    (amount (((blank c start).run acts).during s e) : ℚ) ≤
      c.burst.toNat * (1 + resets (((blank c start).run acts).during s e)) +
        max c.rate 0 * ((e - s : ℕ) / nanosPerSecond) +
        1 / nanosPerSecond * grants (((blank c start).run acts).during s e) := by
  have h := bounded_run c start acts s e
  simp only [Bounded, excess, accrual, tolerance_eq] at h
  linarith

end Ledger

end Safeguard.RateLimiter
