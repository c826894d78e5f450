import Safeguard.RateLimiter.Basic

/-!
# What each operation does to a limiter

Every access to a limiter refills its bucket first; a request that is granted then spends, and
a reset fills up. This file says, once for each operation, what it does to the bucket and what
it answers. The counters of granted and refused requests are beside the point here, so two
limiters are compared by their buckets.

## Main definitions

* `RateLimiter.SameBucket`: two limiters that differ in their counters at most.

## Main results

* `RateLimiter.allow_cases`: a request that does not wait.
* `RateLimiter.beginWait_cases`, `RateLimiter.beginWait_pending`: the start of one that does.
-/

namespace Safeguard.RateLimiter

variable {R : Type} [Scalar R] {l l' l'' : RateLimiter R} {n : UInt32} {now : Instant}
  {granted : Bool} {delay : Duration}

/-- Two limiters that differ in their counters at most. -/
structure SameBucket (l l' : RateLimiter R) : Prop where
  config : l'.config = l.config
  tokens : l'.tokens = l.tokens
  refilledAt : l'.refilledAt = l.refilledAt

namespace SameBucket

omit [Scalar R] in
theorem refl (l : RateLimiter R) : SameBucket l l := ⟨rfl, rfl, rfl⟩

omit [Scalar R] in
theorem record (l : RateLimiter R) (granted : Bool) : SameBucket l (l.record granted) := by
  cases granted <;> exact ⟨rfl, rfl, rfl⟩

end SameBucket

@[simp] theorem config_refill : (l.refill now).config = l.config := rfl

@[simp] theorem refilledAt_refill : (l.refill now).refilledAt = now := rfl

@[simp] theorem admitted_refill : (l.refill now).admitted = l.admitted := rfl

@[simp] theorem rejected_refill : (l.refill now).rejected = l.rejected := rfl

@[simp] theorem config_spend : (l.spend n).config = l.config := rfl

@[simp] theorem refilledAt_spend : (l.spend n).refilledAt = l.refilledAt := rfl

/-- A request takes its tokens if they are there after a refill, and none otherwise. -/
theorem allow_cases (l : RateLimiter R) (n : UInt32) (now : Instant) :
    ((l.refill now).holds n = true ∧
        l.allow n now = (((l.refill now).spend n).record true, true)) ∨
      (l.refill now).holds n = false ∧ l.allow n now = ((l.refill now).record false, false) := by
  unfold allow
  cases h : (l.refill now).holds n with
  | true => exact .inl ⟨rfl, if_pos h⟩
  | false => exact .inr ⟨rfl, if_neg (Bool.eq_false_iff.mp h)⟩

/-- All that can come of starting to wait. -/
theorem beginWait_cases (l : RateLimiter R) (n : UInt32) (now : Instant) :
    (l.config.burst < n ∧ l.beginWait n now = (l.record false, .refused)) ∨
      (∃ l', l.allow n now = (l', true) ∧ l.beginWait n now = (l', .granted)) ∨
      ∃ delay, l.beginWait n now = (l.refill now, .pending delay) := by
  unfold beginWait allow
  by_cases hburst : l.config.burst < n
  · exact .inl ⟨hburst, if_pos hburst⟩
  · rw [if_neg hburst]
    dsimp only
    by_cases hholds : (l.refill now).holds n = true
    · exact .inr (.inl ⟨_, if_pos hholds, if_pos hholds⟩)
    · exact .inr (.inr ⟨_, if_neg hholds⟩)

/-- A request waits if the bucket can hold that many tokens, but does not. -/
theorem beginWait_pending (h : (l.beginWait n now).2 = .pending delay) :
    ¬l.config.burst < n ∧ (l.refill now).holds n = false ∧
      (l.beginWait n now).1 = l.refill now ∧
      delay = waitFor l.config (Scalar.ofNat n.toNat - (l.refill now).tokens) := by
  unfold beginWait at h ⊢
  by_cases hburst : l.config.burst < n
  · rw [if_pos hburst] at h
    cases h
  · rw [if_neg hburst] at h ⊢
    dsimp only at h ⊢
    by_cases hholds : (l.refill now).holds n = true
    · rw [if_pos hholds] at h
      cases h
    · rw [if_neg hholds] at h ⊢
      cases h
      exact ⟨hburst, Bool.eq_false_iff.mpr hholds, rfl, rfl⟩

/-- Nobody is told to sleep for longer than the longest wait. -/
theorem waitFor_le_maxWait (c : Config R) (shortfall : R) : waitFor c shortfall ≤ c.maxWait := by
  unfold waitFor
  split
  · exact Nat.le_refl _
  · rw [Duration.le_def, Duration.nanos_min]
    exact Nat.min_le_right ..

end Safeguard.RateLimiter
