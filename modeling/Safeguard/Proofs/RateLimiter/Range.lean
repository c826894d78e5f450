import Safeguard.Proofs.Binary64.Numbers
import Safeguard.Proofs.RateLimiter.Runs

/-!
# The range of a bucket of floating-point tokens

A limiter may be configured with any floating-point rate. What accrues is a span of time times
that rate, so it may be infinite or, for no time at an infinite rate, no number at all. The
bucket takes the smaller of what is there then and its size, and the larger of what remains
after a request and zero, and both prefer a number that denotes something. Hence the bucket
always holds a number of tokens between none and its size, and it can never give more than its
size, not even with the tolerance.

## Main definitions

* `RateLimiter.Holdable`: a number of tokens that a bucket can hold.
* `RateLimiter.Filled`: a limiter whose bucket holds such a number.

## Main results

* `RateLimiter.Filled.holds_eq_false`: no bucket holds more than its size.
* `RateLimiter.Ledger.tokens_in_range`: buckets of every run.
-/

namespace Safeguard.RateLimiter

open Binary64

/-- A number of tokens that a bucket of that size can hold. -/
structure Holdable (burst : UInt32) (tokens : Float) : Prop where
  defined : Scalar.isUndefined tokens = false
  nonneg : Scalar.le Scalar.zero tokens = true
  le_burst : Scalar.le tokens (Scalar.ofNat burst.toNat) = true

/-! ## Counts of tokens -/

theorem toNat_lt_two_pow (n : UInt32) : n.toNat < 2 ^ 53 :=
  n.toNat_lt.trans (by norm_num)

theorem denotes_count (n : UInt32) : Denotes (Scalar.ofNat n.toNat) :=
  (value_ofNat (toNat_lt_two_pow n)).1

theorem value_count (n : UInt32) :
    value (Scalar.ofNat n.toNat) = (magnitude n.toNat 0 : EReal) :=
  (value_ofNat (toNat_lt_two_pow n)).2

theorem value_count_nonneg (n : UInt32) : 0 ≤ value (Scalar.ofNat n.toNat) :=
  value_ofNat_nonneg n.toNat

/-- What it takes to be holdable, in terms of what the number denotes. -/
theorem holdable_iff {burst : UInt32} {tokens : Float} :
    Holdable burst tokens ↔
      Denotes tokens ∧ 0 ≤ value tokens ∧ value tokens ≤ (magnitude burst.toNat 0 : EReal) := by
  constructor
  · rintro ⟨-, hnonneg, hle⟩
    obtain ⟨-, hdenotes, hnonneg⟩ := scalar_le_iff.mp hnonneg
    obtain ⟨-, -, hle⟩ := scalar_le_iff.mp hle
    exact ⟨hdenotes, value_zero ▸ hnonneg, value_count burst ▸ hle⟩
  · rintro ⟨hdenotes, hnonneg, hle⟩
    refine ⟨?_, ?_, ?_⟩
    · rw [← Bool.not_eq_true, isUndefined_iff, not_not]
      exact hdenotes
    · exact scalar_le_iff.mpr ⟨denotes_zero, hdenotes, value_zero ▸ hnonneg⟩
    · exact scalar_le_iff.mpr ⟨hdenotes, denotes_count burst, value_count burst ▸ hle⟩

theorem holdable_burst (burst : UInt32) : Holdable burst (Scalar.ofNat burst.toNat) :=
  holdable_iff.mpr
    ⟨denotes_count burst, value_count_nonneg burst, (value_count burst).le⟩

theorem holdable_zero (burst : UInt32) : Holdable burst Scalar.zero :=
  holdable_iff.mpr ⟨denotes_zero, value_zero.ge,
    value_zero ▸ EReal.coe_nonneg.mpr (magnitude_nonneg _ _)⟩

/-- No span of time is negative. -/
theorem value_seconds_nonneg (nanos : Nat) : 0 ≤ value (Scalar.seconds nanos) := by
  refine value_add_nonneg (value_ofNat_nonneg _) (value_div_nonneg (value_ofNat_nonneg _) ?_)
  rw [Scalar.ofNat, instScalarFloat, (value_ofNat (by norm_num)).2]
  exact EReal.coe_pos.mpr (magnitude_pos (by norm_num))

/-- The larger of any number and zero is not below zero, even if the number denotes nothing. -/
theorem value_max_zero_nonneg (x : Float) : 0 ≤ value (Scalar.max x Scalar.zero) := by
  obtain h | ⟨h, -, hle⟩ := max_cases (x := x) denotes_zero
  · rw [h, value_zero]
  · rw [h, ← value_zero]
    exact hle

/-- The tolerance is a number between none and half a token. -/
theorem value_tolerance : 0 ≤ value tolerance ∧ value tolerance ≤ (magnitude 1 (-1) : EReal) := by
  have hunpack : (tolerance : Float).toModel.unpack =
      .finite .positive 4835703278458517 (-82) (by norm_num) := rfl
  have hvalue : value tolerance = (magnitude 4835703278458517 (-82) : EReal) :=
    congrArg reading hunpack
  have hhalf : magnitude (1 * 2 ^ 81) (-82) = magnitude 1 (-1) := magnitude_mul_two_pow 1 (-82) 81
  rw [hvalue, ← hhalf, EReal.coe_le_coe_iff, magnitude_le_magnitude]
  exact ⟨EReal.coe_nonneg.mpr (magnitude_nonneg _ _), by norm_num⟩

/-! ## What operations do to the range -/

/-- The bucket holds a number of tokens that it can hold. -/
def Filled (l : RateLimiter Float) : Prop := Holdable l.config.burst l.tokens

namespace Filled

variable {l l' : RateLimiter Float} {n : UInt32} {now : Instant}

theorem new (c : Config Float) (now : Instant) : Filled (.new c now) := holdable_burst c.burst

theorem sameBucket (h : Filled l) (hsame : l.SameBucket l') : Filled l' := by
  unfold Filled at *
  rwa [hsame.config, hsame.tokens]

/-- Refilling needs only that the bucket was not below zero. -/
theorem refill (h : Filled l) (now : Instant) : Filled (l.refill now) := by
  obtain ⟨-, hnonneg, -⟩ := holdable_iff.mp h
  have haccrued : 0 ≤ value (l.tokens +
      Scalar.seconds (now - l.refilledAt) * Scalar.max l.config.rate Scalar.zero) :=
    value_add_nonneg hnonneg
      (value_mul_nonneg (value_seconds_nonneg _) (value_max_zero_nonneg _))
  unfold Filled RateLimiter.refill
  dsimp only
  obtain hmin | ⟨hmin, hdenotes, hle⟩ := min_cases (denotes_count l.config.burst)
  · rw [capacity, hmin]
    exact holdable_burst _
  · rw [capacity, hmin]
    exact holdable_iff.mpr ⟨hdenotes, haccrued, value_count _ ▸ hle⟩

theorem spend (h : Filled l) (n : UInt32) : Filled (l.spend n) := by
  obtain ⟨-, hnonneg, hle⟩ := holdable_iff.mp h
  have hdifference : value (l.tokens - Scalar.ofNat n.toNat) ≤
      (magnitude l.config.burst.toNat 0 : EReal) :=
    value_sub_le (toNat_lt_two_pow _) (by norm_num) (magnitude_zero_lt (toNat_lt_two_pow _))
      hnonneg (value_count_nonneg n) hle
  unfold Filled RateLimiter.spend
  dsimp only
  obtain hmax | ⟨hmax, hdenotes, hzero⟩ := max_cases denotes_zero
  · rw [hmax]
    exact holdable_zero _
  · rw [hmax]
    exact holdable_iff.mpr ⟨hdenotes, value_zero ▸ hzero, hdifference⟩

theorem reset (l : RateLimiter Float) (now : Instant) : Filled (l.reset now) :=
  holdable_burst l.config.burst

/-- No bucket holds more than its size: the tolerance is too small to make up for a token, and
the sum is not rounded past the half between. -/
theorem holds_eq_false (h : Filled l) (hn : l.config.burst < n) : l.holds n = false := by
  obtain ⟨-, hnonneg, hle⟩ := holdable_iff.mp h
  obtain ⟨htol, htol'⟩ := value_tolerance
  have hlt : l.config.burst.toNat < n.toNat := UInt32.lt_iff_toNat_lt.mp hn
  have hburst := l.config.burst.toNat_lt
  -- Twice the size and one more, in units of half a token.
  have hhalf : magnitude l.config.burst.toNat 0 + magnitude 1 (-1) =
      magnitude (l.config.burst.toNat * 2 ^ 1 + 1) (-1) := by
    rw [show (0 : ℤ) = -1 + (1 : ℕ) from rfl, ← magnitude_mul_two_pow]
    simp only [magnitude, Nat.cast_add]
    exact (add_mul ..).symm
  have hcount : magnitude (n.toNat * 2 ^ 1) (-1) = magnitude n.toNat 0 :=
    magnitude_mul_two_pow n.toNat (-1) 1
  have hsum : value (l.tokens + tolerance) ≤
      (magnitude (l.config.burst.toNat * 2 ^ 1 + 1) (-1) : EReal) := by
    refine value_add_le (by omega) (by norm_num) ?_ hnonneg htol ?_
    · calc magnitude (l.config.burst.toNat * 2 ^ 1 + 1) (-1)
          ≤ magnitude (n.toNat * 2 ^ 1) (-1) := (magnitude_le_magnitude _).mpr (by omega)
        _ = magnitude n.toNat 0 := hcount
        _ < magnitude (2 ^ 52) 972 := magnitude_zero_lt (toNat_lt_two_pow n)
    · rw [← hhalf, EReal.coe_add]
      exact add_le_add hle htol'
  rw [← Bool.not_eq_true]
  intro hholds
  obtain ⟨-, -, hcontra⟩ := scalar_le_iff.mp hholds
  have hcontra := hcontra.trans hsum
  rw [value_count, ← hcount, EReal.coe_le_coe_iff, magnitude_le_magnitude] at hcontra
  omega

theorem allow_eq_false (h : Filled l) (hn : l.config.burst < n) (now : Instant) :
    (l.allow n now).2 = false := by
  obtain ⟨hholds, -⟩ | ⟨-, hallow⟩ := l.allow_cases n now
  · rw [(h.refill now).holds_eq_false hn] at hholds
    cases hholds
  · rw [hallow]

end Filled

/-! ## Runs -/

namespace Ledger

variable {c : Config Float} {l l' : Ledger Float}

/-- Every act keeps the configuration and the range. -/
theorem Effect.filled (heffect : Effect l l') (h : Filled l.limiter) :
    l'.limiter.config = l.limiter.config ∧ Filled l'.limiter := by
  cases heffect with
  | idle bucket => exact ⟨bucket.config, h.sameBucket bucket⟩
  | refill bucket => exact ⟨bucket.config, (h.refill _).sameBucket bucket⟩
  | grant n holds bucket => exact ⟨bucket.config, ((h.refill _).spend n).sameBucket bucket⟩
  | fill bucket => exact ⟨bucket.config, (Filled.reset _ _).sameBucket bucket⟩

theorem filled_run (c : Config Float) (start : Instant) (acts : List Act) :
    ((blank c start).run acts).limiter.config = c ∧
      Filled ((blank c start).run acts).limiter := by
  refine run_induction (P := fun l => l.limiter.config = c ∧ Filled l.limiter) ?_ ?_ acts
  · rintro l a ⟨hconfig, hfilled⟩
    obtain ⟨hconfig', hfilled'⟩ := (l.effect_step a).filled hfilled
    exact ⟨hconfig'.trans hconfig, hfilled'⟩
  · exact ⟨rfl, Filled.new c start⟩

/-- **The range of a bucket.** With any configuration and after any acts, the bucket holds a
number of tokens between none and its size, and so does whatever is told about it. Therefore it
grants no request for more than its size, and the requests that are refused at once because
they ask for too much would not be granted later either, whatever happened in between. -/
theorem tokens_in_range (c : Config Float) (start : Instant) (acts : List Act) :
    Holdable c.burst ((blank c start).run acts).limiter.tokens ∧
      (∀ now, Holdable c.burst (((blank c start).run acts).limiter.level now).2 ∧
        Holdable c.burst (((blank c start).run acts).limiter.metrics now).2.tokens) ∧
      (∀ n now, c.burst < n → (((blank c start).run acts).limiter.allow n now).2 = false) ∧
      ∀ n now, (((blank c start).run acts).limiter.beginWait n now).2 = .refused →
        ∀ acts' now',
          (((blank c start).run (acts ++ acts')).limiter.allow n now').2 = false := by
  obtain ⟨hconfig, hfilled⟩ := filled_run c start acts
  have hburst : ((blank c start).run acts).limiter.config.burst = c.burst :=
    congrArg Config.burst hconfig
  have hlevel (now : Instant) :
      Holdable c.burst (((blank c start).run acts).limiter.refill now).tokens :=
    hburst ▸ hfilled.refill now
  refine ⟨hburst ▸ hfilled, fun now => ⟨hlevel now, hlevel now⟩, ?_, ?_⟩
  · intro n now hn
    exact hfilled.allow_eq_false (hburst.symm ▸ hn) now
  · intro n now hrefused acts' now'
    -- Only the size of the bucket makes a request that can wait be refused at its start.
    have hn : c.burst < n := by
      obtain ⟨hn, -⟩ | ⟨limiter, -, h⟩ | ⟨delay, h⟩ :=
        ((blank c start).run acts).limiter.beginWait_cases n now
      · exact hburst ▸ hn
      · rw [h] at hrefused
        cases hrefused
      · rw [h] at hrefused
        cases hrefused
    obtain ⟨hconfig', hfilled'⟩ := filled_run c start (acts ++ acts')
    exact hfilled'.allow_eq_false (hconfig'.symm ▸ hn) now'

/-- A limiter of three tokens with an infinite rate: for no time at all no number accrues. -/
def unbounded : Config Float := ⟨Float.ofBits 0x7FF0000000000000, 3, true, .ofSeconds 1⟩

theorem tokens_in_range_unbounded :
    Holdable 3 ((blank unbounded 0).run [.ask 2, .look, .advance 5, .ask 3]).limiter.tokens ∧
      (unbounded.burst < 4 ∧ (((blank unbounded 0).run [.ask 2]).limiter.allow 4 7).2 = false) ∧
      (((blank unbounded 0).run [.ask 2, .look]).limiter.beginWait 4 0).2 = .refused ∧
      (((blank unbounded 0).run [.ask 2, .look, .advance 5, .ask 3]).limiter.allow 4 7).2 =
        false :=
  ⟨(tokens_in_range unbounded 0 [.ask 2, .look, .advance 5, .ask 3]).1,
    ⟨by decide, (tokens_in_range unbounded 0 [.ask 2]).2.2.1 4 7 (by decide)⟩,
    by decide +kernel,
    (tokens_in_range unbounded 0 [.ask 2, .look]).2.2.2 4 0 (by decide +kernel)
      [.advance 5, .ask 3] 7⟩

end Ledger

end Safeguard.RateLimiter
