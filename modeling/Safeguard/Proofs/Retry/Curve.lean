import Safeguard.Proofs.Scalar
import Safeguard.Retry.Config

/-!
# The curve of delays

The delays between attempts follow a curve that never falls: a multiple of the first delay by a
power of the factor, by the number of the attempt, or by one. The cap cuts the curve off, and what
is below is rounded to a whole nanosecond. Rounding keeps the order and leaves the first and the
longest delay as they are, so that every delay lies between these two and none is shorter than the
one before. A random part adds a quarter of the delay at most.

All this is read over exact numbers.

## Main definitions

* `Retry.Config.uncapped`: the curve in nanoseconds, before it is cut off.

## Main results

* `Retry.Config.nanos_baseDelay`: a delay is the curve, rounded and cut off.
* `Retry.Config.delays_on_curve`: order and bounds of all delays.
-/

namespace Safeguard

/-- A count and a quarter of it, rounded together or one by one: a tie is left only by an even
count. -/
theorem roundHalfEven_add_quarter (n : ℕ) :
    roundHalfEven (n * (5 / 4)) = n + roundHalfEven (n / 4) := by
  have hsplit : (n : ℚ) * (5 / 4) = (n : ℤ) + n / 4 := by
    push_cast
    ring
  rw [hsplit]
  apply roundHalfEven_intCast_add
  by_contra! h
  obtain ⟨hodd, htie⟩ := h
  have hcount : (n : ℤ) = 4 * (n / 4 : ℚ).floor + 2 := by
    have hfloor : (n : ℚ) = 4 * (n / 4 : ℚ).floor + 2 := by linarith
    exact_mod_cast hfloor
  omega

theorem Duration.le_iff_cast_le {d e : Duration} : d ≤ e ↔ (d.nanos : ℤ) ≤ e.nanos :=
  Nat.cast_le.symm

namespace Retry.Config

variable {c : Config ℚ} {a b : ℕ} {draw : ℚ}

/-- A configuration is usable if delays never shrink, and the first one is not above the cap. -/
theorem validate_eq_ok_iff :
    c.validate = .ok () ↔ 1 ≤ c.multiplier ∧ c.initialDelay ≤ c.maxDelay := by
  have hone : (Scalar.one : ℚ) = 1 := Nat.cast_one
  have hfinite : Scalar.isFinite c.multiplier = true := rfl
  have hshort : c.maxDelay < c.initialDelay ↔ ¬c.initialDelay ≤ c.maxDelay := Nat.not_le.symm
  unfold validate
  simp only [hfinite, hone, Bool.not_true, Bool.false_or, Scalar.lt_iff_lt]
  split_ifs with hsmall horder
  · exact iff_of_false not_false fun h => absurd hsmall (not_lt.mpr h.1)
  · exact iff_of_false not_false fun h => hshort.mp horder h.2
  · exact iff_of_true rfl ⟨not_lt.mp hsmall, not_not.mp (mt hshort.mpr horder)⟩

/-! ## The curve before the cap -/

/-- The delay after an attempt in nanoseconds, before it is rounded and cut off. -/
def uncapped (c : Config ℚ) (attempt : ℕ) : ℚ :=
  match c.backoff with
  | .exponential => c.initialDelay.nanos * c.multiplier ^ min (attempt - 1) largestPower
  | .linear => c.initialDelay.nanos * attempt
  | .constant => c.initialDelay.nanos

theorem growth_eq_div (c : Config ℚ) (attempt : ℕ) :
    c.growth attempt = c.uncapped attempt / nanosPerSecond := by
  unfold growth uncapped
  cases c.backoff with
  | exponential => simp only [Scalar.seconds_eq_div, Scalar.power_eq_pow, div_mul_eq_mul_div]
  | linear => simp only [Scalar.seconds_eq_div, Scalar.ofNat_eq_cast, div_mul_eq_mul_div]
  | constant => simp only [Scalar.seconds_eq_div]

/-- The curve starts with the first delay. -/
theorem uncapped_one (c : Config ℚ) : c.uncapped 1 = c.initialDelay.nanos := by
  unfold uncapped
  cases c.backoff with
  | exponential => rw [Nat.sub_self, Nat.zero_min, pow_zero, mul_one]
  | linear => rw [Nat.cast_one, mul_one]
  | constant => rfl

/-- The curve never falls. -/
theorem uncapped_mono (h : 1 ≤ c.multiplier) : Monotone c.uncapped := by
  intro a b hab
  unfold uncapped
  have hinitial : (0 : ℚ) ≤ c.initialDelay.nanos := Nat.cast_nonneg _
  cases c.backoff with
  | exponential =>
    have hpower : min (a - 1) largestPower ≤ min (b - 1) largestPower :=
      min_le_min_right _ (Nat.sub_le_sub_right hab 1)
    exact mul_le_mul_of_nonneg_left (pow_le_pow_right₀ h hpower) hinitial
  | linear => exact mul_le_mul_of_nonneg_left (Nat.cast_le.mpr hab) hinitial
  | constant => exact le_rfl

theorem initialDelay_le_uncapped (h : 1 ≤ c.multiplier) (ha : 1 ≤ a) :
    (c.initialDelay.nanos : ℚ) ≤ c.uncapped a :=
  c.uncapped_one ▸ uncapped_mono h ha

/-! ## Delays on the curve -/

/-- A delay is the curve, rounded to a whole nanosecond and cut off. -/
theorem nanos_baseDelay (h : 0 ≤ c.uncapped a) :
    ((c.baseDelay a).nanos : ℤ) = min (c.maxDelay.nanos : ℤ) (roundHalfEven (c.uncapped a)) := by
  have hN : (0 : ℚ) < nanosPerSecond := by norm_num
  -- In seconds the curve is cut off before it is rounded.
  have hcapped : Scalar.max (Scalar.min (c.growth a) (Scalar.seconds c.maxDelay.nanos)) Scalar.zero
      = min (c.uncapped a) c.maxDelay.nanos / nanosPerSecond := by
    have hnonneg : 0 ≤ min (c.uncapped a) c.maxDelay.nanos / nanosPerSecond :=
      div_nonneg (le_min h (Nat.cast_nonneg _)) hN.le
    rw [Scalar.min_eq_min, Scalar.max_eq_max, Scalar.zero_eq_zero, growth_eq_div,
      Scalar.seconds_eq_div, min_div_div_right hN.le, max_eq_left hnonneg]
  have hscale : min (c.uncapped a) c.maxDelay.nanos / nanosPerSecond * nanosPerSecond =
      min (c.uncapped a) c.maxDelay.nanos := div_mul_cancel₀ _ hN.ne'
  obtain ⟨d, hd, hlimit⟩ := Duration.exists_ofSeconds?
    (x := min (c.uncapped a) c.maxDelay.nanos / nanosPerSecond) rfl
    (div_nonneg (le_min h (Nat.cast_nonneg _)) hN.le) (hscale.trans_le (min_le_right _ _))
  obtain ⟨q, hq, hnanos⟩ := Duration.nanos_eq_roundHalfEven hd
  obtain rfl := Option.some.inj hq
  have hmono : Monotone roundHalfEven := fun _ _ => roundHalfEven_mono
  have hbase : (c.baseDelay a).nanos = d.nanos := by
    unfold baseDelay
    dsimp only
    rw [hcapped, hd, Option.getD_some, Duration.nanos_min]
    exact Nat.min_eq_left hlimit
  rw [hbase, hnanos, hscale, hmono.map_min, min_comm]
  congr 1
  exact roundHalfEven_intCast c.maxDelay.nanos

/-- With a random part a delay is lengthened by a part of its quarter, up to the longest span. -/
theorem nanos_delay (hjitter : c.jitter = true) (hnonneg : 0 ≤ draw) (hle : draw ≤ 1) :
    ((c.delay a draw).nanos : ℤ) =
      min ((c.baseDelay a).nanos + roundHalfEven ((c.baseDelay a).nanos * draw / 4))
        longestNanos := by
  have hbase : (0 : ℚ) ≤ (c.baseDelay a).nanos := Nat.cast_nonneg _
  have hN : ((nanosPerSecond : ℕ) : ℚ) ≠ 0 := by norm_num
  have hextra : Scalar.seconds (c.baseDelay a).nanos * draw * jitterFraction * nanosPerSecond =
      (c.baseDelay a).nanos * draw / 4 := by
    simp only [Scalar.seconds_eq_div, jitterFraction, Scalar.ofNat_eq_cast]
    field_simp
    norm_num
  have hpart : (c.baseDelay a).nanos * draw / 4 ≤ (c.baseDelay a).nanos := by
    have hdraw := mul_le_of_le_one_right hbase hle
    linarith
  have hpart' : 0 ≤ Scalar.seconds (c.baseDelay a).nanos * draw * jitterFraction := by
    refine mul_nonneg (mul_nonneg ?_ hnonneg) ?_
    · rw [Scalar.seconds_eq_div]
      positivity
    · norm_num [jitterFraction]
  obtain ⟨d, hd, -⟩ := Duration.exists_ofSeconds?
    (x := Scalar.seconds (c.baseDelay a).nanos * draw * jitterFraction) rfl hpart'
    (hextra.trans_le hpart)
  obtain ⟨q, hq, hnanos⟩ := Duration.nanos_eq_roundHalfEven hd
  obtain rfl := Option.some.inj hq
  unfold delay
  dsimp only
  rw [if_pos hjitter, hd, Option.getD_some, Duration.nanos_add, Nat.cast_min, Nat.cast_add, hnanos,
    hextra]

theorem baseDelay_le_delay (hjitter : c.jitter = true) (hnonneg : 0 ≤ draw) (hle : draw ≤ 1) :
    c.baseDelay a ≤ c.delay a draw := by
  rw [Duration.le_iff_cast_le, nanos_delay hjitter hnonneg hle]
  apply le_min
  · apply le_add_of_nonneg_right
    apply roundHalfEven_nonneg
    positivity
  · exact Nat.cast_le.mpr (c.baseDelay a).nanos_le

/-- The random part is a quarter at most. -/
theorem nanos_delay_le (hjitter : c.jitter = true) (hnonneg : 0 ≤ draw) (hle : draw ≤ 1) :
    ((c.delay a draw).nanos : ℤ) ≤
      min (roundHalfEven ((c.baseDelay a).nanos * (5 / 4))) longestNanos := by
  have hbase : (0 : ℚ) ≤ (c.baseDelay a).nanos := Nat.cast_nonneg _
  have hpart : (c.baseDelay a).nanos * draw / 4 ≤ (c.baseDelay a).nanos / 4 := by
    have hdraw := mul_le_of_le_one_right hbase hle
    linarith
  rw [nanos_delay hjitter hnonneg hle, roundHalfEven_add_quarter]
  exact min_le_min_right _ (add_le_add_right (roundHalfEven_mono hpart) _)

/-- **The curve of delays.** Over exact numbers and with a usable configuration, the delays start
with the first one, never fall, and stay between the first and the longest one; each of them is
the curve, rounded to a nanosecond and cut off at the longest delay. A random part lengthens a
delay by no more than a quarter, rounded to a nanosecond, and not beyond the longest span. -/
theorem delays_on_curve (hvalid : c.validate = .ok ()) (ha : 1 ≤ a) (hab : a ≤ b) :
    c.initialDelay ≤ c.baseDelay a ∧ c.baseDelay a ≤ c.baseDelay b ∧
      c.baseDelay b ≤ c.maxDelay ∧ c.baseDelay 1 = c.initialDelay ∧
      ((c.baseDelay a).nanos : ℤ) = min (c.maxDelay.nanos : ℤ) (roundHalfEven (c.uncapped a)) ∧
      ∀ draw : ℚ, 0 ≤ draw → draw < 1 →
        if c.jitter then
          c.baseDelay a ≤ c.delay a draw ∧
            ((c.delay a draw).nanos : ℤ) ≤
              min (roundHalfEven ((c.baseDelay a).nanos * (5 / 4))) longestNanos
        else c.delay a draw = c.baseDelay a := by
  obtain ⟨hgrows, horder⟩ := validate_eq_ok_iff.mp hvalid
  have hnanos (k : ℕ) (hk : 1 ≤ k) := nanos_baseDelay (c := c) (a := k)
    ((Nat.cast_nonneg _).trans (initialDelay_le_uncapped hgrows hk))
  have hinitial : roundHalfEven (c.initialDelay.nanos : ℚ) = c.initialDelay.nanos :=
    roundHalfEven_intCast c.initialDelay.nanos
  have horder' : (c.initialDelay.nanos : ℤ) ≤ c.maxDelay.nanos := Nat.cast_le.mpr horder
  refine ⟨?_, ?_, ?_, ?_, hnanos a ha, ?_⟩
  · rw [Duration.le_iff_cast_le, hnanos a ha]
    refine le_min horder' (hinitial.symm.trans_le ?_)
    exact roundHalfEven_mono (initialDelay_le_uncapped hgrows ha)
  · rw [Duration.le_iff_cast_le, hnanos a ha, hnanos b (ha.trans hab)]
    exact min_le_min_left _ (roundHalfEven_mono (uncapped_mono hgrows hab))
  · rw [Duration.le_iff_cast_le, hnanos b (ha.trans hab)]
    exact min_le_left _ _
  · apply Duration.ext
    rw [← Nat.cast_inj (R := ℤ), hnanos 1 le_rfl, uncapped_one, hinitial, min_eq_right horder']
  · intro draw hnonneg hlt
    split_ifs with hjitter
    · exact ⟨baseDelay_le_delay hjitter hnonneg hlt.le, nanos_delay_le hjitter hnonneg hlt.le⟩
    · unfold delay
      exact if_neg hjitter

/-- From one nanosecond to five, by half as much again each time. -/
def gentle : Config ℚ where
  maxAttempts := 12
  initialDelay := ⟨1, by decide⟩
  maxDelay := ⟨5, by decide⟩
  multiplier := 3 / 2
  backoff := .exponential
  jitter := true

/-- One and a half are rounded to two, two and a quarter as well, and after some attempts the cap is
met. -/
theorem delays_on_curve_gentle :
    gentle.validate = .ok () ∧ gentle.baseDelay 1 = gentle.initialDelay ∧
      ((gentle.baseDelay 2).nanos : ℤ) = 2 ∧ gentle.baseDelay 2 ≤ gentle.baseDelay 3 ∧
      gentle.baseDelay 3 ≤ gentle.maxDelay ∧ ((gentle.baseDelay 9).nanos : ℤ) = 5 ∧
      gentle.baseDelay 9 ≤ gentle.delay 9 (9 / 10) ∧ ((gentle.delay 9 (9 / 10)).nanos : ℤ) ≤ 6 := by
  have hvalid : gentle.validate = .ok () := validate_eq_ok_iff.mpr (by decide +kernel)
  obtain ⟨-, hmono, hcap, hfirst, hsecond, -⟩ :=
    delays_on_curve (a := 2) (b := 3) hvalid (by decide) (by decide)
  obtain ⟨-, -, -, -, hninth, hdraw⟩ :=
    delays_on_curve (a := 9) (b := 9) hvalid (by decide) le_rfl
  obtain ⟨hlow, hhigh⟩ := hdraw (9 / 10) (by norm_num) (by norm_num)
  refine ⟨hvalid, hfirst, ?_, hmono, hcap, ?_, hlow, ?_⟩
  · exact hsecond.trans (by decide +kernel)
  · exact hninth.trans (by decide +kernel)
  · exact hhigh.trans (by decide +kernel)

end Retry.Config

end Safeguard
