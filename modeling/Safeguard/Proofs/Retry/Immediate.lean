import Safeguard.Proofs.Binary64.Accuracy
import Safeguard.Proofs.Scalar
import Safeguard.Retry.Config

/-!
# Attempts without a first delay

Every curve starts from the first delay and multiplies it, so an operation with no delay after
its first attempt should be repeated at once ever after. That is what happens as long as the
delay is multiplied by something finite. A factor above one has powers that are too large for a
floating-point number, though, and these are infinities: no time at all, multiplied by one of
them, is not a number, and where the delay is not a number the cap takes its place. From then on
every attempt waits for the longest delay.

## Main results

* `Retry.Config.baseDelay_eq_zero_iff`: when a delay is empty, in terms of its uncapped value.
* `Retry.Config.immediate_iff`: when an operation without a first delay is repeated at once.
-/

namespace Safeguard

open Float.Model (UnpackedFloat)

/-! ## Multiples of zero -/

namespace Binary64

variable {x y : Float}

/-- What denotes zero is a zero, of either sign. -/
theorem exists_zero (hx : Denotes x) (hzero : value x = 0) : ∃ s, x.toModel.unpack = .zero s := by
  unfold Denotes at hx
  unfold value at hzero
  rcases h : x.toModel.unpack with s | _ | s | ⟨s, m, e, hm⟩
  · rw [h] at hzero
    cases s
    · exact absurd hzero EReal.bot_ne_zero
    · exact absurd hzero EReal.top_ne_zero
  · exact absurd h hx
  · exact ⟨s, rfl⟩
  · rw [h] at hzero
    cases s
    · exact absurd hzero reading_neg.ne
    · exact absurd hzero reading_pos.ne'

theorem value?_of_value_eq_zero (hx : Denotes x) (hzero : value x = 0) :
    Scalar.value? x = some 0 := by
  obtain ⟨s, hs⟩ := exists_zero hx hzero
  change floatValue? x = some 0
  unfold floatValue?
  rw [hs]

/-- Zero times a number is zero, or not a number if the other one is not finite. -/
theorem mul_of_value_eq_zero (hx : Denotes x) (hzero : value x = 0) (y : Float) :
    value (x * y) = 0 ∧ (Denotes (x * y) ↔ Scalar.isFinite y = true) := by
  obtain ⟨s, hs⟩ := exists_zero hx hzero
  have hproduct : (x * y).toModel.unpack =
      kept (UnpackedFloat.mul .binary64 (.zero s) y.toModel.unpack) := hs ▸ rfl
  have hnone : kept .notANumber = .notANumber := rfl
  have hkept (s : UnpackedFloat.Sign) : kept (.zero s) = .zero s := by cases s <;> rfl
  have hfinite : Scalar.isFinite y = (floatValue? y).isSome := rfl
  unfold Denotes value
  rw [hproduct, hfinite]
  unfold floatValue?
  rcases y.toModel.unpack with s' | _ | s' | ⟨s', m, e, hm⟩
  · have hmul : UnpackedFloat.mul .binary64 (.zero s) (.infinity s') = .notANumber := rfl
    rw [hmul, hnone]
    exact ⟨rfl, iff_of_false (not_not.mpr rfl) nofun⟩
  · have hmul : UnpackedFloat.mul .binary64 (.zero s) .notANumber = .notANumber := rfl
    rw [hmul, hnone]
    exact ⟨rfl, iff_of_false (not_not.mpr rfl) nofun⟩
  · have hmul : UnpackedFloat.mul .binary64 (.zero s) (.zero s') = .zero (s * s') := rfl
    rw [hmul, hkept]
    exact ⟨rfl, iff_of_true nofun rfl⟩
  · have hmul : UnpackedFloat.mul .binary64 (.zero s) (.finite s' m e hm) = .zero (s * s') := rfl
    rw [hmul, hkept]
    cases s' <;> exact ⟨rfl, iff_of_true nofun rfl⟩

theorem value_mul_eq_zero (hzero : value x = 0) (y : Float) : value (x * y) = 0 := by
  by_cases hx : Denotes x
  · exact (mul_of_value_eq_zero hx hzero y).1
  · -- What is not a number stays so.
    have hproduct : (x * y).toModel.unpack =
        kept (UnpackedFloat.mul .binary64 .notANumber y.toModel.unpack) := not_not.mp hx ▸ rfl
    have hmul : UnpackedFloat.mul .binary64 .notANumber y.toModel.unpack = .notANumber := by
      cases y.toModel.unpack <;> rfl
    unfold value
    rw [hproduct, hmul]
    rfl

end Binary64

open Binary64

/-! ## Spans of time -/

/-- An empty span is zero seconds. -/
theorem value_seconds_zero :
    Denotes (Scalar.seconds 0 : Float) ∧ value (Scalar.seconds 0 : Float) = 0 := by
  have hunpack : (Scalar.seconds 0 : Float).toModel.unpack = .zero .positive := rfl
  unfold Denotes value
  rw [hunpack]
  exact ⟨nofun, rfl⟩

namespace Duration

variable {x : Float} {d : Duration}

/-- Zero seconds are an empty span. -/
theorem ofSeconds?_of_value_eq_zero (hx : Denotes x) (hzero : value x = 0) :
    ofSeconds? x = some .zero := by
  have hround : roundHalfEven (0 * nanosPerSecond) = 0 := by
    rw [zero_mul]
    exact_mod_cast roundHalfEven_intCast 0
  unfold ofSeconds?
  rw [value?_of_value_eq_zero hx hzero]
  dsimp only
  rw [if_neg (lt_irrefl 0), hround]
  rfl

/-- What is not a number of seconds gives no span. -/
theorem ofSeconds?_of_undefined (hx : ¬Denotes x) : ofSeconds? x = none := by
  have hvalue : Scalar.value? x = none := by
    rw [Option.eq_none_iff_forall_ne_some]
    exact fun q hq => hx (value_eq_of_value? hq).1
  unfold ofSeconds?
  rw [hvalue]

/-- What is zero or not a number adds nothing. -/
theorem getD_ofSeconds?_eq_zero (hzero : value x = 0) : (ofSeconds? x).getD .zero = .zero := by
  by_cases hx : Denotes x
  · rw [ofSeconds?_of_value_eq_zero hx hzero, Option.getD_some]
  · rw [ofSeconds?_of_undefined hx, Option.getD_none]

/-- A span of at least a nanosecond is not lost where it is turned into seconds and back. -/
theorem ofSeconds?_seconds_ne_zero (hd : d ≠ .zero) :
    ofSeconds? (Scalar.seconds d.nanos : Float) ≠ some .zero := by
  intro hempty
  obtain ⟨q, hq, hnear⟩ := abs_nanos_sub_le hempty
  -- The number of seconds is not above half a nanosecond.
  have hhalf : (q : ℝ) ≤ 1 / 2 * (1 / nanosPerSecond) := by
    have hle : q * nanosPerSecond ≤ 1 / 2 := by
      have hlow := (abs_le.mp hnear).1
      rw [nanos_zero, Nat.cast_zero] at hlow
      linarith
    have hcast := Rat.cast_le (K := ℝ) |>.mpr hle
    push_cast at hcast
    rw [← le_div_iff₀ (by norm_num)] at hcast
    exact hcast.trans_eq (by ring)
  -- But only a small part of the nanosecond was lost.
  have hnanos : (1 : ℝ) ≤ d.nanos := by
    exact_mod_cast Nat.one_le_iff_ne_zero.mpr fun h => hd (Duration.ext h)
  have hfactor : (9 : ℝ) / 10 ≤ share ^ 2 := (one_sub_le_share_pow 2).trans' (by norm_num)
  have htiny : 3 * least ≤ 1 / 10 * (1 / nanosPerSecond) :=
    (mul_le_mul_of_nonneg_left least_le (by norm_num)).trans (by norm_num)
  have hlost : (9 : ℝ) / 10 * (1 / nanosPerSecond) - 1 / 10 * (1 / nanosPerSecond) ≤ q :=
    calc (9 : ℝ) / 10 * (1 / nanosPerSecond) - 1 / 10 * (1 / nanosPerSecond)
        ≤ share ^ 2 * (d.nanos / nanosPerSecond) - 3 * least := by gcongr
      _ ≤ q := by
        rw [← EReal.coe_le_coe_iff, ← (value_eq_of_value? hq).2]
        exact (atLeast_seconds d.nanos).le
  norm_num at hlost hhalf
  linarith

/-- The shorter of two spans is empty if and only if one of them is. -/
theorem min_eq_zero_iff {d d' : Duration} : min d d' = .zero ↔ d = .zero ∨ d' = .zero := by
  simp only [Duration.ext_iff, nanos_min, nanos_zero]
  exact Nat.min_eq_zero_iff

end Duration

/-! ## Delays -/

namespace Retry.Config

variable {c : Config Float} {attempt : ℕ}

/-- Where the growth is zero or denotes nothing, the delay is empty if it is zero, and the
longest one otherwise. -/
theorem baseDelay_eq_zero_iff (hgrowth : value (c.growth attempt) = 0) :
    c.baseDelay attempt = .zero ↔ c.maxDelay = .zero ∨ Denotes (c.growth attempt) := by
  have hlimit := atLeast_seconds c.maxDelay.nanos
  unfold baseDelay
  dsimp only
  rw [Duration.min_eq_zero_iff, or_comm]
  refine or_congr_right' fun hmax => ?_
  by_cases hdenotes : Denotes (c.growth attempt)
  · -- Zero is below the cap, so it is kept.
    have hcapped : Scalar.max (Scalar.min (c.growth attempt)
        (Scalar.seconds c.maxDelay.nanos)) Scalar.zero = c.growth attempt := by
      rw [min_eq_left_of_le hdenotes (hgrowth.trans_le hlimit.nonneg),
        max_eq_left_of_le hdenotes (value_zero.trans hgrowth.symm).le]
    rw [hcapped, Duration.ofSeconds?_of_value_eq_zero hdenotes hgrowth]
    exact iff_of_true rfl hdenotes
  · -- What is not a number gives way to the cap.
    have hcapped : Scalar.max (Scalar.min (c.growth attempt)
        (Scalar.seconds c.maxDelay.nanos)) Scalar.zero = Scalar.seconds c.maxDelay.nanos := by
      rw [min_eq_right_of_undefined hdenotes,
        max_eq_left_of_le hlimit.denotes (value_zero.trans_le hlimit.nonneg)]
    rw [hcapped]
    refine iff_of_false ?_ hdenotes
    cases hd : Duration.ofSeconds? (Scalar.seconds c.maxDelay.nanos : Float) with
    | none => exact hmax
    | some d =>
      rintro rfl
      exact Duration.ofSeconds?_seconds_ne_zero hmax hd

/-- The random part is a part of the delay, so that nothing is added to none. -/
theorem delay_eq_zero_iff (draw : Float) :
    c.delay attempt draw = .zero ↔ c.baseDelay attempt = .zero := by
  unfold delay
  dsimp only
  split
  · constructor
    · intro h
      have hnanos := congrArg Duration.nanos h
      rw [Duration.nanos_add, Duration.nanos_zero, Nat.min_eq_zero_iff] at hnanos
      exact Duration.ext (Nat.add_eq_zero_iff.mp (hnanos.resolve_right (by decide))).1
    · intro h
      rw [h, Duration.getD_ofSeconds?_eq_zero]
      · rfl
      · exact value_mul_eq_zero (value_mul_eq_zero value_seconds_zero.2 draw) jitterFraction
  · exact Iff.rfl

/-- The delay is not multiplied by a power that is too large for a finite number. -/
def StaysFinite (c : Config Float) (attempt : ℕ) : Prop :=
  c.backoff = .exponential →
    Scalar.isFinite (Scalar.power c.multiplier (min (attempt - 1) largestPower)) = true

/-- The first delay is multiplied by the number of the attempt, by a power of the factor, or not
at all. -/
theorem growth_of_initialDelay_eq_zero (hc : c.initialDelay = .zero) (attempt : UInt32) :
    value (c.growth attempt.toNat) = 0 ∧
      (Denotes (c.growth attempt.toNat) ↔ c.StaysFinite attempt.toNat) := by
  obtain ⟨hdenotes, hzero⟩ := value_seconds_zero
  unfold growth StaysFinite
  rw [hc, Duration.nanos_zero]
  cases hb : c.backoff with
  | constant => exact ⟨hzero, iff_of_true hdenotes nofun⟩
  | linear =>
    obtain ⟨hvalue, hiff⟩ := mul_of_value_eq_zero hdenotes hzero (Float.ofNat attempt.toNat)
    -- The number of an attempt is no infinity.
    have hcount := value_ofNat (n := attempt.toNat) (attempt.toNat_lt.trans (by norm_num))
    refine ⟨hvalue, iff_of_true (hiff.mpr (isFinite_iff.mpr ⟨hcount.1, ?_⟩)) nofun⟩
    rw [hcount.2]
    exact ⟨EReal.coe_ne_top _, EReal.coe_ne_bot _⟩
  | exponential =>
    obtain ⟨hvalue, hiff⟩ := mul_of_value_eq_zero hdenotes hzero
      (Scalar.power c.multiplier (min (attempt.toNat - 1) largestPower))
    exact ⟨hvalue, hiff.trans ⟨fun h _ => h, fun h => h rfl⟩⟩

/-- **Attempts without a first delay.** If there is no delay after the first attempt, there is
none after any other one, with or without a random part, unless the delay grows by a factor
whose power for that attempt is not finite, and there is a longest delay to take the place of
zero times such a power. -/
theorem immediate_iff (hc : c.initialDelay = .zero) (attempt : UInt32) (draw : Float) :
    (c.baseDelay attempt.toNat = .zero ↔ c.maxDelay = .zero ∨ c.StaysFinite attempt.toNat) ∧
      (c.delay attempt.toNat draw = .zero ↔
        c.maxDelay = .zero ∨ c.StaysFinite attempt.toNat) := by
  obtain ⟨hvalue, hdenotes⟩ := growth_of_initialDelay_eq_zero hc attempt
  have hbase := baseDelay_eq_zero_iff hvalue
  rw [hdenotes] at hbase
  exact ⟨hbase, (delay_eq_zero_iff draw).trans hbase⟩

/-- A factor of two without a first delay, and half a minute at most. -/
def doubling : Config Float where
  maxAttempts := 2000
  initialDelay := .zero
  maxDelay := .ofSeconds 30
  multiplier := Scalar.ofNat 2
  backoff := .exponential
  jitter := false

/-- The first thousand repetitions follow at once. -/
theorem immediate_iff_doubling :
    doubling.initialDelay = .zero ∧ doubling.StaysFinite (1001 : UInt32).toNat ∧
      doubling.baseDelay (1001 : UInt32).toNat = .zero ∧
      doubling.delay (1001 : UInt32).toNat (Scalar.ofNat 1 / Scalar.ofNat 2) = .zero := by
  have hfinite : doubling.StaysFinite (1001 : UInt32).toNat := fun _ => by decide +kernel
  exact ⟨rfl, hfinite, (immediate_iff rfl 1001 Scalar.zero).1.mpr (.inr hfinite),
    (immediate_iff rfl 1001 _).2.mpr (.inr hfinite)⟩

/-- The power for the attempt with number 1025 is too large, and the delay is the longest one. -/
theorem doubling_waits :
    doubling.validate.isOk = true ∧ doubling.initialDelay = .zero ∧
      doubling.baseDelay (1024 : UInt32).toNat = .zero ∧
      doubling.baseDelay (1025 : UInt32).toNat = .ofSeconds 30 ∧
      doubling.delay (1025 : UInt32).toNat Scalar.zero = .ofSeconds 30 := by
  decide +kernel

end Retry.Config

end Safeguard
