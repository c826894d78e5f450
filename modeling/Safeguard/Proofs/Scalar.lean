import Mathlib.Algebra.Order.Field.Rat
import Mathlib.Algebra.Order.Floor.Ring
import Mathlib.Data.Rat.Floor
import Mathlib.Tactic.FieldSimp
import Mathlib.Tactic.Linarith
import Safeguard.Scalar

/-!
# Exact arithmetic

Over the rationals the operations on numbers are the usual ones: every number denotes itself,
so that the smaller and the larger of two are what their names say, and a span of time is a
plain quotient.

## Main results

* `Scalar.min_eq_min`, `Scalar.max_eq_max`, `Scalar.seconds_eq_div`, `Scalar.power_eq_pow`.
* `abs_roundHalfEven_sub_le`: the nearest whole number is at most a half away.
* `roundHalfEven_mono`: rounding keeps the order.
-/

namespace Safeguard

namespace Scalar

@[simp] theorem ofNat_eq_cast (n : Nat) : (ofNat n : ℚ) = n := rfl

@[simp] theorem zero_eq_zero : (zero : ℚ) = 0 := Nat.cast_zero

@[simp] theorem le_iff_le (a b : ℚ) : le a b = true ↔ a ≤ b := decide_eq_true_iff

@[simp] theorem isUndefined_eq_false (a : ℚ) : isUndefined a = false := by
  simp [isUndefined]

@[simp] theorem lt_iff_lt (a b : ℚ) : lt a b = true ↔ a < b := by
  simp only [lt, Bool.and_eq_true, le_iff_le, Bool.not_eq_true', ← Bool.not_eq_true, not_le]
  exact ⟨And.right, fun h => ⟨h.le, h⟩⟩

@[simp] theorem min_eq_min (a b : ℚ) : Scalar.min a b = Min.min a b := by
  unfold Scalar.min
  simp only [isUndefined_eq_false, Bool.false_or, lt_iff_lt]
  split
  · rename_i h
    exact (min_eq_right h.le).symm
  · rename_i h
    exact (min_eq_left (not_lt.mp h)).symm

@[simp] theorem max_eq_max (a b : ℚ) : Scalar.max a b = Max.max a b := by
  unfold Scalar.max
  simp only [isUndefined_eq_false, Bool.false_or, lt_iff_lt]
  split
  · rename_i h
    exact (max_eq_right h.le).symm
  · rename_i h
    exact (max_eq_left (not_lt.mp h)).symm

/-- Whole seconds and the rest add up to the span. -/
@[simp] theorem seconds_eq_div (nanos : Nat) :
    (seconds nanos : ℚ) = nanos / nanosPerSecond := by
  have hsplit : (nanos : ℚ) =
      (nanosPerSecond : ℕ) * (nanos / nanosPerSecond : ℕ) + (nanos % nanosPerSecond : ℕ) := by
    exact_mod_cast (Nat.div_add_mod nanos nanosPerSecond).symm
  have hpos : ((nanosPerSecond : ℕ) : ℚ) ≠ 0 := by norm_num
  simp only [seconds, ofNat_eq_cast]
  rw [eq_div_iff hpos, add_mul, div_mul_cancel₀ _ hpos, mul_comm]
  exact hsplit.symm

/-- Each step of repeated squaring halves the exponent and squares the base; where the exponent is
odd, the result takes over a factor. -/
theorem powerFrom_eq (result base : ℚ) (exponent : ℕ) :
    powerFrom result base exponent = result * base ^ exponent := by
  induction exponent using Nat.strong_induction_on generalizing result base with
  | _ exponent ih =>
    have hhalves : base ^ exponent = (base * base) ^ (exponent / 2) * base ^ (exponent % 2) := by
      rw [← pow_two, ← pow_mul, ← pow_add, Nat.div_add_mod]
    unfold powerFrom
    dsimp only
    by_cases hlast : exponent / 2 = 0
    · rw [if_pos hlast, hhalves, hlast, pow_zero, one_mul]
      obtain heven | hodd := Nat.mod_two_eq_zero_or_one exponent
      · rw [heven, if_neg zero_ne_one, pow_zero, mul_one]
      · rw [hodd, if_pos rfl, pow_one]
    · rw [if_neg hlast, ih (exponent / 2) (by omega), hhalves]
      obtain heven | hodd := Nat.mod_two_eq_zero_or_one exponent
      · rw [heven, if_neg zero_ne_one, pow_zero, mul_one]
      · rw [hodd, if_pos rfl, pow_one]
        ring

/-- Repeated squaring gives the power. -/
@[simp] theorem power_eq_pow (base : ℚ) (exponent : ℕ) : power base exponent = base ^ exponent := by
  rw [power, powerFrom_eq, one, ofNat_eq_cast, Nat.cast_one, one_mul]

end Scalar

/-- The nearest whole number is at most a half away. -/
theorem abs_roundHalfEven_sub_le (q : ℚ) : |(roundHalfEven q : ℚ) - q| ≤ 1 / 2 := by
  have hfloor : (q.floor : ℚ) ≤ q := Int.floor_le q
  have hlt : q < q.floor + 1 := Int.lt_floor_add_one q
  unfold roundHalfEven
  dsimp only
  rw [abs_le]
  split
  · constructor <;> linarith
  · split
    · push_cast
      constructor <;> linarith
    · -- Both neighbours are a half away.
      split
      · constructor <;> linarith
      · push_cast
        constructor <;> linarith

/-- Whole numbers are not rounded. -/
theorem roundHalfEven_intCast (n : ℤ) : roundHalfEven n = n := by
  obtain ⟨hlow, hhigh⟩ := abs_le.mp (abs_roundHalfEven_sub_le n)
  have hle : (roundHalfEven n : ℚ) < (n + 1 : ℤ) := by
    push_cast
    linarith
  have hge : ((n - 1 : ℤ) : ℚ) < roundHalfEven n := by
    push_cast
    linarith
  have := Int.cast_lt.mp hle
  have := Int.cast_lt.mp hge
  omega

/-- Rounding keeps the order: were two results to change places, both numbers would lie at the
half between them, and be the same. -/
theorem roundHalfEven_mono {p q : ℚ} (hpq : p ≤ q) : roundHalfEven p ≤ roundHalfEven q := by
  by_contra hlt
  have hgap : (roundHalfEven q : ℚ) + 1 ≤ roundHalfEven p := by
    exact_mod_cast Int.add_one_le_of_lt (not_le.mp hlt)
  have hp := (abs_le.mp (abs_roundHalfEven_sub_le p)).2
  have hq := (abs_le.mp (abs_roundHalfEven_sub_le q)).1
  have heq : p = q := le_antisymm hpq (by linarith)
  exact hlt (congrArg roundHalfEven heq).le

/-- A whole number can be taken out of what is rounded, unless it is odd and there is a tie. -/
theorem roundHalfEven_intCast_add {n : ℤ} {q : ℚ} (h : n % 2 = 0 ∨ q - q.floor ≠ 1 / 2) :
    roundHalfEven (n + q) = n + roundHalfEven q := by
  have hfloor : (n + q).floor = n + q.floor := Int.floor_intCast_add n q
  have hexcess : n + q - (n + q.floor : ℤ) = q - q.floor := by
    push_cast
    ring
  unfold roundHalfEven
  dsimp only
  rw [hfloor, hexcess]
  by_cases hlow : q - q.floor < 1 / 2
  · rw [if_pos hlow, if_pos hlow]
  · rw [if_neg hlow, if_neg hlow]
    by_cases hhigh : 1 / 2 < q - q.floor
    · rw [if_pos hhigh, if_pos hhigh, add_assoc]
    · -- Of two neighbours that are equally near, the even one stays the even one.
      rw [if_neg hhigh, if_neg hhigh]
      have heven : n % 2 = 0 := h.resolve_right fun hne =>
        hne (le_antisymm (not_lt.mp hhigh) (not_lt.mp hlow))
      split_ifs <;> omega

/-- What is not negative is not negative when it is rounded. -/
theorem roundHalfEven_nonneg {q : ℚ} (h : 0 ≤ q) : 0 ≤ roundHalfEven q :=
  calc (0 : ℤ) = roundHalfEven (0 : ℤ) := (roundHalfEven_intCast 0).symm
    _ ≤ roundHalfEven q := roundHalfEven_mono (by exact_mod_cast h)

/-- A number of seconds gives the span of the nearest whole number of nanoseconds. -/
theorem Duration.nanos_eq_roundHalfEven {R : Type} [Scalar R] {x : R} {d : Duration}
    (h : Duration.ofSeconds? x = some d) :
    ∃ q, Scalar.value? x = some q ∧ (d.nanos : ℤ) = roundHalfEven (q * nanosPerSecond) := by
  unfold ofSeconds? at h
  split at h
  · cases h
  · rename_i q hq
    refine ⟨q, hq, ?_⟩
    split at h
    · cases h
    · rename_i hnonneg
      -- What is rounded is not negative, so nothing is cut off.
      have hround : 0 ≤ roundHalfEven (q * nanosPerSecond) :=
        roundHalfEven_nonneg (mul_nonneg (not_lt.mp hnonneg) (Nat.cast_nonneg _))
      rw [Duration.ofNanos?_eq_some_iff.mp h, Int.toNat_of_nonneg hround]

/-- The span nearest to a number of seconds is at most half a nanosecond away. -/
theorem Duration.abs_nanos_sub_le {R : Type} [Scalar R] {x : R} {d : Duration}
    (h : Duration.ofSeconds? x = some d) :
    ∃ q, Scalar.value? x = some q ∧ |(d.nanos : ℚ) - q * nanosPerSecond| ≤ 1 / 2 := by
  obtain ⟨q, hq, hnanos⟩ := nanos_eq_roundHalfEven h
  have hcast : (d.nanos : ℚ) = roundHalfEven (q * nanosPerSecond) := by exact_mod_cast hnanos
  refine ⟨q, hq, ?_⟩
  rw [hcast]
  exact abs_roundHalfEven_sub_le _

/-- A number of seconds that is not below zero and not above a span gives a span that is not
longer. -/
theorem Duration.exists_ofSeconds? {R : Type} [Scalar R] {x : R} {q : ℚ} {limit : Duration}
    (hq : Scalar.value? x = some q) (hnonneg : 0 ≤ q) (hle : q * nanosPerSecond ≤ limit.nanos) :
    ∃ d, Duration.ofSeconds? x = some d ∧ d ≤ limit := by
  have hround : roundHalfEven (q * nanosPerSecond) ≤ limit.nanos :=
    calc roundHalfEven (q * nanosPerSecond) ≤ roundHalfEven (limit.nanos : ℤ) :=
          roundHalfEven_mono (by exact_mod_cast hle)
      _ = limit.nanos := roundHalfEven_intCast _
  have hseconds : ofSeconds? x = ofNanos? (roundHalfEven (q * nanosPerSecond)).toNat := by
    unfold ofSeconds?
    rw [hq]
    exact if_neg (not_lt.mpr hnonneg)
  have hnanos : (roundHalfEven (q * nanosPerSecond)).toNat ≤ limit.nanos := Int.toNat_le.mpr hround
  rw [hseconds]
  exact ⟨⟨_, hnanos.trans limit.nanos_le⟩, ofNanos?_eq_some_iff.mpr rfl, hnanos⟩

end Safeguard
