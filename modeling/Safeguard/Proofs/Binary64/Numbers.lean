import Safeguard.Proofs.Binary64.Rounding
import Safeguard.Scalar

/-!
# Binary floating-point numbers

What the operations on numbers do when the numbers are floating-point ones. Not every number
denotes something, and the test whether one is at most another fails whenever one of the two
does not; the smaller and the larger of two numbers prefer the one that denotes something.

Numbers that are not below zero stay so under sums, products and quotients, whatever is lost
by rounding and also where infinities meet zeros. Rounding is bounded from above only where
that is needed: for sums and for differences.

## Main definitions

* `Binary64.Denotes`, `Binary64.value`: whether a number denotes anything, and what.

## Main results

* `Binary64.scalar_le_iff`: what the test whether a number is at most another finds out.
* `Binary64.min_cases`, `Binary64.max_cases`: the smaller and the larger of two numbers.
* `Binary64.value_add_nonneg`, `Binary64.value_mul_nonneg`, `Binary64.value_div_nonneg`.
* `Binary64.value_add_le`, `Binary64.value_sub_le`: sums and differences are not rounded past
  a number.
* `Binary64.value_ofNat`: counts are exact if they are not too large.
-/

namespace Safeguard.Binary64

open Float.Model (Format UnpackedFloat)
open Float.Model.UnpackedFloat

/-! ## Operations on data -/

section Data

variable {u v : UnpackedFloat} {g : ℕ} {t : ℤ}

theorem rounded_add (hu : Rounded u) (hv : Rounded v) : Rounded (add .binary64 u v) := by
  fun_cases add .binary64 u v
  all_goals
    first
    | exact hu
    | exact hv
    | exact .notANumber
    | exact .infinity _
    | exact .zero _
    | exact rounded_normalize ..

theorem rounded_sub (hu : Rounded u) (hv : Rounded v) : Rounded (sub .binary64 u v) := by
  fun_cases sub .binary64 u v
  case case9 =>
    -- Zero minus a number is the number with the other sign.
    cases hv with | finite h => exact .finite h
  all_goals
    first
    | exact hu
    | exact .notANumber
    | exact .infinity _
    | exact .zero _
    | exact rounded_normalize ..

theorem reading_add_nonneg (hu : 0 ≤ reading u) (hv : 0 ≤ reading v) :
    0 ≤ reading (add .binary64 u v) := by
  obtain rfl | rfl | ⟨s, rfl⟩ | ⟨m, e, hm, rfl⟩ := cases_of_reading_nonneg hu <;>
    obtain rfl | rfl | ⟨s', rfl⟩ | ⟨m', e', hm', rfl⟩ := cases_of_reading_nonneg hv
  case inr.inr.inr.inr.inr.inr =>
    refine reading_normalize_nonneg (Int.add_nonneg ?_ ?_) _ _
    · exact Int.natCast_nonneg _
    · exact Int.natCast_nonneg _
  case inr.inr.inl.inr.inr.inl => cases s <;> cases s' <;> exact le_rfl
  all_goals first | exact hu | exact hv

theorem reading_mul_nonneg (hu : 0 ≤ reading u) (hv : 0 ≤ reading v) :
    0 ≤ reading (mul .binary64 u v) := by
  obtain rfl | rfl | ⟨s, rfl⟩ | ⟨m, e, hm, rfl⟩ := cases_of_reading_nonneg hu <;>
    obtain rfl | rfl | ⟨s', rfl⟩ | ⟨m', e', hm', rfl⟩ := cases_of_reading_nonneg hv
  case inr.inr.inr.inr.inr.inr => exact reading_roundWithAccuracy_nonneg ..
  all_goals first | exact hu | exact hv

/-- A quotient by a zero might be an infinity of either sign, so the divisor is above zero. -/
theorem reading_div_nonneg (hu : 0 ≤ reading u) (hv : 0 < reading v) :
    0 ≤ reading (div .binary64 u v) := by
  obtain rfl | rfl | ⟨s, rfl⟩ | ⟨m, e, hm, rfl⟩ := cases_of_reading_nonneg hu <;>
    obtain rfl | rfl | ⟨s', rfl⟩ | ⟨m', e', hm', rfl⟩ := cases_of_reading_nonneg hv.le
  case inr.inr.inr.inr.inr.inr => exact reading_roundWithAccuracy_nonneg ..
  all_goals first | exact hu | exact le_rfl | exact absurd hv (lt_irrefl _)

/-- Making an exponent smaller does not change the value. -/
theorem decreaseExponent_eq (m : ℕ) {e : ℤ} (h : t ≤ e) :
    ((decreaseExponent m e t).1 : ℝ) * 2 ^ t = magnitude m e := by
  obtain ⟨k, rfl⟩ : ∃ k : ℕ, e = t + k := ⟨(e - t).toNat, by omega⟩
  have hk : (t + k - t).toNat = k := by omega
  simp only [decreaseExponent]
  rw [hk, ← magnitude_mul_two_pow, Nat.shiftLeft_eq]
  rfl

/-- A sum is not rounded past a number. -/
theorem reading_add_le (hg : g < 2 ^ 53) (ht : -1074 ≤ t) (hu : 0 ≤ reading u)
    (hv : 0 ≤ reading v) (hle : reading u + reading v ≤ magnitude g t) :
    reading (add .binary64 u v) ≤ magnitude g t := by
  have hzero : (0 : EReal) ≤ (magnitude g t : EReal) :=
    EReal.coe_nonneg.mpr (magnitude_nonneg g t)
  have hule : reading u ≤ magnitude g t := (le_add_of_nonneg_right hv).trans hle
  have hvle : reading v ≤ magnitude g t := (le_add_of_nonneg_left hu).trans hle
  obtain rfl | rfl | ⟨s, rfl⟩ | ⟨m, e, hm, rfl⟩ := cases_of_reading_nonneg hu
  · exact hzero
  · exact absurd hule (not_le.mpr (EReal.coe_lt_top _))
  · obtain rfl | rfl | ⟨s', rfl⟩ | ⟨m', e', hm', rfl⟩ := cases_of_reading_nonneg hv
    · exact hzero
    · exact hvle
    · cases s <;> cases s' <;> exact hzero
    · exact hvle
  · obtain rfl | rfl | ⟨s', rfl⟩ | ⟨m', e', hm', rfl⟩ := cases_of_reading_nonneg hv
    · exact hzero
    · exact absurd hvle (not_le.mpr (EReal.coe_lt_top _))
    · exact hule
    · refine reading_normalize_le hg ht (le_of_eq_of_le ?_ (EReal.coe_le_coe_iff.mp hle))
      rw [← decreaseExponent_eq m (min_le_left e e'), ← decreaseExponent_eq m' (min_le_right e e')]
      simp only [Sign.apply, Int.cast_add, Int.cast_natCast]
      exact add_mul ..

/-- Taking away does not lead past a number. -/
theorem reading_sub_le (hg : g < 2 ^ 53) (ht : -1074 ≤ t) (hu : 0 ≤ reading u)
    (hv : 0 ≤ reading v) (hle : reading u ≤ magnitude g t) :
    reading (sub .binary64 u v) ≤ magnitude g t := by
  have hzero : (0 : EReal) ≤ (magnitude g t : EReal) :=
    EReal.coe_nonneg.mpr (magnitude_nonneg g t)
  obtain rfl | rfl | ⟨s, rfl⟩ | ⟨m, e, hm, rfl⟩ := cases_of_reading_nonneg hu
  · exact hzero
  · exact absurd hle (not_le.mpr (EReal.coe_lt_top _))
  · obtain rfl | rfl | ⟨s', rfl⟩ | ⟨m', e', hm', rfl⟩ := cases_of_reading_nonneg hv
    · exact hzero
    · exact bot_le
    · cases s <;> cases s' <;> exact hzero
    · exact reading_neg.le.trans hzero
  · obtain rfl | rfl | ⟨s', rfl⟩ | ⟨m', e', hm', rfl⟩ := cases_of_reading_nonneg hv
    · exact hzero
    · exact bot_le
    · exact hle
    · refine reading_normalize_le hg ht (le_trans ?_ (EReal.coe_le_coe_iff.mp hle))
      rw [← decreaseExponent_eq m (min_le_left e e')]
      simp only [Sign.apply, Int.cast_sub, Int.cast_natCast]
      exact mul_le_mul_of_nonneg_right (sub_le_self _ (Nat.cast_nonneg _)) (by positivity)

end Data

/-! ## Numbers -/

section Numbers

variable {x y : Float} {g : ℕ} {t : ℤ}

/-- Whether a number denotes anything. -/
def Denotes (x : Float) : Prop := x.toModel.unpack ≠ .notANumber

/-- What a number denotes. One that denotes nothing counts as zero. -/
noncomputable def value (x : Float) : EReal := reading x.toModel.unpack

theorem scalar_le_iff : Scalar.le x y = true ↔ Denotes x ∧ Denotes y ∧ value x ≤ value y := by
  have h : Scalar.le x y = x.toModel.unpack.le y.toModel.unpack :=
    (Bool.decide_coe _).trans (Bool.decide_coe _)
  rw [h]
  exact le_iff (rounded_unpack _) (rounded_unpack _)

theorem isUndefined_iff : Scalar.isUndefined x = true ↔ ¬Denotes x := by
  rw [Scalar.isUndefined, Bool.not_eq_true', ← Bool.not_eq_true, scalar_le_iff]
  simp

theorem scalar_lt_iff : Scalar.lt x y = true ↔ Denotes x ∧ Denotes y ∧ value x < value y := by
  rw [Scalar.lt, Bool.and_eq_true, Bool.not_eq_true', ← Bool.not_eq_true, scalar_le_iff,
    scalar_le_iff]
  constructor
  · rintro ⟨⟨hx, hy, -⟩, hnot⟩
    exact ⟨hx, hy, lt_of_not_ge fun hle => hnot ⟨hy, hx, hle⟩⟩
  · rintro ⟨hx, hy, hlt⟩
    exact ⟨⟨hx, hy, hlt.le⟩, fun h => not_le.mpr hlt h.2.2⟩

/-- The smaller number is the first one only if that one denotes something and is not above
the other. -/
theorem min_cases (hy : Denotes y) :
    Scalar.min x y = y ∨ Scalar.min x y = x ∧ Denotes x ∧ value x ≤ value y := by
  unfold Scalar.min
  split
  · exact .inl rfl
  · rename_i h
    rw [Bool.or_eq_true, not_or, isUndefined_iff, not_not, scalar_lt_iff] at h
    exact .inr ⟨rfl, h.1, not_lt.mp fun hlt => h.2 ⟨hy, h.1, hlt⟩⟩

/-- The larger number is the first one only if that one denotes something and is not below
the other. -/
theorem max_cases (hy : Denotes y) :
    Scalar.max x y = y ∨ Scalar.max x y = x ∧ Denotes x ∧ value y ≤ value x := by
  unfold Scalar.max
  split
  · exact .inl rfl
  · rename_i h
    rw [Bool.or_eq_true, not_or, isUndefined_iff, not_not, scalar_lt_iff] at h
    exact .inr ⟨rfl, h.1, not_lt.mp fun hlt => h.2 ⟨h.1, hy, hlt⟩⟩

/-- The first of two numbers is the smaller one if it is not above the other. -/
theorem min_eq_left_of_le (hx : Denotes x) (hle : value x ≤ value y) : Scalar.min x y = x := by
  unfold Scalar.min
  rw [if_neg]
  rw [Bool.or_eq_true, not_or, isUndefined_iff, not_not, scalar_lt_iff]
  exact ⟨hx, fun hlt => not_le.mpr hlt.2.2 hle⟩

/-- What denotes nothing is not the smaller of two numbers. -/
theorem min_eq_right_of_undefined (hx : ¬Denotes x) : Scalar.min x y = y := by
  unfold Scalar.min
  rw [if_pos]
  rw [Bool.or_eq_true, isUndefined_iff]
  exact .inl hx

/-- The first of two numbers is the larger one if it is not below the other. -/
theorem max_eq_left_of_le (hx : Denotes x) (hle : value y ≤ value x) : Scalar.max x y = x := by
  unfold Scalar.max
  rw [if_neg]
  rw [Bool.or_eq_true, not_or, isUndefined_iff, not_not, scalar_lt_iff]
  exact ⟨hx, fun hlt => not_le.mpr hlt.2.2 hle⟩

/-- A number with an exact value denotes it. -/
theorem value_eq_of_value? {q : ℚ} (h : Scalar.value? x = some q) :
    Denotes x ∧ value x = ((q : ℝ) : EReal) := by
  change floatValue? x = some q at h
  unfold floatValue? at h
  unfold Denotes value
  -- Fractions with a power of two below them are magnitudes with a negative exponent.
  have hmagnitude (m : ℕ) (e : ℤ) : magnitude m e = ((if 0 ≤ e then
      (m * Nat.pow 2 e.toNat : ℕ) else m / (Nat.pow 2 (-e).toNat : ℕ) : ℚ) : ℝ) := by
    unfold magnitude
    split
    · obtain ⟨k, rfl⟩ := Int.eq_ofNat_of_zero_le ‹0 ≤ e›
      simp
    · obtain ⟨k, rfl⟩ : ∃ k : ℕ, e = -k := ⟨(-e).toNat, by omega⟩
      simp [div_eq_mul_inv]
  generalize x.toModel.unpack = u at h ⊢
  rcases u with s | _ | s | ⟨s, m, e, hm⟩
  · cases h
  · cases h
  · cases h
    exact ⟨by simp, by simp [reading]⟩
  · cases s with
    | positive =>
      cases h
      exact ⟨by simp, by rw [reading_positive, hmagnitude]⟩
    | negative =>
      cases h
      exact ⟨by simp, by rw [reading_negative, hmagnitude, Rat.cast_neg]⟩

/-- The finite numbers are those that denote a real number. -/
theorem isFinite_iff :
    Scalar.isFinite x = true ↔ Denotes x ∧ value x ≠ ⊤ ∧ value x ≠ ⊥ := by
  have hvalue : Scalar.isFinite x = (floatValue? x).isSome := rfl
  rw [hvalue]
  unfold floatValue? Denotes value
  rcases x.toModel.unpack with s | _ | s | ⟨s, m, e, hm⟩
  · cases s
    · exact iff_of_false nofun fun h => h.2.2 rfl
    · exact iff_of_false nofun fun h => h.2.1 rfl
  · exact iff_of_false nofun fun h => h.1 rfl
  · exact iff_of_true rfl ⟨nofun, EReal.zero_ne_top, EReal.zero_ne_bot⟩
  · cases s <;> exact iff_of_true rfl ⟨nofun, EReal.coe_ne_top _, EReal.coe_ne_bot _⟩

theorem value_add_nonneg (hx : 0 ≤ value x) (hy : 0 ≤ value y) : 0 ≤ value (x + y) :=
  reading_kept_nonneg (reading_add_nonneg hx hy)

theorem value_mul_nonneg (hx : 0 ≤ value x) (hy : 0 ≤ value y) : 0 ≤ value (x * y) :=
  reading_kept_nonneg (reading_mul_nonneg hx hy)

theorem value_div_nonneg (hx : 0 ≤ value x) (hy : 0 < value y) : 0 ≤ value (x / y) :=
  reading_kept_nonneg (reading_div_nonneg hx hy)

theorem value_add_le (hg : g < 2 ^ 53) (ht : -1074 ≤ t)
    (hmax : magnitude g t < magnitude (2 ^ 52) 972) (hx : 0 ≤ value x) (hy : 0 ≤ value y)
    (hle : value x + value y ≤ magnitude g t) : value (x + y) ≤ magnitude g t :=
  reading_kept_le (rounded_add (rounded_unpack _) (rounded_unpack _)) hmax (magnitude_nonneg g t)
    (reading_add_le hg ht hx hy hle)

theorem value_sub_le (hg : g < 2 ^ 53) (ht : -1074 ≤ t)
    (hmax : magnitude g t < magnitude (2 ^ 52) 972) (hx : 0 ≤ value x) (hy : 0 ≤ value y)
    (hle : value x ≤ magnitude g t) : value (x - y) ≤ magnitude g t :=
  reading_kept_le (rounded_sub (rounded_unpack _) (rounded_unpack _)) hmax (magnitude_nonneg g t)
    (reading_sub_le hg ht hx hy hle)

end Numbers

/-! ## Counts -/

section Counts

variable {n : ℕ}

/-- A count with few enough digits is far from the largest magnitude. -/
theorem magnitude_zero_lt (hn : n < 2 ^ 53) : magnitude n 0 < magnitude (2 ^ 52) 972 :=
  calc magnitude n 0 < magnitude (2 ^ 52 * 2 ^ 1) 0 := (magnitude_lt_magnitude 0).mpr hn
    _ = magnitude (2 ^ 52) 1 := magnitude_mul_two_pow _ 0 1
    _ < magnitude (2 ^ 52) 972 := Fits.magnitude_lt ⟨by norm_num, by norm_num, .inr le_rfl⟩
        ⟨by norm_num, by norm_num, .inr le_rfl⟩ (by norm_num)

theorem reading_ofNat (hlt : n < 2 ^ 53) :
    UnpackedFloat.ofNat .binary64 n ≠ .notANumber ∧
      reading (UnpackedFloat.ofNat .binary64 n) = (magnitude n 0 : EReal) := by
  rcases Nat.eq_zero_or_pos n with rfl | hn
  · have hzero : UnpackedFloat.ofNat .binary64 0 = .zero .positive := rfl
    rw [hzero]
    exact ⟨nofun, by simp [reading, magnitude]⟩
  · have hround : UnpackedFloat.ofNat .binary64 n =
        UnpackedFloat.round .binary64 .positive n 0 := by
      unfold UnpackedFloat.ofNat ofInt UnpackedFloat.normalize
      rw [compare_gt_iff_gt.mpr (Int.natCast_pos.mpr hn)]
      rfl
    obtain ⟨r, hnear, hvalue⟩ := (exists_round hn 0 .positive).2
    -- There is room for all its digits, so the count is a multiple of the unit.
    obtain ⟨k, hk⟩ : ∃ k : ℕ, (0 : ℤ) = scale n 0 + k :=
      ⟨(-scale n 0).toNat, by have := scale_le hlt (e := 0) (by norm_num); omega⟩
    have hr : r = n * 2 ^ k := hnear.eq (by rw [magnitude_mul_two_pow, ← hk])
    rw [hround]
    refine ⟨roundWithAccuracy_ne_notANumber _ _ _ _, ?_⟩
    rw [hvalue rfl, hr, magnitude_mul_two_pow, ← hk]

/-- The number one. -/
def one : UnpackedFloat := .finite .positive (2 ^ 52) (-52) (by norm_num)

/-- Multiplying by one does not round. -/
theorem reading_mul_one {u : UnpackedFloat} (hu : Rounded u) (hu' : u ≠ .notANumber)
    (hnonneg : 0 ≤ reading u) :
    Rounded (mul .binary64 u one) ∧ mul .binary64 u one ≠ .notANumber ∧
      reading (mul .binary64 u one) = reading u := by
  obtain rfl | rfl | ⟨s, rfl⟩ | ⟨m, e, hm, rfl⟩ := cases_of_reading_nonneg hnonneg
  · exact absurd rfl hu'
  · have hmul : mul .binary64 (.infinity .positive) one = .infinity .positive := rfl
    rw [hmul]
    exact ⟨.infinity _, nofun, rfl⟩
  · have hmul : mul .binary64 (.zero s) one = .zero (s * .positive) := rfl
    rw [hmul]
    exact ⟨.zero _, nofun, rfl⟩
  · cases hu with | finite fits =>
    have hscale : scale (m * 2 ^ 52) (e + -52) = e := by
      rw [scale_mul_two_pow hm]
      simpa using fits.scale_eq hm
    obtain ⟨hrounded, r, hnear, hvalue⟩ :=
      exists_roundWithAccuracy (m := m * 2 ^ 52) (e := e + -52) (by omega) .positive
    have hr : r = m := hnear.eq (by rw [hscale, magnitude_mul_two_pow]; simp)
    have hmul : mul .binary64 (.finite .positive m e hm) one =
        roundWithAccuracy .binary64 .positive (m * 2 ^ 52) (e + -52) .exact := rfl
    rw [hmul]
    refine ⟨hrounded, roundWithAccuracy_ne_notANumber _ _ _ _, ?_⟩
    rw [hvalue rfl, hr, hscale, reading_positive]

/-- A count is converted as a machine word and multiplied by a power of ten, which is one. -/
theorem unpack_ofNat (hn : n < 2 ^ 53) :
    (Float.ofNat n).toModel.unpack =
      kept (mul .binary64 (kept (UnpackedFloat.ofNat .binary64 n)) one) := by
  have h : Float.ofNat n = n.toUInt64.toFloat * Float.ofBits 0x3FF0000000000000 :=
    dif_pos ⟨hn, Nat.zero_le 22⟩
  have hword : n.toUInt64.toNat = n := by
    change (UInt64.ofNat n).toNat = n
    rw [UInt64.toNat_ofNat']
    omega
  have hfloat : n.toUInt64.toFloat.toModel.unpack = kept (UnpackedFloat.ofNat .binary64 n) := by
    rw [← congrArg (fun k => kept (UnpackedFloat.ofNat .binary64 k)) hword]
    rfl
  rw [h, ← hfloat]
  rfl

/-- A count with few enough digits is represented exactly. -/
theorem value_ofNat (hn : n < 2 ^ 53) :
    Denotes (Float.ofNat n) ∧ value (Float.ofNat n) = (magnitude n 0 : EReal) := by
  have hmax := magnitude_zero_lt hn
  have hnonneg : (0 : EReal) ≤ (magnitude n 0 : EReal) :=
    EReal.coe_nonneg.mpr (magnitude_nonneg n 0)
  obtain ⟨hne, hreading⟩ := reading_ofNat hn
  have hkept : kept (UnpackedFloat.ofNat .binary64 n) = UnpackedFloat.ofNat .binary64 n :=
    kept_eq_self (rounded_normalize ..) hmax (hreading ▸ hnonneg) hreading.le
  obtain ⟨hrounded, hne', hmul⟩ :=
    reading_mul_one (rounded_normalize ..) hne (hreading ▸ hnonneg)
  have hmul' := hmul.trans hreading
  have hunpack : (Float.ofNat n).toModel.unpack =
      mul .binary64 (UnpackedFloat.ofNat .binary64 n) one := by
    rw [unpack_ofNat hn, hkept]
    exact kept_eq_self hrounded hmax (hmul' ▸ hnonneg) hmul'.le
  refine ⟨?_, (congrArg reading hunpack).trans hmul'⟩
  rw [Denotes, hunpack]
  exact hne'

theorem denotes_zero : Denotes Scalar.zero := (value_ofNat (n := 0) (by norm_num)).1

theorem value_zero : value Scalar.zero = 0 :=
  (value_ofNat (n := 0) (by norm_num)).2.trans (by simp [magnitude])

/-- No count is below zero, however large it is. -/
theorem value_ofNat_nonneg (n : ℕ) : 0 ≤ value (Float.ofNat n) := by
  by_cases hn : n < 2 ^ 53
  · rw [(value_ofNat hn).2]
    exact EReal.coe_nonneg.mpr (magnitude_nonneg n 0)
  · have h : Float.ofNat n = Float.ofModel (Float.Model.ofScientific n 0) :=
      dif_neg fun h => hn h.1
    rw [h]
    refine reading_kept_nonneg ?_
    unfold UnpackedFloat.ofScientific
    split
    · exact le_rfl
    · have hbits : (2 : ℤ) ^ Format.binary64.exponentBits = 2048 := rfl
      rw [hbits, if_neg (by omega), if_neg (by omega), if_pos le_rfl]
      exact reading_mul_nonneg reading_pos.le reading_pos.le

end Counts

end Safeguard.Binary64
