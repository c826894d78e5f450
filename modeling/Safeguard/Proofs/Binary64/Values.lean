import Mathlib

/-!
# What floating-point data denote

A datum of binary floating point is a sign with a mantissa and an exponent, a signed zero, a
signed infinity, or no number at all. It is read as an extended real. The test whether one
datum is at most another compares exponents before mantissas, which is right only because
mantissas are as long as they can be; data that are taken apart from their bits have that
form.

## Main definitions

* `Binary64.magnitude`: the value of a mantissa with an exponent.
* `Binary64.reading`: the value of a datum.
* `Binary64.Fits`, `Binary64.Rounded`: mantissas that are as long as they can be, and data
  with such a mantissa.

## Main results

* `Binary64.rounded_unpack`: bits are taken apart into rounded data.
* `Binary64.le_iff`: comparing rounded data compares what they denote.
-/

namespace Safeguard.Binary64

open Float.Model (Format UnpackedFloat)
open Float.Model.UnpackedFloat (Sign unpack)

/-! ## Magnitudes -/

/-- The value of a mantissa with an exponent. -/
noncomputable def magnitude (m : ℕ) (e : ℤ) : ℝ := m * 2 ^ e

variable {m m' : ℕ} {e e' : ℤ}

theorem magnitude_pos (hm : 0 < m) : 0 < magnitude m e := by
  unfold magnitude
  positivity

theorem magnitude_nonneg (m : ℕ) (e : ℤ) : 0 ≤ magnitude m e := by
  unfold magnitude
  positivity

/-- Digits move between the mantissa and the exponent. -/
theorem magnitude_mul_two_pow (m : ℕ) (e : ℤ) (k : ℕ) :
    magnitude (m * 2 ^ k) e = magnitude m (e + k) := by
  unfold magnitude
  rw [zpow_add₀ two_ne_zero, zpow_natCast]
  push_cast
  ring

theorem magnitude_le_magnitude (e : ℤ) : magnitude m e ≤ magnitude m' e ↔ m ≤ m' := by
  unfold magnitude
  rw [mul_le_mul_iff_left₀ (by positivity), Nat.cast_le]

theorem magnitude_lt_magnitude (e : ℤ) : magnitude m e < magnitude m' e ↔ m < m' := by
  rw [← not_le, magnitude_le_magnitude, not_le]

/-! ## Mantissas that are as long as they can be -/

/-- The mantissa has no more digits than there is room for, and it has no fewer unless the
exponent is the least one. -/
structure Fits (m : ℕ) (e : ℤ) : Prop where
  lt : m < 2 ^ 53
  least_le : -1074 ≤ e
  full : e = -1074 ∨ 2 ^ 52 ≤ m

/-- Of two mantissas that fit, the one with the larger exponent is worth more. -/
theorem Fits.magnitude_lt (h : Fits m e) (h' : Fits m' e') (he : e < e') :
    magnitude m e < magnitude m' e' := by
  have hfull : 2 ^ 52 ≤ m' := h'.full.resolve_left (by have := h.least_le; omega)
  obtain ⟨k, rfl⟩ : ∃ k : ℕ, e' = e + (k + 1 : ℕ) := ⟨(e' - e - 1).toNat, by omega⟩
  have hdouble : 2 * m' ≤ m' * 2 ^ (k + 1) := by
    rw [pow_succ, mul_comm 2, ← mul_assoc]
    exact Nat.mul_le_mul_right 2 (Nat.le_mul_of_pos_right m' (by positivity))
  rw [← magnitude_mul_two_pow, magnitude_lt_magnitude]
  have := h.lt
  omega

/-- Comparing exponents before mantissas compares magnitudes. -/
theorem Fits.compare_eq (h : Fits m e) (h' : Fits m' e') :
    (compare e e').then (compare m m') = compare (magnitude m e) (magnitude m' e') := by
  obtain hlt | rfl | hlt := lt_trichotomy e e'
  · rw [compare_lt_iff_lt.mpr hlt, compare_lt_iff_lt.mpr (h.magnitude_lt h' hlt)]
    rfl
  · rw [Std.compare_self, Ordering.eq_then]
    obtain hm | rfl | hm := lt_trichotomy m m'
    · rw [compare_lt_iff_lt.mpr hm, compare_lt_iff_lt.mpr ((magnitude_lt_magnitude e).mpr hm)]
    · rw [Std.compare_self, compare_eq_iff_eq.mpr rfl]
    · rw [compare_gt_iff_gt.mpr hm, compare_gt_iff_gt.mpr ((magnitude_lt_magnitude e).mpr hm)]
  · rw [compare_gt_iff_gt.mpr hlt, compare_gt_iff_gt.mpr (h'.magnitude_lt h hlt)]
    rfl

/-! ## Readings -/

/-- What a datum denotes. One that denotes nothing is read as zero. -/
noncomputable def reading : UnpackedFloat → EReal
  | .notANumber => 0
  | .infinity .positive => ⊤
  | .infinity .negative => ⊥
  | .zero _ => 0
  | .finite .positive m e _ => (magnitude m e : EReal)
  | .finite .negative m e _ => ((-magnitude m e : ℝ) : EReal)

variable {u v : UnpackedFloat} {hm : 0 < m}

@[simp] theorem reading_positive :
    reading (.finite .positive m e hm) = (magnitude m e : EReal) := rfl

@[simp] theorem reading_negative :
    reading (.finite .negative m e hm) = ((-magnitude m e : ℝ) : EReal) := rfl

theorem reading_pos : 0 < reading (.finite .positive m e hm) :=
  EReal.coe_pos.mpr (magnitude_pos hm)

theorem reading_neg : reading (.finite .negative m e hm) < 0 := by
  rw [reading_negative]
  exact EReal.coe_neg'.mpr (neg_neg_of_pos (magnitude_pos hm))

theorem reading_lt_top (h : u ≠ .infinity .positive) : reading u < ⊤ := by
  rcases u with (_ | _) | _ | _ | ⟨_ | _, m, e, hm⟩
  · exact bot_lt_top
  · exact absurd rfl h
  · exact EReal.zero_lt_top
  · exact EReal.zero_lt_top
  · exact EReal.coe_lt_top _
  · exact EReal.coe_lt_top _

theorem bot_lt_reading (h : u ≠ .infinity .negative) : ⊥ < reading u := by
  rcases u with (_ | _) | _ | _ | ⟨_ | _, m, e, hm⟩
  · exact absurd rfl h
  · exact bot_lt_top
  · exact EReal.bot_lt_zero
  · exact EReal.bot_lt_zero
  · exact EReal.bot_lt_coe _
  · exact EReal.bot_lt_coe _

/-- All data that are not below zero. -/
theorem cases_of_reading_nonneg (h : 0 ≤ reading u) :
    u = .notANumber ∨ u = .infinity .positive ∨ (∃ s, u = .zero s) ∨
      ∃ m e hm, u = .finite .positive m e hm := by
  rcases u with (_ | _) | _ | s | ⟨_ | _, m, e, hm⟩
  · exact absurd h (not_le.mpr EReal.bot_lt_zero)
  · exact .inr (.inl rfl)
  · exact .inl rfl
  · exact .inr (.inr (.inl ⟨s, rfl⟩))
  · exact absurd h (not_le.mpr reading_neg)
  · exact .inr (.inr (.inr ⟨m, e, hm, rfl⟩))

/-! ## Rounded data -/

/-- A datum whose mantissa, if it has one, fits. -/
inductive Rounded : UnpackedFloat → Prop
  | notANumber : Rounded .notANumber
  | infinity (s : Sign) : Rounded (.infinity s)
  | zero (s : Sign) : Rounded (.zero s)
  | finite {s : Sign} {m : ℕ} {e : ℤ} {hm : 0 < m} (fits : Fits m e) :
      Rounded (.finite s m e hm)

/-- The leading digit of a mantissa is not among its bits. -/
theorem toNat_one_append (bits : BitVec 52) : (1#1 ++ bits).toNat = 2 ^ 52 + bits.toNat := by
  rw [BitVec.toNat_append, ← Nat.shiftLeft_add_eq_or_of_lt bits.isLt]
  simp

theorem rounded_unpack (bits : BitVec Format.binary64.numBits) :
    Rounded (unpack .binary64 bits) := by
  fun_cases unpack with
  | case1 => exact .infinity _
  | case2 => exact .notANumber
  | case3 => exact .zero _
  | case4 mantissa exponent e sign s hinfinite hexponent hmantissa =>
    -- The least exponent, where mantissas may be short.
    have he : e + 1 = -1074 := by
      simp only [e, hexponent]
      rfl
    have hlt : mantissa.toNat < 2 ^ 52 := mantissa.isLt
    exact .finite ⟨by omega, he.ge, .inl he⟩
  | case5 mantissa exponent e sign s hinfinite hexponent =>
    have hlt : mantissa.toNat < 2 ^ 52 := mantissa.isLt
    have hm : (1#1 ++ mantissa).toNat = 2 ^ 52 + mantissa.toNat := toNat_one_append mantissa
    have he : e = exponent.toNat - 1075 := rfl
    have hzero : exponent.toNat ≠ 0 := fun h => hexponent (BitVec.eq_of_toNat_eq h)
    exact .finite ⟨by omega, by omega, .inr (by omega)⟩

/-! ## Comparing -/

theorem compare_coe (x y : ℝ) : compare (x : EReal) y = compare x y := by
  obtain h | rfl | h := lt_trichotomy x y
  · rw [compare_lt_iff_lt.mpr h, compare_lt_iff_lt.mpr (EReal.coe_lt_coe_iff.mpr h)]
  · rw [compare_eq_iff_eq.mpr rfl, compare_eq_iff_eq.mpr rfl]
  · rw [compare_gt_iff_gt.mpr h, compare_gt_iff_gt.mpr (EReal.coe_lt_coe_iff.mpr h)]

theorem swap_compare (x y : ℝ) : (compare x y).swap = compare (-x) (-y) := by
  obtain h | rfl | h := lt_trichotomy x y
  · rw [compare_lt_iff_lt.mpr h, compare_gt_iff_gt.mpr (neg_lt_neg h)]
    rfl
  · rw [compare_eq_iff_eq.mpr rfl, compare_eq_iff_eq.mpr rfl]
    rfl
  · rw [compare_gt_iff_gt.mpr h, compare_lt_iff_lt.mpr (neg_lt_neg h)]
    rfl

/-- Comparing rounded data that denote something compares what they denote. -/
theorem compare_eq (hu : Rounded u) (hv : Rounded v) (hu' : u ≠ .notANumber)
    (hv' : v ≠ .notANumber) : u.compare v = some (compare (reading u) (reading v)) := by
  have hlt {x y : EReal} (h : x < y) : some Ordering.lt = some (compare x y) :=
    congrArg some (compare_lt_iff_lt.mpr h).symm
  have hgt {x y : EReal} (h : y < x) : some Ordering.gt = some (compare x y) :=
    congrArg some (compare_gt_iff_gt.mpr h).symm
  have heq (x : EReal) : some Ordering.eq = some (compare x x) :=
    congrArg some (compare_eq_iff_eq.mpr rfl).symm
  fun_cases UnpackedFloat.compare u v with
  | case1 => exact absurd rfl hu'
  | case2 => exact absurd rfl hv'
  | case3 s t =>
    cases s <;> cases t
    · exact heq ⊥
    · exact hlt bot_lt_top
    · exact hgt bot_lt_top
    · exact heq ⊤
  | case4 _ _ hv => exact hgt (reading_lt_top (hv _))
  | case5 _ _ hv => exact hlt (bot_lt_reading (hv _))
  | case6 _ _ hu => exact hlt (reading_lt_top (hu _))
  | case7 _ _ hu => exact hgt (bot_lt_reading (hu _))
  | case8 => exact hgt reading_pos
  | case9 => exact hlt reading_neg
  | case10 => exact hlt reading_pos
  | case11 => exact hgt reading_neg
  | case12 => exact heq 0
  | case13 =>
    cases hu with | finite h =>
    cases hv with | finite h' =>
    rw [h.compare_eq h', reading_negative, reading_negative, compare_coe, swap_compare]
  | case14 => exact hlt (reading_neg.trans reading_pos)
  | case15 => exact hgt (reading_neg.trans reading_pos)
  | case16 =>
    cases hu with | finite h =>
    cases hv with | finite h' =>
    rw [h.compare_eq h', reading_positive, reading_positive, compare_coe]

theorem le_iff (hu : Rounded u) (hv : Rounded v) :
    u.le v = true ↔ u ≠ .notANumber ∧ v ≠ .notANumber ∧ reading u ≤ reading v := by
  by_cases hu' : u = .notANumber
  · subst hu'
    simp [UnpackedFloat.le, UnpackedFloat.compare]
  by_cases hv' : v = .notANumber
  · subst hv'
    cases u <;> simp [UnpackedFloat.le, UnpackedFloat.compare]
  rw [UnpackedFloat.le, compare_eq hu hv hu' hv', Option.any_some, ← compare_le_iff_le]
  simp [hu', hv', Ordering.isLE_iff_ne_gt]

end Safeguard.Binary64
