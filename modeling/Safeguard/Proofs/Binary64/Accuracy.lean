import Safeguard.Proofs.Binary64.Numbers

/-!
# What rounding leaves of a number

Rounding takes something away from an exact value, but not much: a number with few enough digits
that was not above the value is not above what comes out either, and there is such a number close
below every value. So all that a computation with numbers that are not below zero can lose is a
small part of each intermediate result, and a little more where numbers get too small for their
digits. An infinity is more than anything that was wanted.

Only these bounds from below are needed where a computation has to lead far enough, as that of a
delay has to.

## Main definitions

* `Binary64.Retains`: a datum that is not below the numbers that an exact value is not below.
* `Binary64.left`: what rounding leaves of a value at least, its `Binary64.share` less the
  `Binary64.least` number.
* `Binary64.AtLeast`: a number that has a given value at least.

## Main results

* `Binary64.AtLeast.add`, `Binary64.AtLeast.mul`, `Binary64.AtLeast.div`, `Binary64.AtLeast.sub`:
  operations retain their exact results.
* `Binary64.Retains.atLeast`: what is left of them.
* `Binary64.atLeast_seconds`: spans of time as numbers of seconds.
-/

namespace Safeguard.Binary64

open Float.Model (Format UnpackedFloat)
open Float.Model.UnpackedFloat

variable {u v : UnpackedFloat} {m m' r g : ℕ} {e e' t : ℤ} {a b : ℝ}

/-! ## Numbers below a value -/

/-- A number with few enough digits that is not above a value is not above the neighbour to which
the value is rounded. -/
theorem magnitude_le_of_full (hge : ∀ g, magnitude g e ≤ a → g ≤ r)
    (hfull : e = -1074 ∨ 2 ^ 52 ≤ r) (hg : g < 2 ^ 53) (ht : -1074 ≤ t)
    (hle : magnitude g t ≤ a) : magnitude g t ≤ magnitude r e := by
  obtain het | hte := le_or_gt e t
  · obtain ⟨k, rfl⟩ : ∃ k : ℕ, t = e + k := ⟨(t - e).toNat, by omega⟩
    rw [← magnitude_mul_two_pow] at hle ⊢
    exact (magnitude_le_magnitude e).mpr (hge _ hle)
  · -- The neighbour has all digits there is room for, and a larger exponent.
    have hr : 2 ^ 52 ≤ r := hfull.resolve_left (by omega)
    obtain ⟨k, rfl⟩ : ∃ k : ℕ, e = t + (k + 1 : ℕ) := ⟨(e - t - 1).toNat, by omega⟩
    have hdouble : r * 2 ≤ r * 2 ^ (k + 1) :=
      Nat.mul_le_mul_left r (by rw [pow_succ]; exact Nat.le_mul_of_pos_left 2 (by positivity))
    rw [← magnitude_mul_two_pow, magnitude_le_magnitude]
    omega

/-- A datum that denotes something not below zero, and not below any number with few enough digits
that a value is not below. -/
structure Retains (a : ℝ) (u : UnpackedFloat) : Prop where
  denotes : u ≠ .notANumber
  nonneg : 0 ≤ reading u
  le : ∀ g t, g < 2 ^ 53 → -1074 ≤ t → magnitude g t ≤ a → (magnitude g t : EReal) ≤ reading u

theorem Retains.mono (h : Retains b u) (hle : a ≤ b) : Retains a u :=
  ⟨h.denotes, h.nonneg, fun g t hg ht ha => h.le g t hg ht (ha.trans hle)⟩

/-- What is at least a value retains it. -/
theorem retains_of_le (hu : u ≠ .notANumber) (hnonneg : 0 ≤ reading u)
    (h : (a : EReal) ≤ reading u) : Retains a u :=
  ⟨hu, hnonneg, fun _ _ _ _ ha => (EReal.coe_le_coe_iff.mpr ha).trans h⟩

/-- An infinity retains every value. -/
theorem retains_infinity (a : ℝ) : Retains a (.infinity .positive) :=
  retains_of_le nofun le_top le_top

/-- Packing a rounded datum loses nothing but what is beyond the largest number. -/
theorem Retains.kept (h : Retains a u) (hu : Rounded u) : Retains a (kept u) := by
  cases hu with
  | notANumber => exact absurd rfl h.denotes
  | infinity s => rwa [kept_infinity]
  | zero s => cases s <;> exact h
  | @finite s m e hm fits =>
    cases s with
    | negative => exact absurd h.nonneg (not_le.mpr reading_neg)
    | positive =>
      rw [fits.kept_eq]
      split
      · exact h
      · exact retains_infinity a

/-- Cutting digits off and rounding retains a value, whatever is known about digits that were cut
off before. -/
theorem retains_roundWithAccuracy (accuracy : Accuracy) (he : e ≤ scale m e)
    (ha : ∀ g : ℕ, magnitude g e ≤ a → g ≤ m) :
    Retains a (roundWithAccuracy .binary64 .positive m e accuracy) := by
  obtain ⟨k, hk⟩ : ∃ k : ℕ, scale m e = e + k := ⟨(scale m e - e).toNat, by omega⟩
  obtain ⟨-, hfull, hreading⟩ := roundWithAccuracy_spec hk .positive accuracy
  refine ⟨roundWithAccuracy_ne_notANumber _ _ _ _, reading_roundWithAccuracy_nonneg ..,
    fun g t hg ht hle => ?_⟩
  rw [hreading rfl, EReal.coe_le_coe_iff]
  refine magnitude_le_of_full (fun g' hg' => ?_) hfull hg ht hle
  -- A multiple of the larger unit is one of the smaller unit.
  refine le_trans ?_ (mantissa_le_roundedMantissa _)
  rw [hk, ← magnitude_mul_two_pow] at hg'
  rw [mantissa_shiftRight, Nat.le_div_iff_mul_le (by positivity)]
  exact ha _ hg'

theorem retains_round (hm : 0 < m) (e : ℤ) :
    Retains (magnitude m e) (UnpackedFloat.round .binary64 .positive m e) := by
  set k := (e - scale m e).toNat with hk
  have hround : UnpackedFloat.round .binary64 .positive m e =
      roundWithAccuracy .binary64 .positive (m * 2 ^ k) (e - k) .exact := by
    rw [← Nat.shiftLeft_eq]
    rfl
  have hvalue : magnitude (m * 2 ^ k) (e - k) = magnitude m e := by
    rw [magnitude_mul_two_pow, sub_add_cancel]
  rw [hround, ← hvalue]
  refine retains_roundWithAccuracy .exact ?_ fun g hg => (magnitude_le_magnitude _).mp hg
  rw [scale_mul_two_pow hm, sub_add_cancel]
  omega

theorem retains_normalize {m : ℤ} (hm : 0 < m) (e : ℤ) (s : Sign) (ha : a ≤ (m : ℝ) * 2 ^ e) :
    Retains a (UnpackedFloat.normalize .binary64 m e s) := by
  have hcast : ((m.toNat : ℕ) : ℝ) = m := by exact_mod_cast Int.toNat_of_nonneg hm.le
  have hround : UnpackedFloat.normalize .binary64 m e s =
      UnpackedFloat.round .binary64 .positive m.toNat e := by
    unfold UnpackedFloat.normalize
    rw [compare_gt_iff_gt.mpr hm]
  rw [hround]
  refine (retains_round (by omega) e).mono ?_
  rwa [magnitude, hcast]

/-! ## Operations on data -/

theorem retains_add (hu : u ≠ .notANumber) (hv : v ≠ .notANumber) (hu' : 0 ≤ reading u)
    (hv' : 0 ≤ reading v) (ha : a ≤ reading u) (hb : b ≤ reading v) :
    Retains (a + b) (add .binary64 u v) := by
  obtain rfl | rfl | ⟨s, rfl⟩ | ⟨m, e, hm, rfl⟩ := cases_of_reading_nonneg hu'
  · exact absurd rfl hu
  · obtain rfl | rfl | ⟨s', rfl⟩ | ⟨m', e', hm', rfl⟩ := cases_of_reading_nonneg hv'
    · exact absurd rfl hv
    all_goals exact retains_infinity _
  · have ha' : a ≤ 0 := EReal.coe_nonpos.mp ha
    obtain rfl | rfl | ⟨s', rfl⟩ | ⟨m', e', hm', rfl⟩ := cases_of_reading_nonneg hv'
    · exact absurd rfl hv
    · exact retains_infinity _
    · have hb' : b ≤ 0 := EReal.coe_nonpos.mp hb
      cases s <;> cases s' <;>
        exact retains_of_le nofun le_rfl (EReal.coe_nonpos.mpr (add_nonpos ha' hb'))
    · exact retains_of_le nofun hv' ((EReal.coe_le_coe_iff.mpr (by linarith)).trans hb)
  · obtain rfl | rfl | ⟨s', rfl⟩ | ⟨m', e', hm', rfl⟩ := cases_of_reading_nonneg hv'
    · exact absurd rfl hv
    · exact retains_infinity _
    · have hb' : b ≤ 0 := EReal.coe_nonpos.mp hb
      exact retains_of_le nofun hu' ((EReal.coe_le_coe_iff.mpr (by linarith)).trans ha)
    · have hleft := decreaseExponent_eq m (min_le_left e e')
      have hright := decreaseExponent_eq m' (min_le_right e e')
      have hpos : 0 < (decreaseExponent m e (min e e')).1 := by
        simp only [decreaseExponent, Nat.shiftLeft_eq]
        positivity
      have ha' := EReal.coe_le_coe_iff.mp ha
      have hb' := EReal.coe_le_coe_iff.mp hb
      change Retains (a + b) (UnpackedFloat.normalize .binary64
        ((decreaseExponent m e (min e e')).1 + (decreaseExponent m' e' (min e e')).1 : ℤ)
        (min e e') _)
      refine retains_normalize (by omega) (min e e') _ ?_
      rw [Int.cast_add, Int.cast_natCast, Int.cast_natCast, add_mul, hleft, hright]
      exact add_le_add ha' hb'

/-- A difference is bounded from below by what is taken away at most. -/
theorem retains_sub (hu : u ≠ .notANumber) (hv : v ≠ .notANumber) (hv' : 0 ≤ reading v)
    (ha : a ≤ reading u) (hb : reading v ≤ b) (hba : b < a) :
    Retains (a - b) (sub .binary64 u v) := by
  have hb' : 0 ≤ b := EReal.coe_nonneg.mp (hv'.trans hb)
  have hu' : 0 ≤ reading u := (EReal.coe_nonneg.mpr (hb'.trans hba.le)).trans ha
  obtain rfl | rfl | ⟨s, rfl⟩ | ⟨m, e, hm, rfl⟩ := cases_of_reading_nonneg hu'
  · exact absurd rfl hu
  · obtain rfl | rfl | ⟨s', rfl⟩ | ⟨m', e', hm', rfl⟩ := cases_of_reading_nonneg hv'
    · exact absurd rfl hv
    · exact absurd hb (not_le.mpr (EReal.coe_lt_top b))
    all_goals exact retains_infinity _
  · exact absurd (EReal.coe_nonpos.mp ha) (not_le.mpr (hb'.trans_lt hba))
  · obtain rfl | rfl | ⟨s', rfl⟩ | ⟨m', e', hm', rfl⟩ := cases_of_reading_nonneg hv'
    · exact absurd rfl hv
    · exact absurd hb (not_le.mpr (EReal.coe_lt_top b))
    · exact retains_of_le nofun hu' ((EReal.coe_le_coe_iff.mpr (by linarith)).trans ha)
    · have hleft := decreaseExponent_eq m (min_le_left e e')
      have hright := decreaseExponent_eq m' (min_le_right e e')
      have ha' := EReal.coe_le_coe_iff.mp ha
      have hb'' := EReal.coe_le_coe_iff.mp hb
      have hlt : ((decreaseExponent m' e' (min e e')).1 : ℝ) <
          (decreaseExponent m e (min e e')).1 := by
        refine lt_of_mul_lt_mul_right (a := (2 : ℝ) ^ min e e') ?_ (by positivity)
        rw [hleft, hright]
        linarith
      have hlt' := Nat.cast_lt.mp hlt
      change Retains (a - b) (UnpackedFloat.normalize .binary64
        ((decreaseExponent m e (min e e')).1 - (decreaseExponent m' e' (min e e')).1 : ℤ)
        (min e e') _)
      refine retains_normalize (by omega) (min e e') _ ?_
      rw [Int.cast_sub, Int.cast_natCast, Int.cast_natCast, sub_mul, hleft, hright]
      exact sub_le_sub ha' hb''

/-- What is more than nothing is an infinity or a magnitude. -/
theorem cases_of_reading_pos (h : 0 < reading u) :
    u = .infinity .positive ∨ ∃ m e hm, u = .finite .positive m e hm := by
  obtain rfl | rfl | ⟨s, rfl⟩ | ⟨m, e, hm, rfl⟩ := cases_of_reading_nonneg h.le
  · exact absurd h (lt_irrefl _)
  · exact .inl rfl
  · exact absurd h (lt_irrefl _)
  · exact .inr ⟨m, e, hm, rfl⟩

theorem magnitude_mul_magnitude (m m' : ℕ) (e e' : ℤ) :
    magnitude (m * m') (e + e') = magnitude m e * magnitude m' e' := by
  unfold magnitude
  rw [zpow_add₀ two_ne_zero, Nat.cast_mul]
  ring

/-- The product of two mantissas that fit has digits enough. -/
theorem Fits.add_le_scale (h : Fits m e) (h' : Fits m' e') (hm : 0 < m)
    (hm' : 0 < m') : e + e' ≤ scale (m * m') (e + e') := by
  have hleast := h.least_le
  have hleast' := h'.least_le
  have hlog (hproduct : 2 ^ 52 ≤ m * m') : 52 ≤ (m * m').log2 :=
    (Nat.le_log2 (Nat.mul_pos hm hm').ne').mpr hproduct
  rw [Binary64.scale_eq]
  obtain he | hfull := h.full
  · obtain he' | hfull' := h'.full
    · omega
    · have := hlog (hfull'.trans (Nat.le_mul_of_pos_left m' hm))
      omega
  · have := hlog (hfull.trans (Nat.le_mul_of_pos_right m hm'))
    omega

/-- A product with a finite factor above zero is bounded from below by both factors. -/
theorem retains_mul (hu : Rounded u) (hv : Rounded v) (hu' : u ≠ .notANumber)
    (hnonneg : 0 ≤ reading u) (hau : a ≤ reading u) (hb : 0 < b) (hbv : b ≤ reading v)
    (hfinite : reading v < ⊤) : Retains (a * b) (mul .binary64 u v) := by
  obtain rfl | ⟨m', e', hm', rfl⟩ := cases_of_reading_pos ((EReal.coe_pos.mpr hb).trans_le hbv)
  · exact absurd hfinite (lt_irrefl _)
  obtain rfl | rfl | ⟨s, rfl⟩ | ⟨m, e, hm, rfl⟩ := cases_of_reading_nonneg hnonneg
  · exact absurd rfl hu'
  · exact retains_infinity _
  · have hab : a * b ≤ 0 := mul_nonpos_of_nonpos_of_nonneg (EReal.coe_nonpos.mp hau) hb.le
    exact retains_of_le nofun le_rfl (EReal.coe_nonpos.mpr hab)
  · cases hu with | finite fits =>
    cases hv with | finite fits' =>
    refine Retains.mono (b := magnitude (m * m') (e + e')) ?_ ?_
    · exact retains_roundWithAccuracy .exact (fits.add_le_scale fits' hm hm')
        fun g hg => (magnitude_le_magnitude _).mp hg
    · rw [magnitude_mul_magnitude]
      exact mul_le_mul (EReal.coe_le_coe_iff.mp hau) (EReal.coe_le_coe_iff.mp hbv) hb.le
        (magnitude_nonneg m e)

/-- The exponent at which a quotient is computed: its mantissa gets 53 digits, or it ends at the
least exponent. -/
def quotientScale (m : ℕ) (e : ℤ) (m' : ℕ) (e' : ℤ) : ℤ :=
  min (e - e') (max (m.log2 + 1 + e - (m'.log2 + 1 + e') - 53) (-1074))

/-- A quotient is computed from a dividend with enough digits. -/
theorem exists_div (hm : 0 < m) (hm' : 0 < m') (e e' : ℤ) (s s' : Sign) :
    ∃ k : ℕ, e - e' - quotientScale m e m' e' = k ∧
      quotientScale m e m' e' ≤ scale (m * 2 ^ k / m') (quotientScale m e m' e') ∧
      div .binary64 (.finite s m e hm) (.finite s' m' e' hm') =
        roundWithAccuracy .binary64 (s / s') (m * 2 ^ k / m') (quotientScale m e m' e')
          (accuracyOfFraction (m * 2 ^ k % m') m') := by
  have hle : quotientScale m e m' e' ≤ e - e' := min_le_left ..
  have ht : quotientScale m e m' e' ≤
      max (m.log2 + 1 + e - (m'.log2 + 1 + e') - 53) (-1074) := min_le_right ..
  obtain ⟨k, hk⟩ : ∃ k : ℕ, e - e' - quotientScale m e m' e' = k :=
    ⟨(e - e' - quotientScale m e m' e').toNat, by omega⟩
  refine ⟨k, hk, ?_, ?_⟩
  · rw [scale_eq]
    obtain hleast | hnormal := le_or_gt (quotientScale m e m' e') (-1074)
    · exact hleast.trans (le_max_right ..)
    -- The dividend has 53 digits more than the divisor, so the quotient has 53 or 54.
    have hquotient : 2 ^ 52 ≤ m * 2 ^ k / m' := by
      rw [Nat.le_div_iff_mul_le hm']
      calc 2 ^ 52 * m' ≤ 2 ^ 52 * 2 ^ (m'.log2 + 1) := Nat.mul_le_mul_left _ Nat.lt_log2_self.le
        _ = 2 ^ (52 + (m'.log2 + 1)) := (pow_add ..).symm
        _ ≤ 2 ^ (m.log2 + k) := Nat.pow_le_pow_right two_pos (by omega)
        _ = 2 ^ m.log2 * 2 ^ k := pow_add ..
        _ ≤ m * 2 ^ k := Nat.mul_le_mul_right _ (Nat.log2_self_le hm.ne')
    have hdigits := (Nat.le_log2 (by omega)).mpr hquotient
    omega
  · have hk' : (e - e' - quotientScale m e m' e').toNat = k := by omega
    rw [← hk', ← Nat.shiftLeft_eq]
    rfl

/-- A quotient is bounded from below by a divisor that is above zero. -/
theorem retains_div (hu : u ≠ .notANumber) (hu' : 0 ≤ reading u) (hau : a ≤ reading u)
    (hv : 0 < reading v) (hvb : reading v ≤ b) : Retains (a / b) (div .binary64 u v) := by
  have hb : 0 < b := EReal.coe_pos.mp (hv.trans_le hvb)
  obtain rfl | ⟨m', e', hm', rfl⟩ := cases_of_reading_pos hv
  · exact absurd hvb (not_le.mpr (EReal.coe_lt_top b))
  obtain rfl | rfl | ⟨s, rfl⟩ | ⟨m, e, hm, rfl⟩ := cases_of_reading_nonneg hu'
  · exact absurd rfl hu
  · exact retains_infinity _
  · have ha : a / b ≤ 0 := div_nonpos_of_nonpos_of_nonneg (EReal.coe_nonpos.mp hau) hb.le
    exact retains_of_le nofun le_rfl (EReal.coe_nonpos.mpr ha)
  · obtain ⟨k, hk, hscale, hdiv⟩ := exists_div hm hm' e e' .positive .positive
    generalize quotientScale m e m' e' = t at hk hscale hdiv
    rw [hdiv]
    refine retains_roundWithAccuracy _ hscale fun g hg => ?_
    rw [Nat.le_div_iff_mul_le hm', ← magnitude_le_magnitude (t + e')]
    -- In units of the quotient's scale times the divisor's both sides are whole numbers.
    have hdividend : magnitude (m * 2 ^ k) (t + e') = magnitude m e := by
      rw [magnitude_mul_two_pow]
      congr 1
      omega
    rw [hdividend, magnitude_mul_magnitude]
    calc magnitude g t * magnitude m' e' ≤ a / b * b :=
          mul_le_mul hg (EReal.coe_le_coe_iff.mp hvb) (magnitude_nonneg m' e')
            ((magnitude_nonneg g t).trans hg)
      _ = a := div_mul_cancel₀ a hb.ne'
      _ ≤ magnitude m e := EReal.coe_le_coe_iff.mp hau

theorem rounded_mul (hu : Rounded u) (hv : Rounded v) : Rounded (mul .binary64 u v) := by
  cases hu <;> cases hv
  case finite.finite hm fits _ _ _ hm' fits' =>
    exact (exists_roundWithAccuracy (fits.add_le_scale fits' hm hm') _).1
  all_goals
    first
    | exact .notANumber
    | exact .infinity _
    | exact .zero _

theorem rounded_div (hu : Rounded u) (hv : Rounded v) : Rounded (div .binary64 u v) := by
  cases hu <;> cases hv
  case finite.finite s m e hm _ s' m' e' hm' _ =>
    obtain ⟨k, -, hscale, hdiv⟩ := exists_div hm hm' e e' s s'
    obtain ⟨j, hj⟩ := Int.le.dest hscale
    rw [hdiv]
    exact (roundWithAccuracy_spec hj.symm _ _).1
  all_goals
    first
    | exact .notANumber
    | exact .infinity _
    | exact .zero _

/-! ## What is left of a value -/

/-- The share of a value that rounding leaves. -/
noncomputable def share : ℝ := 1 - magnitude 1 (-52)

/-- The least number above zero. -/
noncomputable def least : ℝ := magnitude 1 (-1074)

theorem share_eq : share = 1 - 1 / 2 ^ 52 := by norm_num [share, magnitude]

theorem least_eq : least = 2 ^ (-1074 : ℤ) := by rw [least, magnitude, Nat.cast_one, one_mul]

theorem share_pos : 0 < share := by norm_num [share_eq]

theorem share_le_one : share ≤ 1 := by norm_num [share_eq]

theorem least_pos : 0 < least := magnitude_pos one_pos

/-- The least number is far too small to matter. -/
theorem least_le : least ≤ 2 ^ (-200 : ℤ) :=
  least_eq.trans_le (zpow_le_zpow_right₀ one_le_two (by norm_num))

/-- A few roundings lose a few parts. -/
theorem one_sub_le_share_pow (k : ℕ) : 1 - k * (1 / 2 ^ 52) ≤ share ^ k := by
  have hbernoulli := one_add_mul_le_pow (a := -(1 : ℝ) / 2 ^ 52) (by norm_num) k
  rwa [neg_div, mul_neg, ← sub_eq_add_neg, ← sub_eq_add_neg, ← share_eq] at hbernoulli

/-- What rounding leaves of a value at least: one part in `2 ^ 52` may be lost, and the least
number where numbers are too small for that. -/
noncomputable def left (a : ℝ) : ℝ := share * a - least

theorem left_nonpos (h : a ≤ 0) : left a ≤ 0 :=
  sub_nonpos.mpr ((mul_nonpos_of_nonneg_of_nonpos share_pos.le h).trans least_pos.le)

/-- There is a number with few enough digits close below every value. -/
theorem exists_magnitude_le (ha : 0 ≤ a) :
    ∃ g t, g < 2 ^ 53 ∧ -1074 ≤ t ∧ magnitude g t ≤ a ∧ left a ≤ magnitude g t := by
  obtain rfl | hpos := ha.eq_or_lt
  · refine ⟨0, 0, by norm_num, by norm_num, by simp [magnitude], ?_⟩
    exact (left_nonpos le_rfl).trans (magnitude_nonneg 0 0)
  -- The unit that gives 53 digits, unless the least exponent is reached before.
  set t := max (Int.log 2 a - 52) (-1074) with ht
  have hunit : (0 : ℝ) < 2 ^ t := by positivity
  refine ⟨⌊a / 2 ^ t⌋₊, t, ?_, le_max_right .., ?_, ?_⟩
  · rw [Nat.floor_lt (by positivity), div_lt_iff₀ hunit]
    calc a < (2 : ℝ) ^ (Int.log 2 a + 1) := Int.lt_zpow_succ_log_self one_lt_two a
      _ ≤ 2 ^ (53 + t) := zpow_le_zpow_right₀ one_le_two (by omega)
      _ = ((2 ^ 53 : ℕ) : ℝ) * 2 ^ t := by
        rw [zpow_add₀ two_ne_zero]
        norm_num
  · exact (le_div_iff₀ hunit).mp (Nat.floor_le (by positivity))
  · -- One unit is missing at most, which is small against the value or the least there is.
    have hmissing : (2 : ℝ) ^ t ≤ 1 / 2 ^ 52 * a + 2 ^ (-1074 : ℤ) := by
      obtain h | h := max_choice (Int.log 2 a - 52) (-1074)
      · have hdigits : (2 : ℝ) ^ (-52 : ℤ) = 1 / 2 ^ 52 := by norm_num
        have hlog := Int.zpow_log_le_self one_lt_two hpos
        have hscaled := mul_le_mul_of_nonneg_left hlog (by positivity : (0 : ℝ) ≤ 1 / 2 ^ 52)
        rw [ht, h, sub_eq_neg_add, zpow_add₀ two_ne_zero, hdigits]
        exact hscaled.trans (le_add_of_nonneg_right (by positivity))
      · rw [ht, h]
        exact le_add_of_nonneg_left (by positivity)
    have hfloor : a < (⌊a / 2 ^ t⌋₊ + 1) * 2 ^ t := (div_lt_iff₀ hunit).mp (Nat.lt_floor_add_one _)
    rw [add_one_mul] at hfloor
    rw [left, share_eq, least_eq, sub_mul, one_mul, magnitude]
    generalize (⌊a / 2 ^ t⌋₊ : ℝ) * 2 ^ t = below at hfloor ⊢
    linarith

theorem Retains.left_le (h : Retains a u) : (left a : EReal) ≤ reading u := by
  obtain hneg | hnonneg := lt_or_ge a 0
  · exact (EReal.coe_nonpos.mpr (left_nonpos hneg.le)).trans h.nonneg
  · obtain ⟨g, t, hg, ht, hle, hleft⟩ := exists_magnitude_le hnonneg
    exact (EReal.coe_le_coe_iff.mpr hleft).trans (h.le g t hg ht hle)

/-! ## Numbers that have a value at least -/

section Numbers

variable {x y : Float}

/-- A number that denotes something not below zero, and not below a value. -/
structure AtLeast (x : Float) (a : ℝ) : Prop where
  denotes : Denotes x
  nonneg : 0 ≤ value x
  le : (a : EReal) ≤ value x

theorem AtLeast.mono (h : AtLeast x b) (hle : a ≤ b) : AtLeast x a :=
  ⟨h.denotes, h.nonneg, (EReal.coe_le_coe_iff.mpr hle).trans h.le⟩

/-- What is left of a value is there at least. -/
theorem Retains.atLeast (h : Retains a x.toModel.unpack) : AtLeast x (left a) :=
  ⟨h.denotes, h.nonneg, h.left_le⟩

namespace AtLeast

theorem add (hx : AtLeast x a) (hy : AtLeast y b) : Retains (a + b) (x + y).toModel.unpack :=
  (retains_add hx.denotes hy.denotes hx.nonneg hy.nonneg hx.le hy.le).kept
    (rounded_add (rounded_unpack _) (rounded_unpack _))

theorem mul (hx : AtLeast x a) (hb : 0 < b) (hy : b ≤ value y) (hfinite : value y < ⊤) :
    Retains (a * b) (x * y).toModel.unpack :=
  (retains_mul (rounded_unpack _) (rounded_unpack _) hx.denotes hx.nonneg hx.le hb hy
    hfinite).kept (rounded_mul (rounded_unpack _) (rounded_unpack _))

theorem sub (hx : AtLeast x a) (hy : Denotes y) (hnonneg : 0 ≤ value y) (hb : value y ≤ b)
    (hba : b < a) : Retains (a - b) (x - y).toModel.unpack :=
  (retains_sub hx.denotes hy hnonneg hx.le hb hba).kept
    (rounded_sub (rounded_unpack _) (rounded_unpack _))

theorem div (hx : AtLeast x a) (hpos : 0 < value y) (hb : value y ≤ b) :
    Retains (a / b) (x / y).toModel.unpack :=
  (retains_div hx.denotes hx.nonneg hx.le hpos hb).kept
    (rounded_div (rounded_unpack _) (rounded_unpack _))

end AtLeast

/-- A count with few enough digits is represented exactly. -/
theorem atLeast_ofNat {n : ℕ} (hn : n < 2 ^ 53) : AtLeast (Float.ofNat n) n := by
  obtain ⟨hdenotes, hvalue⟩ := value_ofNat hn
  refine ⟨hdenotes, value_ofNat_nonneg n, hvalue ▸ ?_⟩
  simp [magnitude]

/-- Any count is rounded, however large it is. -/
theorem retains_ofNat (n : ℕ) : Retains n (Float.ofNat n).toModel.unpack := by
  by_cases hn : n < 2 ^ 53
  · have h := atLeast_ofNat hn
    exact retains_of_le h.denotes h.nonneg h.le
  · -- A large count is multiplied by a power of ten, which is one.
    have hfloat : Float.ofNat n = Float.ofModel (Float.Model.ofScientific n 0) :=
      dif_neg fun h => hn h.1
    have hround : UnpackedFloat.ofScientific .binary64 n 0 =
        roundWithAccuracy .binary64 .positive (n * 2 ^ 53) (-53) .exact := by
      have hexponent : (2 : ℤ) ^ Format.binary64.exponentBits = 2048 := rfl
      have hmantissa : Format.binary64.mantissaBits = 53 := rfl
      unfold UnpackedFloat.ofScientific mul
      rw [dif_neg (by omega), hexponent, if_neg (by omega), if_neg (by omega), if_pos le_rfl]
      simp only [hmantissa, Nat.shiftLeft_eq, Int.toNat_zero, pow_zero, mul_one, add_zero]
      rfl
    obtain ⟨k, hk⟩ : ∃ k : ℕ, scale (n * 2 ^ 53) (-53) = -53 + k := by
      have hscale : (-53 : ℤ) ≤ scale (n * 2 ^ 53) (-53) := by
        rw [scale_mul_two_pow (by omega), scale_eq]
        omega
      exact ⟨(scale (n * 2 ^ 53) (-53) + 53).toNat, by omega⟩
    have hvalue : magnitude (n * 2 ^ 53) (-53) = n := by
      rw [magnitude_mul_two_pow]
      simp [magnitude]
    rw [hfloat]
    change Retains n (Binary64.kept (UnpackedFloat.ofScientific .binary64 n 0))
    rw [hround]
    refine Retains.kept ?_ (roundWithAccuracy_spec hk _ _).1
    exact retains_roundWithAccuracy .exact (by omega) fun g hg =>
      (magnitude_le_magnitude _).mp (hg.trans hvalue.ge)

/-- Rounding a sum of two rounded values costs what rounding it twice would cost. -/
theorem le_left_add (a b : ℝ) : share ^ 2 * (a + b) - 3 * least ≤ left (left a + left b) := by
  have hleast : share * least ≤ least := mul_le_of_le_one_left least_pos.le share_le_one
  simp only [left]
  linarith

/-- A span of time as a number of seconds, which is put together from a whole number and a
fraction. -/
theorem atLeast_seconds (nanos : ℕ) :
    AtLeast (Scalar.seconds nanos)
      (share ^ 2 * (nanos / nanosPerSecond) - 3 * least) := by
  have hsecond : value (Float.ofNat nanosPerSecond) = ((nanosPerSecond : ℝ) : EReal) := by
    rw [(value_ofNat (by norm_num)).2]
    simp [magnitude]
  have hpos : 0 < value (Float.ofNat nanosPerSecond) := by
    rw [hsecond]
    exact EReal.coe_pos.mpr (by norm_num)
  have hwhole := (retains_ofNat (nanos / nanosPerSecond)).atLeast
  have hrest := atLeast_ofNat (n := nanos % nanosPerSecond)
    ((Nat.mod_lt _ (by norm_num)).trans (by norm_num))
  have hfraction := (hrest.div hpos hsecond.le).atLeast
  have hsplit : (nanos : ℝ) / nanosPerSecond =
      (nanos / nanosPerSecond : ℕ) + (nanos % nanosPerSecond : ℕ) / nanosPerSecond := by
    have hsum : (nanos : ℝ) =
        (nanosPerSecond : ℕ) * (nanos / nanosPerSecond : ℕ) + (nanos % nanosPerSecond : ℕ) := by
      exact_mod_cast (Nat.div_add_mod nanos nanosPerSecond).symm
    have hne : ((nanosPerSecond : ℕ) : ℝ) ≠ 0 := by norm_num
    rw [div_eq_iff hne, add_mul, div_mul_cancel₀ _ hne, mul_comm]
    exact hsum
  rw [hsplit]
  exact (hwhole.add hfraction).atLeast.mono (le_left_add _ _)

end Numbers

end Safeguard.Binary64
