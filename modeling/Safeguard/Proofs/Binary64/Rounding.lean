import Safeguard.Proofs.Binary64.Values

/-!
# Rounding

Sums, differences, products and counts are computed exactly first and then rounded to a
mantissa that fits: digits are cut off, and the residual bits tell whether to go up. What
matters about it is that rounding stays between neighbours. A number with few enough digits
is never passed, so that an exact value below it is rounded to something not above it.

A rounded datum is then packed into bits, where an exponent that is too large becomes an
infinity.

## Main definitions

* `Binary64.Shifted`: a mantissa after its last digits were cut off.
* `Binary64.scale`: the exponent at which a value is rounded.
* `Binary64.Nearby`: a mantissa next to the value that it was rounded from.
* `Binary64.kept`: what is left of a datum after it was packed.

## Main results

* `Binary64.exists_roundWithAccuracy`, `Binary64.exists_round`: what rounding does.
* `Binary64.reading_normalize_le`: rounding does not pass a number.
* `Binary64.kept_eq_self`: packing loses nothing that is within range.
-/

namespace Safeguard.Binary64

open Float.Model (Format UnpackedFloat)
open Float.Model.UnpackedFloat

variable {u : UnpackedFloat} {s : Sign} {m r g : ℕ} {e t : ℤ}

/-! ## Cutting digits off -/

section Shifting

theorem mantissa_le_roundedMantissa (em : ExtendedMantissa) :
    em.mantissa ≤ em.roundedMantissa := by
  obtain ⟨m, _ | _, _ | _⟩ := em
  · exact le_rfl
  · exact le_rfl
  · exact Nat.le_add_right m _
  · exact Nat.le_add_right m _

theorem roundedMantissa_le_succ (em : ExtendedMantissa) :
    em.roundedMantissa ≤ em.mantissa + 1 := by
  obtain ⟨m, _ | _, _ | _⟩ := em
  · exact Nat.le_add_right m _
  · exact Nat.le_add_right m _
  · exact Nat.add_le_add_left (Nat.le_of_lt_succ (Nat.mod_lt m two_pos)) m
  · exact le_rfl

/-- Cutting digits off divides the mantissa, whatever the residual bits are. -/
theorem mantissa_shiftRight (m : ℕ) (a : Accuracy) (k : ℕ) :
    (ExtendedMantissa.ofMantissaAndAccuracy m a >>> k).mantissa = m / 2 ^ k := by
  induction k with
  | zero =>
    have hzero : (ExtendedMantissa.ofMantissaAndAccuracy m a >>> 0).mantissa = m := by
      rcases a with _ | (_ | _ | _) <;> rfl
    rw [hzero, pow_zero, Nat.div_one]
  | succ k ih =>
    have hsucc : (ExtendedMantissa.ofMantissaAndAccuracy m a >>> (k + 1)).mantissa =
        (ExtendedMantissa.ofMantissaAndAccuracy m a >>> k).mantissa / 2 := rfl
    rw [hsucc, ih, Nat.div_div_eq_div_mul, pow_succ]

/-- A mantissa after its last `k` digits were cut off. The residual bits tell whether anything
was lost. -/
structure Shifted (em : ExtendedMantissa) (m k : ℕ) : Prop where
  mantissa : em.mantissa = m / 2 ^ k
  lossless : em.roundBit = false ∧ em.stickyBit = false ↔ 2 ^ k ∣ m

open ExtendedMantissa (ofMantissaAndAccuracy shiftRightOne)

theorem Shifted.shiftRightOne {em : ExtendedMantissa} {k : ℕ} (h : Shifted em m k) :
    Shifted em.shiftRightOne m (k + 1) := by
  refine ⟨?_, ?_⟩
  · simp only [ExtendedMantissa.shiftRightOne]
    rw [h.mantissa, Nat.div_div_eq_div_mul, pow_succ]
  · have hbits : em.shiftRightOne.roundBit = false ∧ em.shiftRightOne.stickyBit = false ↔
        m / 2 ^ k % 2 = 0 ∧ 2 ^ k ∣ m := by
      simp [ExtendedMantissa.shiftRightOne, h.mantissa, ← h.lossless]
    rw [hbits, ← Nat.dvd_iff_mod_eq_zero, pow_succ]
    constructor
    · rintro ⟨hbit, hk⟩
      exact (Nat.dvd_div_iff_mul_dvd hk).mp hbit
    · intro hdvd
      have hk : 2 ^ k ∣ m := (Nat.dvd_mul_right _ 2).trans hdvd
      exact ⟨(Nat.dvd_div_iff_mul_dvd hk).mpr hdvd, hk⟩

theorem shifted (m k : ℕ) : Shifted (ofMantissaAndAccuracy m .exact >>> k) m k := by
  induction k with
  | zero =>
    have hzero : ofMantissaAndAccuracy m .exact >>> 0 = ⟨m, false, false⟩ := rfl
    rw [hzero]
    exact ⟨by simp, by simp⟩
  | succ k ih => exact ih.shiftRightOne

namespace Shifted

variable {em : ExtendedMantissa} {k : ℕ}

theorem le_roundedMantissa (h : Shifted em m k) (hg : g * 2 ^ k ≤ m) : g ≤ em.roundedMantissa :=
  calc g ≤ m / 2 ^ k := (Nat.le_div_iff_mul_le (by positivity)).mpr hg
    _ = em.mantissa := h.mantissa.symm
    _ ≤ em.roundedMantissa := mantissa_le_roundedMantissa em

theorem roundedMantissa_le (h : Shifted em m k) (hg : m ≤ g * 2 ^ k) : em.roundedMantissa ≤ g := by
  obtain ⟨n, round, sticky⟩ := em
  have hn : n = m / 2 ^ k := h.mantissa
  have hle : n ≤ g := hn ▸ Nat.div_le_of_le_mul (by rwa [mul_comm])
  by_cases hexact : round = false ∧ sticky = false
  · obtain ⟨rfl, rfl⟩ := hexact
    exact hle
  · -- Something was lost, so the quotient is not the bound itself.
    have hne : n ≠ g := by
      rintro rfl
      refine hexact (h.lossless.mpr ⟨n, ?_⟩)
      rw [mul_comm]
      exact le_antisymm hg (hn ▸ Nat.div_mul_le_self m _)
    exact (roundedMantissa_le_succ _).trans (Nat.lt_of_le_of_ne hle hne)

end Shifted

end Shifting

/-! ## The exponent at which a value is rounded -/

/-- The exponent at which a value is rounded: the mantissa gets as many digits as there is
room for, or the exponent is the least. -/
def scale (m : ℕ) (e : ℤ) : ℤ := Format.binary64.targetExponent (Float.Model.totalExponent m e)

theorem scale_eq (m : ℕ) (e : ℤ) : scale m e = max (m.log2 + 1 + e - 53) (-1074) := rfl

theorem scale_le (hm : m < 2 ^ 53) (he : -1074 ≤ e) : scale m e ≤ e := by
  have hlog : m.log2 < 53 := by
    rcases Nat.eq_zero_or_pos m with rfl | h
    · simp
    · exact (Nat.log2_lt h.ne').mpr hm
  rw [scale_eq]
  omega

theorem Fits.scale_eq (h : Fits m e) (hm : 0 < m) : scale m e = e := by
  have hle := scale_le h.lt h.least_le
  have heq := Binary64.scale_eq m e
  obtain hleast | hfull := h.full
  · omega
  · have := (Nat.le_log2 hm.ne').mpr hfull
    omega

theorem log2_mul_two_pow (hm : 0 < m) (k : ℕ) : (m * 2 ^ k).log2 = m.log2 + k := by
  induction k with
  | zero => simp
  | succ k ih =>
    rw [pow_succ, ← mul_assoc, mul_comm _ 2, Nat.log2_two_mul (by positivity), ih, add_assoc]

theorem scale_mul_two_pow (hm : 0 < m) (e : ℤ) (k : ℕ) :
    scale (m * 2 ^ k) e = scale m (e + k) := by
  rw [scale_eq, scale_eq, log2_mul_two_pow hm]
  push_cast
  ring_nf

/-! ## What rounding does -/

/-- A mantissa next to a value: no multiple of the unit lies strictly between the two. -/
structure Nearby (r : ℕ) (t : ℤ) (x : ℝ) : Prop where
  ge : ∀ g, magnitude g t ≤ x → g ≤ r
  le : ∀ g, x ≤ magnitude g t → r ≤ g

/-- A multiple of the unit is rounded to itself. -/
theorem Nearby.eq {x : ℝ} (h : Nearby r t x) (hx : x = magnitude g t) : r = g :=
  le_antisymm (h.le g hx.le) (h.ge g hx.ge)

/-- What rounding does not change has few enough digits, and rounding to a mantissa with
one digit too many is followed by cutting off a zero. -/
theorem exists_shiftToTargetExponent (hr : r ≤ 2 ^ 53) (he : -1074 ≤ e)
    (hfull : e = -1074 ∨ 2 ^ 52 ≤ r) :
    ∃ em e', shiftToTargetExponent .binary64 r e .exact = (em, e') ∧
      magnitude em.mantissa e' = magnitude r e ∧ Fits em.mantissa e' := by
  rcases hr.lt_or_eq with hlt | rfl
  · have hk : (scale r e - e).toNat = 0 := by
      have := scale_le hlt he
      omega
    refine ⟨⟨r, false, false⟩, e, ?_, rfl, hlt, he, hfull⟩
    change (ExtendedMantissa.ofMantissaAndAccuracy r .exact >>> (scale r e - e).toNat,
      e + ((scale r e - e).toNat : ℤ)) = _
    rw [hk, Nat.cast_zero, add_zero]
    rfl
  · have hk : (scale (2 ^ 53) e - e).toNat = 1 := by
      rw [scale_eq, Nat.log2_two_pow]
      omega
    refine ⟨⟨2 ^ 52, false, false⟩, e + 1, ?_, ?_, by norm_num, by omega, .inr le_rfl⟩
    · change (ExtendedMantissa.ofMantissaAndAccuracy (2 ^ 53) .exact >>>
        (scale (2 ^ 53) e - e).toNat, e + ((scale (2 ^ 53) e - e).toNat : ℤ)) = _
      rw [hk]
      rfl
    · exact (magnitude_mul_two_pow (2 ^ 52) e 1).symm

/-- A mantissa with enough digits is rounded once and fits then, whatever is known about digits
that were cut off before. -/
theorem roundWithAccuracy_spec {k : ℕ} (hk : scale m e = e + k) (s : Sign) (a : Accuracy) :
    Rounded (roundWithAccuracy .binary64 s m e a) ∧
      (scale m e = -1074 ∨
        2 ^ 52 ≤ (ExtendedMantissa.ofMantissaAndAccuracy m a >>> k).roundedMantissa) ∧
      (s = .positive → reading (roundWithAccuracy .binary64 s m e a) =
        (magnitude (ExtendedMantissa.ofMantissaAndAccuracy m a >>> k).roundedMantissa
          (scale m e) : EReal)) := by
  have hfirst : shiftToTargetExponent .binary64 m e a =
      (ExtendedMantissa.ofMantissaAndAccuracy m a >>> k, scale m e) := by
    change (ExtendedMantissa.ofMantissaAndAccuracy m a >>> (scale m e - e).toNat,
      e + ((scale m e - e).toNat : ℤ)) = _
    rw [hk, add_sub_cancel_left, Int.toNat_natCast]
  have hmantissa := mantissa_shiftRight m a k
  generalize ExtendedMantissa.ofMantissaAndAccuracy m a >>> k = em at hfirst hmantissa ⊢
  -- The scale is chosen so that the mantissa is left with the right number of digits.
  have hscale := scale_eq m e
  have hlt : em.mantissa < 2 ^ 53 := by
    rw [hmantissa]
    refine Nat.div_lt_of_lt_mul ?_
    rw [← pow_add]
    exact Nat.lt_log2_self.trans_le (Nat.pow_le_pow_right two_pos (by omega))
  have hfull : scale m e = -1074 ∨ 2 ^ 52 ≤ em.roundedMantissa := by
    rw [or_iff_not_imp_left]
    intro hne
    refine le_trans ?_ (mantissa_le_roundedMantissa em)
    have hm : m ≠ 0 := by
      rintro rfl
      simp only [Nat.log2_zero, Nat.cast_zero] at hscale
      omega
    rw [hmantissa, Nat.le_div_iff_mul_le (by positivity), ← pow_add]
    exact (Nat.pow_le_pow_right two_pos (by omega)).trans (Nat.log2_self_le hm)
  obtain ⟨em', e', hsecond, hvalue, hfits⟩ :=
    exists_shiftToTargetExponent ((roundedMantissa_le_succ em).trans hlt) (by omega) hfull
  refine ⟨?_, hfull, ?_⟩
  · unfold roundWithAccuracy
    simp only [hfirst, hsecond]
    split
    · exact .zero s
    · exact .finite hfits
  · rintro rfl
    unfold roundWithAccuracy
    simp only [hfirst, hsecond]
    split
    · rename_i hzero
      rw [← hvalue, hzero]
      simp [reading, magnitude]
    · rw [reading_positive, hvalue]

/-- An exact value with enough digits is rounded to a neighbour. -/
theorem exists_roundWithAccuracy (he : e ≤ scale m e) (s : Sign) :
    Rounded (roundWithAccuracy .binary64 s m e .exact) ∧
      ∃ r, Nearby r (scale m e) (magnitude m e) ∧ (s = .positive →
        reading (roundWithAccuracy .binary64 s m e .exact) =
          (magnitude r (scale m e) : EReal)) := by
  obtain ⟨k, hk⟩ : ∃ k : ℕ, scale m e = e + k := ⟨(scale m e - e).toNat, by omega⟩
  obtain ⟨hrounded, -, hreading⟩ := roundWithAccuracy_spec hk s .exact
  have hshift := shifted m k
  refine ⟨hrounded, _, ⟨fun g hg => hshift.le_roundedMantissa ?_,
    fun g hg => hshift.roundedMantissa_le ?_⟩, hreading⟩
  · rwa [hk, ← magnitude_mul_two_pow, magnitude_le_magnitude] at hg
  · rwa [hk, ← magnitude_mul_two_pow, magnitude_le_magnitude] at hg

/-- An exact value is rounded to a neighbour, after digits were added to it if there were too
few. -/
theorem exists_round (hm : 0 < m) (e : ℤ) (s : Sign) :
    Rounded (UnpackedFloat.round .binary64 s m e) ∧
      ∃ r, Nearby r (scale m e) (magnitude m e) ∧ (s = .positive →
        reading (UnpackedFloat.round .binary64 s m e) = (magnitude r (scale m e) : EReal)) := by
  set k := (e - scale m e).toNat with hk
  have hround : UnpackedFloat.round .binary64 s m e =
      roundWithAccuracy .binary64 s (m * 2 ^ k) (e - k) .exact := by
    rw [← Nat.shiftLeft_eq]
    rfl
  have hscale : scale (m * 2 ^ k) (e - k) = scale m e := by
    rw [scale_mul_two_pow hm, sub_add_cancel]
  have hvalue : magnitude (m * 2 ^ k) (e - k) = magnitude m e := by
    rw [magnitude_mul_two_pow, sub_add_cancel]
  have h := exists_roundWithAccuracy (m := m * 2 ^ k) (e := e - k) (by omega) s
  rwa [hscale, hvalue, ← hround] at h

/-- A neighbour of a value is not beyond a number that the value is not beyond. -/
theorem Nearby.magnitude_le (h : Nearby r (scale m e) (magnitude m e)) (hm : 0 < m)
    (hg : g < 2 ^ 53) (ht : -1074 ≤ t) (hle : magnitude m e ≤ magnitude g t) :
    magnitude r (scale m e) ≤ magnitude g t := by
  obtain hst | hst := le_or_gt (scale m e) t
  · obtain ⟨k, rfl⟩ : ∃ k : ℕ, t = scale m e + k := ⟨(t - scale m e).toNat, by omega⟩
    rw [← magnitude_mul_two_pow] at hle ⊢
    exact (magnitude_le_magnitude _).mpr (h.le _ hle)
  · -- A value that is rounded at a larger scale than the number's has more digits than it.
    exfalso
    have hscale := scale_eq m e
    obtain ⟨k, hk⟩ : ∃ k : ℕ, e + m.log2 = t + (53 + k : ℕ) :=
      ⟨(e + m.log2 - t - 53).toNat, by omega⟩
    have hbig : magnitude (2 ^ (53 + k)) t ≤ magnitude m e :=
      calc magnitude (2 ^ (53 + k)) t = magnitude 1 (t + (53 + k : ℕ)) := by
            rw [← magnitude_mul_two_pow, one_mul]
        _ = magnitude (1 * 2 ^ m.log2) e := by rw [← hk, magnitude_mul_two_pow]
        _ ≤ magnitude m e := by
            rw [one_mul, magnitude_le_magnitude]
            exact Nat.log2_self_le hm.ne'
    have hpow := (magnitude_le_magnitude t).mp (hbig.trans hle)
    have : 2 ^ 53 ≤ 2 ^ (53 + k) := Nat.pow_le_pow_right two_pos (Nat.le_add_right 53 k)
    omega

theorem roundWithAccuracy_ne_notANumber (s : Sign) (m : ℕ) (e : ℤ) (a : Accuracy) :
    roundWithAccuracy .binary64 s m e a ≠ .notANumber := by
  unfold roundWithAccuracy
  dsimp only
  split
  · exact nofun
  · exact nofun

theorem reading_roundWithAccuracy_nonneg (m : ℕ) (e : ℤ) (a : Accuracy) :
    0 ≤ reading (roundWithAccuracy .binary64 .positive m e a) := by
  unfold roundWithAccuracy
  dsimp only
  split
  · exact le_rfl
  · exact reading_pos.le

theorem reading_roundWithAccuracy_nonpos (m : ℕ) (e : ℤ) (a : Accuracy) :
    reading (roundWithAccuracy .binary64 .negative m e a) ≤ 0 := by
  unfold roundWithAccuracy
  dsimp only
  split
  · exact le_rfl
  · exact reading_neg.le

/-! ## Rounding signed values -/

theorem rounded_normalize (m e : ℤ) (s : Sign) :
    Rounded (UnpackedFloat.normalize .binary64 m e s) := by
  unfold UnpackedFloat.normalize
  split
  · rename_i h
    have hneg := compare_lt_iff_lt.mp h
    exact (exists_round (by omega) e .negative).1
  · exact .zero s
  · rename_i h
    have hpos := compare_gt_iff_gt.mp h
    exact (exists_round (by omega) e .positive).1

theorem reading_normalize_nonneg {m : ℤ} (hm : 0 ≤ m) (e : ℤ) (s : Sign) :
    0 ≤ reading (UnpackedFloat.normalize .binary64 m e s) := by
  unfold UnpackedFloat.normalize
  split
  · rename_i h
    exact absurd (compare_lt_iff_lt.mp h) (not_lt.mpr hm)
  · exact le_rfl
  · exact reading_roundWithAccuracy_nonneg ..

/-- Rounding does not pass a number that is not below zero and has few enough digits. -/
theorem reading_normalize_le {m : ℤ} (hg : g < 2 ^ 53) (ht : -1074 ≤ t)
    (hle : (m : ℝ) * 2 ^ e ≤ magnitude g t) :
    reading (UnpackedFloat.normalize .binary64 m e s) ≤ (magnitude g t : EReal) := by
  have hzero : (0 : EReal) ≤ (magnitude g t : EReal) :=
    EReal.coe_nonneg.mpr (magnitude_nonneg g t)
  unfold UnpackedFloat.normalize
  split
  · exact (reading_roundWithAccuracy_nonpos ..).trans hzero
  · exact hzero
  · rename_i h
    have hpos := compare_gt_iff_gt.mp h
    have hcast : ((m.toNat : ℕ) : ℝ) = m := by exact_mod_cast Int.toNat_of_nonneg hpos.le
    obtain ⟨r, hnear, hvalue⟩ := (exists_round (m := m.toNat) (by omega) e .positive).2
    rw [hvalue rfl, EReal.coe_le_coe_iff]
    refine hnear.magnitude_le (by omega) hg ht ?_
    rwa [magnitude, hcast]

/-! ## Packing -/

section Packing

variable {hm : 0 < m}

@[simp] theorem unpackSign_packComponents {spec : Format} {exponent mantissa} :
    unpackSign (packComponents spec s exponent mantissa) = s.toBitVec := by
  ext i hi
  obtain rfl : i = 0 := by omega
  simp only [unpackSign, packComponents]
  cases s
  · simp [BitVec.getLsbD_eq_getElem, BitVec.getLsbD_append, BitVec.getElem_append, Sign.toBitVec]
  · simp [BitVec.getLsbD_eq_getElem, BitVec.getLsbD_append, BitVec.getElem_append, Sign.toBitVec]

@[simp] theorem ofBitVec_toBitVec (s : Sign) : Sign.ofBitVec s.toBitVec = s := by
  cases s <;> rfl

/-- What is left of a datum after it was packed into bits. -/
def kept (u : UnpackedFloat) : UnpackedFloat := unpack .binary64 (pack .binary64 u)

theorem unpack_normal {exponent : BitVec 11} {mantissa : BitVec 52} (hzero : exponent ≠ 0#11)
    (htop : exponent ≠ -1#11) :
    unpack .binary64 (packComponents .binary64 s exponent mantissa) =
      .finite s (1#1 ++ mantissa).toNat (exponent.toNat - 1075)
        (by rw [toNat_one_append]; positivity) := by
  unfold unpack
  simp only [unpackExponent_packComponents, unpackMantissa_packComponents,
    unpackSign_packComponents, ofBitVec_toBitVec]
  rw [if_neg htop, if_neg hzero]
  rfl

theorem unpack_subnormal {mantissa : BitVec 52} (h : mantissa ≠ 0#52) :
    unpack .binary64 (packComponents .binary64 s 0#11 mantissa) =
      .finite s mantissa.toNat (-1074)
        (by simpa [BitVec.toNat_pos, BitVec.pos_iff_ne_zero] using h) := by
  unfold unpack
  simp only [unpackExponent_packComponents, unpackMantissa_packComponents,
    unpackSign_packComponents, ofBitVec_toBitVec]
  rw [if_neg (by decide), if_pos trivial, dif_neg h]
  rfl

theorem pack_finite : pack .binary64 (.finite s m e hm) =
    if 2 ^ 11 ≤ (e + (1023 : ℕ) + (52 : ℕ)).toNat + 1 then packedInfinity .binary64 s
    else if m.log2 + 1 = 53 then
      packComponents .binary64 s (BitVec.ofNat 11 (e + (1023 : ℕ) + (52 : ℕ)).toNat)
        (BitVec.ofNat 52 m)
    else packComponents .binary64 s 0#11 (BitVec.ofNat 52 m) := rfl

theorem kept_infinity (s : Sign) : kept (.infinity s) = .infinity s := by
  cases s <;> rfl

theorem kept_overflow (he : 972 ≤ e) : kept (.finite s m e hm) = .infinity s := by
  rw [kept, pack_finite, if_pos (by omega)]
  exact kept_infinity s

theorem kept_normal (hle : 2 ^ 52 ≤ m) (hlt : m < 2 ^ 53) (hleast : -1074 ≤ e) (he : e ≤ 971) :
    kept (.finite s m e hm) = .finite s m e hm := by
  have hlog : m.log2 = 52 := (Nat.log2_eq_iff hm.ne').mpr ⟨hle, hlt⟩
  have hexponent : (BitVec.ofNat 11 (e + (1023 : ℕ) + (52 : ℕ)).toNat).toNat =
      (e + 1075).toNat := by
    rw [BitVec.toNat_ofNat]
    omega
  have hmantissa : (1#1 ++ BitVec.ofNat 52 m).toNat = m := by
    rw [toNat_one_append, BitVec.toNat_ofNat]
    omega
  rw [kept, pack_finite, if_neg (by omega), if_pos (by omega), unpack_normal]
  · simp only [hmantissa, hexponent]
    congr 1
    omega
  · intro h
    have hzero : (e + 1075).toNat = 0 := hexponent.symm.trans (congrArg BitVec.toNat h)
    omega
  · intro h
    have htop : (e + 1075).toNat = 2047 := hexponent.symm.trans (congrArg BitVec.toNat h)
    omega

theorem kept_subnormal (hlt : m < 2 ^ 52) (he : e = -1074) :
    kept (.finite s m e hm) = .finite s m e hm := by
  have hlog : m.log2 < 52 := (Nat.log2_lt hm.ne').mpr hlt
  have hmantissa : (BitVec.ofNat 52 m).toNat = m := by
    rw [BitVec.toNat_ofNat]
    omega
  rw [kept, pack_finite, if_neg (by omega), if_neg (by omega), unpack_subnormal]
  · simp only [hmantissa, he]
  · intro h
    exact hm.ne' (hmantissa.symm.trans (congrArg BitVec.toNat h))

/-- A mantissa that fits is kept, unless its exponent is out of range. -/
theorem Fits.kept_eq (h : Fits m e) :
    kept (.finite s m e hm) = if e ≤ 971 then .finite s m e hm else .infinity s := by
  split
  · rename_i he
    obtain hle | hlt := le_or_gt (2 ^ 52) m
    · exact kept_normal hle h.lt h.least_le he
    · exact kept_subnormal hlt (h.full.resolve_right (by omega))
  · exact kept_overflow (by omega)

/-- Bits with a positive sign do not denote anything below zero. -/
theorem reading_packComponents_nonneg (exponent : BitVec 11) (mantissa : BitVec 52) :
    0 ≤ reading (unpack .binary64 (packComponents .binary64 .positive exponent mantissa)) := by
  unfold unpack
  simp only [unpackExponent_packComponents, unpackMantissa_packComponents,
    unpackSign_packComponents, ofBitVec_toBitVec]
  split
  · split
    · exact le_top
    · exact le_rfl
  · split
    · split
      · exact le_rfl
      · exact reading_pos.le
    · exact reading_pos.le

theorem reading_kept_nonneg (h : 0 ≤ reading u) : 0 ≤ reading (kept u) := by
  obtain rfl | rfl | ⟨s, rfl⟩ | ⟨m, e, hm, rfl⟩ := cases_of_reading_nonneg h
  · exact le_rfl
  · exact le_top
  · cases s <;> exact le_rfl
  · rw [kept, pack_finite]
    split
    · exact reading_packComponents_nonneg _ _
    · split
      · exact reading_packComponents_nonneg _ _
      · exact reading_packComponents_nonneg _ _

theorem reading_kept_nonpos (hu : Rounded u) (h : reading u ≤ 0) : reading (kept u) ≤ 0 := by
  cases hu with
  | notANumber => exact h
  | infinity s => rwa [kept_infinity]
  | zero s => cases s <;> exact h
  | @finite s m e hm fits =>
    cases s with
    | positive => exact absurd h (not_le.mpr reading_pos)
    | negative =>
      rw [fits.kept_eq]
      split
      · exact h
      · exact bot_le

/-- Nothing is lost that is below the least magnitude out of range. -/
theorem kept_eq_self (hu : Rounded u) {x : ℝ} (hx : x < magnitude (2 ^ 52) 972)
    (hnonneg : 0 ≤ reading u) (hle : reading u ≤ x) : kept u = u := by
  cases hu with
  | notANumber => rfl
  | infinity s => exact kept_infinity s
  | zero s => cases s <;> rfl
  | @finite s m e hm fits =>
    cases s with
    | negative => exact absurd hnonneg (not_le.mpr reading_neg)
    | positive =>
      have hlt : magnitude m e < magnitude (2 ^ 52) 972 :=
        (EReal.coe_le_coe_iff.mp hle).trans_lt hx
      have he : e ≤ 971 := by
        by_contra hover
        obtain rfl | hgt := (show (972 : ℤ) ≤ e by omega).eq_or_lt
        · have hfull := fits.full.resolve_left (by omega)
          have := (magnitude_lt_magnitude 972).mp hlt
          omega
        · have hfits : Fits (2 ^ 52) 972 := ⟨by norm_num, by norm_num, .inr le_rfl⟩
          exact absurd (hfits.magnitude_lt fits hgt) (not_lt.mpr hlt.le)
      rw [fits.kept_eq, if_pos he]

theorem reading_kept_le (hu : Rounded u) {x : ℝ} (hx : x < magnitude (2 ^ 52) 972) (hx' : 0 ≤ x)
    (h : reading u ≤ x) : reading (kept u) ≤ x := by
  obtain hnonneg | hneg := le_or_gt 0 (reading u)
  · rwa [kept_eq_self hu hx hnonneg h]
  · exact (reading_kept_nonpos hu hneg.le).trans (EReal.coe_nonneg.mpr hx')

end Packing

end Safeguard.Binary64
