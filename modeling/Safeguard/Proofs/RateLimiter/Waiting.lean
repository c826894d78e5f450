import Safeguard.Proofs.Binary64.Accuracy
import Safeguard.Proofs.RateLimiter.Bound
import Safeguard.Proofs.RateLimiter.Range
import Safeguard.Proofs.Scalar

/-!
# Whether a wait is long enough

A request that finds too few tokens sleeps for the time in which the missing ones accrue, and
asks again. The time is rounded to whole nanoseconds, so up to half a nanosecond of it may be
missing, and with it what accrues in half a nanosecond. The second check tolerates that a
billionth of a token is missing. So if more than two tokens accrue in a second, the time lost may
be worth more than what is tolerated, and a request that slept for exactly as long as it was told
may be refused although nobody else took a token. One nanosecond more makes up for that.

What the floating-point operations lose on the way is small against the tolerance, as long as the
request is not for very many tokens.

## Main results

* `RateLimiter.waitFor_spec`: how long a request is told to sleep.
* `RateLimiter.granted_iff_of_exact`: which sleeps are long enough for exact numbers.
* `RateLimiter.le_left_of_slack`: the budget of everything that is lost.
* `RateLimiter.Ledger.served_of_slack`: requests that slept long enough are granted.
-/

namespace Safeguard.RateLimiter

open Binary64

/-! ## The delay -/

section Delay

variable {R : Type} [Scalar R]

/-- The delay is the time nearest to what the missing tokens need, if that is not longer than the
longest wait. -/
theorem waitFor_spec {c : Config R} {shortfall : R} {q : ℚ}
    (hrate : Scalar.le c.rate Scalar.zero = false)
    (hq : Scalar.value? (shortfall / c.rate) = some q) (hnonneg : 0 ≤ q)
    (hle : q * nanosPerSecond ≤ c.maxWait.nanos) :
    |((waitFor c shortfall).nanos : ℚ) - q * nanosPerSecond| ≤ 1 / 2 := by
  obtain ⟨d, hd, hlimit⟩ := Duration.exists_ofSeconds? hq hnonneg hle
  obtain ⟨q', hq', hnear⟩ := Duration.abs_nanos_sub_le hd
  obtain rfl : q' = q := Option.some.inj (hq'.symm.trans hq)
  have hwait : (waitFor c shortfall).nanos = d.nanos := by
    unfold waitFor
    rw [hrate, if_neg Bool.false_ne_true, hd, Option.getD_some, Duration.nanos_min]
    exact Nat.min_eq_left hlimit
  rwa [hwait]

end Delay

/-! ## Exact numbers -/

/-- Over exact numbers, the second check grants the request if and only if the sleep falls short
of the exact time by no more than the time in which a billionth of a token accrues. The delay is
half a nanosecond shorter than the exact time at most, so it is long enough as long as no more
than two tokens accrue in a second. -/
theorem granted_iff_of_exact {l : RateLimiter ℚ} {n : UInt32} {now : Instant} {delay : Duration}
    (hrate : 0 < l.config.rate) (hpending : (l.beginWait n now).2 = .pending delay) (slept : ℕ) :
    ((l.beginWait n now).1.allow n (now + slept)).2 = true ↔
      (n.toNat - (l.refill now).tokens) / l.config.rate * nanosPerSecond ≤
        slept + 1 / l.config.rate := by
  obtain ⟨hburst, -, hlimiter, -⟩ := beginWait_pending hpending
  have hN : (0 : ℚ) < nanosPerSecond := by norm_num
  have hcapacity : (n.toNat : ℚ) ≤ (l.refill now).capacity + tolerance := by
    have hle : (n.toNat : ℚ) ≤ l.config.burst.toNat :=
      Nat.cast_le.mpr (UInt32.le_iff_toNat_le.mp (UInt32.not_lt.mp hburst))
    exact hle.trans (le_add_of_nonneg_right tolerance_nonneg)
  have hallow : ((l.refill now).allow n (now + slept)).2 = true ↔
      ((l.refill now).refill (now + slept)).holds n = true := by
    obtain ⟨hholds, h⟩ | ⟨hholds, h⟩ := (l.refill now).allow_cases n (now + slept)
    · rw [h, hholds]
    · rw [h, hholds]
  have hslept : now + slept - (l.refill now).refilledAt = slept := Nat.add_sub_cancel_left ..
  have hlevel (tokens : ℚ) : tokens + slept / nanosPerSecond * l.config.rate + 1 / nanosPerSecond =
      tokens + (slept * l.config.rate + 1) / nanosPerSecond := by ring
  have htime : (slept + 1 / l.config.rate) * l.config.rate = slept * l.config.rate + 1 := by
    field_simp
  rw [hlimiter, hallow, holds_iff, tokens_refill, hslept, ← min_add_add_right, le_min_iff,
    and_iff_left hcapacity, config_refill, max_eq_left hrate.le, tolerance_eq, hlevel,
    div_mul_eq_mul_div, div_le_iff₀ hrate, htime, ← le_div_iff₀ hN, sub_le_iff_le_add']

/-! ## The budget -/

section Budget

variable {n tokens r q s x : ℝ}

/-- What is in the bucket after the wait, in terms of what was missing before it: six roundings
lose a part of it, and half a nanosecond may be lost, while `x` nanoseconds of sleep more than the
delay are a gain. -/
theorem le_left_of_delay (hr : 0 < r) (hq : left (left (n - tokens) / r) ≤ q)
    (hs : q * nanosPerSecond - 1 / 2 + x ≤ s) :
    share * tokens + share ^ 6 * (n - tokens) + share ^ 4 * (r * (x - 1 / 2) / nanosPerSecond) -
        (3 + 4 * r) * least ≤
      left (tokens + left ((share ^ 2 * (s / nanosPerSecond) - 3 * least) * r)) := by
  have hN : (0 : ℝ) < nanosPerSecond := by norm_num
  have hshare := share_pos
  have hleast := least_pos
  -- The quotient buys the shortfall back, but for what two roundings lose.
  have hquotient : share ^ 2 * (n - tokens) - (1 + r) * least ≤ r * q := by
    have hproduct : r * left (left (n - tokens) / r) =
        share ^ 2 * (n - tokens) - (share + r) * least := by
      simp only [left]
      field_simp
      ring
    have hone : share * least ≤ least := mul_le_of_le_one_left hleast.le share_le_one
    have hmul := mul_le_mul_of_nonneg_left hq hr.le
    linarith
  have hsleep : r * q + r * (x - 1 / 2) / nanosPerSecond ≤ r * (s / nanosPerSecond) := by
    have hmul := mul_le_mul_of_nonneg_left hs (div_pos hr hN).le
    calc r * q + r * (x - 1 / 2) / nanosPerSecond
        = r / nanosPerSecond * (q * nanosPerSecond - 1 / 2 + x) := by field_simp; ring
      _ ≤ r / nanosPerSecond * s := hmul
      _ = r * (s / nanosPerSecond) := by ring
  have hexpand : left (tokens + left ((share ^ 2 * (s / nanosPerSecond) - 3 * least) * r)) =
      share * tokens + share ^ 4 * (r * (s / nanosPerSecond)) -
        (3 * share ^ 2 * r + share + 1) * least := by
    simp only [left]
    ring
  -- Four more roundings follow, and the least numbers do not add up to much.
  have hscaled := mul_le_mul_of_nonneg_left
    ((add_le_add_left hquotient _).trans hsleep) (pow_pos hshare 4).le
  have hfour : share ^ 4 * ((1 + r) * least) ≤ (1 + r) * least :=
    mul_le_of_le_one_left (by positivity) (pow_le_one₀ hshare.le share_le_one)
  have htwo : share ^ 2 * (3 * r * least) ≤ 3 * r * least :=
    mul_le_of_le_one_left (by positivity) (pow_le_one₀ hshare.le share_le_one)
  have hone : share * least ≤ least := mul_le_of_le_one_left hleast.le share_le_one
  rw [hexpand]
  linarith

/-- **The budget.** If the loss of half a nanosecond is within the tolerance and the request is
not too large for its roundings, or if the sleep was longer than the delay, the second check finds
no more missing than it tolerates. -/
theorem le_left_of_slack (hn : 1 ≤ n) (hnonneg : 0 ≤ tokens) (hr : 0 < r)
    (hq : left (left (n - tokens) / r) ≤ q) (hs : q * nanosPerSecond - 1 / 2 + x ≤ s)
    (hx : x = 0 ∨ 1 ≤ x) (hslack : r * (1 - 2 * x) + n / 2 ^ 18 ≤ 2) :
    n ≤ left (tokens + left ((share ^ 2 * (s / nanosPerSecond) - 3 * least) * r)) +
      1 / nanosPerSecond := by
  have hbudget := le_left_of_delay hr hq hs
  have hleast := least_le
  -- What is lost by rounding is a small part of what is asked for.
  have hrounding : n - 6 / 2 ^ 52 * n ≤ share * tokens + share ^ 6 * (n - tokens) := by
    have hshare : share ^ 6 ≤ share := pow_le_of_le_one share_pos.le share_le_one (by norm_num)
    have htokens := mul_le_mul_of_nonneg_right hshare hnonneg
    have hsix := mul_le_mul_of_nonneg_right (one_sub_le_share_pow 6) (zero_le_one.trans hn)
    push_cast at hsix
    linarith
  -- That part is within seven tenths of what is tolerated and gained.
  obtain ⟨gain, hgain⟩ : ∃ gain, gain = r * (x - 1 / 2) := ⟨_, rfl⟩
  rw [← hgain] at hbudget
  have hroom : n ≤ 2 ^ 19 * (1 + gain) := by
    rw [hgain]
    linarith
  have hpart : 6 / 2 ^ 52 * n ≤ 7 / 10 * ((1 + gain) / nanosPerSecond) := by
    have hscaled := mul_le_mul_of_nonneg_left hroom
      (by positivity : (0 : ℝ) ≤ 6 / 2 ^ 52)
    norm_num at hscaled ⊢
    linarith
  -- A loss is not made larger by rounding, and a gain loses a small part only.
  have hkept : 9 / 10 * ((1 + gain) / nanosPerSecond) ≤
      share ^ 4 * (gain / nanosPerSecond) + 1 / nanosPerSecond := by
    have hN : (0 : ℝ) < nanosPerSecond := by norm_num
    have hgain' : 9 / 10 * (1 + gain) ≤ share ^ 4 * gain + 1 := by
      have hfour : (9 : ℝ) / 10 ≤ share ^ 4 := (one_sub_le_share_pow 4).trans' (by norm_num)
      have hfour' : share ^ 4 ≤ 1 := pow_le_one₀ share_pos.le share_le_one
      obtain hloss | hgain := le_total gain 0
      · have hmul := mul_le_mul_of_nonpos_right hfour' hloss
        linarith
      · have hmul := mul_le_mul_of_nonneg_right hfour hgain
        linarith
    calc 9 / 10 * ((1 + gain) / nanosPerSecond) = 9 / 10 * (1 + gain) / nanosPerSecond := by ring
      _ ≤ (share ^ 4 * gain + 1) / nanosPerSecond := div_le_div_of_nonneg_right hgain' hN.le
      _ = share ^ 4 * (gain / nanosPerSecond) + 1 / nanosPerSecond := by ring
  -- Only a rate that gains much can be large.
  have htiny : (3 + 4 * r) * least ≤ 2 / 10 * ((1 + gain) / nanosPerSecond) := by
    have hrate : 3 + 4 * r ≤ 2 ^ 40 * (1 + gain) := by
      obtain rfl | hx := hx
      · linarith
      · have hhalf := mul_le_mul_of_nonneg_left hx hr.le
        linarith
    have hscaled := mul_le_mul hrate least_le least_pos.le (by linarith)
    norm_num at hscaled ⊢
    linarith
  calc n ≤ share * tokens + share ^ 6 * (n - tokens) + 7 / 10 * ((1 + gain) / nanosPerSecond) := by
        linarith only [hrounding, hpart]
    _ ≤ share * tokens + share ^ 6 * (n - tokens) + share ^ 4 * (gain / nanosPerSecond) -
          (3 + 4 * r) * least + 1 / nanosPerSecond := by
        linarith only [hkept, htiny]
    _ ≤ _ := by linarith only [hbudget]

end Budget

/-! ## Buckets that are refilled -/

section Buckets

variable {l : RateLimiter Float} {c : Config Float} {n : UInt32} {now : Instant}
  {delay : Duration} {tokens : ℝ} {q rate : ℚ}

theorem atLeast_tolerance : AtLeast tolerance (1 / nanosPerSecond) := by
  have hunpack : (tolerance : Float).toModel.unpack =
      .finite .positive 4835703278458517 (-82) (by norm_num) := rfl
  refine ⟨?_, value_tolerance.1, ?_⟩
  · unfold Denotes
    rw [hunpack]
    exact nofun
  · unfold value
    rw [hunpack, reading_positive, EReal.coe_le_coe_iff]
    norm_num [magnitude]

/-- A request is granted if no more is missing than is tolerated: a count is not passed by the
rounding of the sum. -/
theorem holds_of_atLeast (htokens : AtLeast l.tokens tokens)
    (hn : n.toNat ≤ tokens + 1 / nanosPerSecond) : l.holds n = true := by
  have hsum := htokens.add atLeast_tolerance
  refine scalar_le_iff.mpr ⟨denotes_count n, hsum.denotes, ?_⟩
  rw [value_count]
  refine hsum.le n.toNat 0 (toNat_lt_two_pow n) (by norm_num) ?_
  rw [magnitude, zpow_zero, mul_one]
  exact hn

/-- A rate that passes the validation is a number above zero. -/
theorem value_rate (hvalid : c.validate = .ok ()) (hrate : Scalar.value? c.rate = some rate) :
    Denotes c.rate ∧ value c.rate = ((rate : ℝ) : EReal) ∧ 0 < rate ∧
      Scalar.le c.rate Scalar.zero = false := by
  obtain ⟨hdenotes, hvalue⟩ := value_eq_of_value? hrate
  have hzero : Scalar.le c.rate Scalar.zero = false := by
    unfold Config.validate at hvalid
    split at hvalid
    · cases hvalid
    · rename_i h
      exact (Bool.or_eq_false_iff.mp (Bool.eq_false_iff.mpr h)).2
  refine ⟨hdenotes, hvalue, ?_, hzero⟩
  by_contra hle
  refine absurd (scalar_le_iff.mpr ⟨hdenotes, denotes_zero, ?_⟩) (Bool.eq_false_iff.mp hzero)
  rw [hvalue, value_zero, EReal.coe_nonpos]
  exact_mod_cast not_lt.mp hle

/-- What is in the bucket after some time, if it does not overflow. -/
theorem atLeast_refill (htokens : AtLeast l.tokens tokens)
    (hrate : Denotes l.config.rate) (hvalue : value l.config.rate = ((rate : ℝ) : EReal))
    (hpos : 0 < rate) (now : Instant) :
    AtLeast (l.refill now).tokens (min (left (tokens +
      left ((share ^ 2 * ((now - l.refilledAt : ℕ) / nanosPerSecond) - 3 * least) * rate)))
        l.config.burst.toNat) := by
  have hpos' : (0 : ℝ) < rate := by exact_mod_cast hpos
  -- A rate above zero is not cut off.
  have hmax : Scalar.max l.config.rate Scalar.zero = l.config.rate :=
    max_eq_left_of_le hrate (by rw [value_zero, hvalue]; exact EReal.coe_nonneg.mpr hpos'.le)
  have haccrued := ((atLeast_seconds (now - l.refilledAt)).mul hpos' hvalue.ge
    (hvalue ▸ EReal.coe_lt_top _)).atLeast
  have hsum := (htokens.add haccrued).atLeast
  have hburst : AtLeast l.capacity l.config.burst.toNat := atLeast_ofNat (toNat_lt_two_pow _)
  unfold refill
  dsimp only
  rw [hmax]
  obtain hmin | ⟨hmin, -⟩ := min_cases hburst.denotes
  · rw [hmin]
    exact hburst.mono (min_le_right _ _)
  · rw [hmin]
    exact hsum.mono (min_le_left _ _)

/-- A bucket that does not hold enough lacks something. -/
theorem Filled.exists_tokens (h : Filled l) (hholds : l.holds n = false) :
    ∃ tokens : ℝ, value l.tokens = (tokens : EReal) ∧ 0 ≤ tokens ∧ tokens < n.toNat := by
  obtain ⟨hdenotes, hnonneg, hle⟩ := holdable_iff.mp h
  have hreal : ((value l.tokens).toReal : EReal) = value l.tokens :=
    EReal.coe_toReal (hle.trans_lt (EReal.coe_lt_top _)).ne
      (EReal.bot_lt_zero.trans_le hnonneg).ne'
  refine ⟨(value l.tokens).toReal, hreal.symm, EReal.toReal_nonneg hnonneg, ?_⟩
  by_contra hge
  refine absurd (holds_of_atLeast ⟨hdenotes, hnonneg, hreal.le⟩ ?_) (Bool.eq_false_iff.mp hholds)
  exact (not_lt.mp hge).trans (le_add_of_nonneg_right (by positivity))

/-- A bucket that nobody else touches between the two checks. -/
theorem Filled.served (h : Filled l) (hvalid : l.config.validate = .ok ())
    (hrate : Scalar.value? l.config.rate = some rate)
    (hpending : (l.beginWait n now).2 = .pending delay)
    (hq : Scalar.value?
      ((Scalar.ofNat n.toNat - (l.refill now).tokens) / l.config.rate) = some q)
    (hmax : q * nanosPerSecond ≤ l.config.maxWait.nanos) :
    |(delay.nanos : ℚ) - q * nanosPerSecond| ≤ 1 / 2 ∧
      ∀ slept : ℕ, delay.nanos ≤ slept →
        rate * (1 - 2 * ((slept : ℚ) - delay.nanos)) + n.toNat / 2 ^ 18 ≤ 2 →
        ((l.beginWait n now).1.allow n (now + slept)).2 = true := by
  obtain ⟨hburst, hholds, hlimiter, hdelay⟩ := beginWait_pending hpending
  obtain ⟨hdenotes, hvalue, hpos, hzero⟩ := value_rate hvalid hrate
  obtain ⟨hdefined, hnonneg', -⟩ := holdable_iff.mp (h.refill now)
  obtain ⟨tokens, htokens, hnonneg, hlt⟩ := (h.refill now).exists_tokens hholds
  have hpos' : (0 : ℝ) < rate := by exact_mod_cast hpos
  -- What the delay is computed from.
  have hshortfall := ((atLeast_ofNat (toNat_lt_two_pow n)).sub hdefined hnonneg' htokens.le
    hlt).atLeast
  have hquotient := (hshortfall.div (hvalue ▸ EReal.coe_pos.mpr hpos') hvalue.le).atLeast
  obtain ⟨-, hq'⟩ := value_eq_of_value? hq
  have hbuys : left (left (n.toNat - tokens) / rate) ≤ q :=
    EReal.coe_le_coe_iff.mp (hquotient.le.trans_eq hq')
  have hqnonneg : 0 ≤ q := by
    have hreal : (0 : ℝ) ≤ q := EReal.coe_nonneg.mp (hquotient.nonneg.trans_eq hq')
    exact_mod_cast hreal
  have hnear := waitFor_spec hzero hq hqnonneg hmax
  rw [← hdelay] at hnear
  refine ⟨hnear, fun slept hslept hslack => ?_⟩
  rw [hlimiter]
  obtain ⟨-, hallow⟩ | ⟨hmissing, -⟩ := (l.refill now).allow_cases n (now + slept)
  · rw [hallow]
  · -- The second check is not made in vain.
    refine absurd ?_ (Bool.eq_false_iff.mp hmissing)
    refine holds_of_atLeast
      (atLeast_refill ⟨hdefined, hnonneg', htokens.ge⟩ hdenotes hvalue hpos _) ?_
    have hslept' : now + slept - (l.refill now).refilledAt = slept := Nat.add_sub_cancel_left ..
    rw [hslept', config_refill, ← min_add_add_right]
    refine le_min ?_ ?_
    · refine le_left_of_slack (x := slept - delay.nanos) ?_ hnonneg hpos' hbuys ?_ ?_ ?_
      · have hn : 0 < n.toNat := by exact_mod_cast hnonneg.trans_lt hlt
        exact_mod_cast hn
      · have hlow : q * nanosPerSecond - 1 / 2 ≤ delay.nanos := by
          linarith [(abs_le.mp hnear).1]
        have hlow' := Rat.cast_le (K := ℝ) |>.mpr hlow
        push_cast at hlow' ⊢
        linarith
      · -- The sleep ends at a whole nanosecond.
        obtain heq | hlt := hslept.eq_or_lt
        · exact .inl (by rw [heq, sub_self])
        · have hlt' : (delay.nanos : ℝ) + 1 ≤ slept := by exact_mod_cast hlt
          exact .inr (by linarith)
      · have hslack' := Rat.cast_le (K := ℝ) |>.mpr hslack
        push_cast at hslack'
        exact hslack'
    · have hle : n.toNat ≤ l.config.burst.toNat :=
        UInt32.le_iff_toNat_le.mp (UInt32.not_lt.mp hburst)
      have hle' : (n.toNat : ℝ) ≤ l.config.burst.toNat := by exact_mod_cast hle
      exact hle'.trans (le_add_of_nonneg_right (by positivity))

end Buckets

/-! ## Runs -/

namespace Ledger

variable {c : Config Float} {start now : Instant} {acts : List Act} {n : UInt32}
  {delay : Duration} {q rate : ℚ}

/-- **Whether a wait is long enough.** Whatever was done with a limiter before, a request that has
to wait, and not longer than the longest wait, is told to sleep for the whole number of
nanoseconds nearest to the quotient of shortfall and rate. If nobody else touches the limiter
until it asks again, it is granted, provided that what accrues in the half nanosecond that
rounding may have cost, less what accrues in the time slept beyond the delay, and one part in
`2 ^ 19` of a billionth of each token asked for, are not more than the tolerance. -/
theorem served_of_slack (hvalid : c.validate = .ok ()) (hrate : Scalar.value? c.rate = some rate)
    (hpending : (((blank c start).run acts).limiter.beginWait n now).2 = .pending delay)
    (hq : Scalar.value? ((Scalar.ofNat n.toNat -
      (((blank c start).run acts).limiter.refill now).tokens) / c.rate) = some q)
    (hmax : q * nanosPerSecond ≤ c.maxWait.nanos) :
    |(delay.nanos : ℚ) - q * nanosPerSecond| ≤ 1 / 2 ∧
      ∀ slept : ℕ, delay.nanos ≤ slept →
        rate * (1 - 2 * ((slept : ℚ) - delay.nanos)) + n.toNat / 2 ^ 18 ≤ 2 →
        ((((blank c start).run acts).limiter.beginWait n now).1.allow n (now + slept)).2 =
          true := by
  obtain ⟨hconfig, hfilled⟩ := filled_run c start acts
  generalize ((blank c start).run acts).limiter = l at hconfig hfilled hpending hq ⊢
  subst hconfig
  exact hfilled.served hvalid hrate hpending hq hmax

/-- Three tokens in two seconds. -/
def unhurried : Config Float := ⟨Scalar.ofNat 3 / Scalar.ofNat 2, 2, true, .ofSeconds 1⟩

/-- Two thirds of a second are rounded up to a nanosecond, and the next token is there then. -/
theorem served_of_slack_unhurried :
    unhurried.validate = .ok () ∧
      (((blank unhurried 0).run [.ask 2]).limiter.beginWait 1 0).2 =
        .pending ⟨666666667, by decide⟩ ∧
      ((((blank unhurried 0).run [.ask 2]).limiter.beginWait 1 0).1.allow 1 666666667).2 =
        true := by
  have hpending : (((blank unhurried 0).run [.ask 2]).limiter.beginWait 1 0).2 =
      .pending ⟨666666667, by decide⟩ := by decide +kernel
  have hrate : Scalar.value? unhurried.rate = some (3 / 2) := by decide +kernel
  have hq : Scalar.value? ((Scalar.ofNat (UInt32.toNat 1) -
      (((blank unhurried 0).run [.ask 2]).limiter.refill 0).tokens) / unhurried.rate) =
        some (6004799503160661 / 9007199254740992) := by decide +kernel
  refine ⟨rfl, hpending, ?_⟩
  have hserved := served_of_slack rfl hrate hpending hq (by decide +kernel)
  exact hserved.2 666666667 (by decide) (by norm_num [UInt32.toNat])

/-- A thousand tokens in a little more than a millisecond. -/
def brisk : Config Float := ⟨999999.6, 1000, true, .ofSeconds 1⟩

/-- The little more is less than half a nanosecond and rounded off, but two fifths of a thousandth
of a token accrue in it. Who sleeps for a millisecond, as told, is refused. -/
theorem refused_when_due :
    brisk.validate.isOk = true ∧
      (((blank brisk 0).run [.ask 1000]).limiter.beginWait 1000 0).2 = .pending (.ofMillis 1) ∧
      Scalar.value? ((Scalar.ofNat 1000 -
        (((blank brisk 0).run [.ask 1000]).limiter.refill 0).tokens) / brisk.rate) =
          some (4611687863102533 / 4611686018427387904) ∧
      ((((blank brisk 0).run [.ask 1000]).limiter.beginWait 1000 0).1.allow 1000
        (Duration.ofMillis 1).nanos).2 = false := by
  decide +kernel

end Ledger

end Safeguard.RateLimiter
