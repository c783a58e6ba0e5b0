import DeviceTrial.Json.Number
import DeviceTrial.Proofs.Float.Rounding

/-!
What scaling by a power of ten computes.

The significand and the power are rounded, and so is their product or quotient, and where the power
is too small for one division there are two. How far that leads from the number that was meant is
told by what each step makes of a ratio.
-/

namespace DeviceTrial

/-! ## Ratios -/

/-- The ratio of two positive numbers lies between two bounds. -/
structure Within (low high x y : ℚ) : Prop where
  low : low * y ≤ x
  high : x ≤ high * y

namespace Within

variable {a b a' b' x x' y y' : ℚ}

theorem pos (h : Within a b x y) (ha : 0 < a) (hy : 0 < y) : 0 < x :=
  (mul_pos ha hy).trans_le h.low

theorem mono (h : Within a b x y) (ha : a' ≤ a) (hb : b ≤ b') (hy : 0 ≤ y) : Within a' b' x y where
  low := (mul_le_mul_of_nonneg_right ha hy).trans h.low
  high := h.high.trans (mul_le_mul_of_nonneg_right hb hy)

theorem mul (h : Within a b x y) (h' : Within a' b' x' y') (ha : 0 < a) (ha' : 0 < a')
    (hy : 0 < y) (hy' : 0 < y') : Within (a * a') (b * b') (x * x') (y * y') where
  low := by
    rw [mul_mul_mul_comm]
    exact mul_le_mul h.low h'.low (mul_pos ha' hy').le (h.pos ha hy).le
  high := by
    rw [mul_mul_mul_comm]
    exact mul_le_mul h.high h'.high (h'.pos ha' hy').le ((h.pos ha hy).le.trans h.high)

theorem inv (h : Within a b x y) (ha : 0 < a) (hy : 0 < y) :
    Within b⁻¹ a⁻¹ x⁻¹ y⁻¹ where
  low := by
    rw [← mul_inv]
    exact inv_anti₀ (h.pos ha hy) h.high
  high := by
    rw [← mul_inv]
    exact inv_anti₀ (mul_pos ha hy) h.low

theorem div (h : Within a b x y) (h' : Within a' b' x' y') (ha : 0 < a) (ha' : 0 < a')
    (hb' : 0 < b') (hy : 0 < y) (hy' : 0 < y') :
    Within (a / b') (b / a') (x / x') (y / y') := by
  simp only [div_eq_mul_inv]
  exact h.mul (h'.inv ha' hy') ha (inv_pos.mpr hb') hy (inv_pos.mpr hy')

theorem trans {z : ℚ} (h : Within a b x y) (h' : Within a' b' y z) (ha : 0 ≤ a) (hb : 0 ≤ b) :
    Within (a * a') (b * b') x z where
  low := by
    rw [mul_assoc]
    exact (mul_le_mul_of_nonneg_left h'.low ha).trans h.low
  high := by
    rw [mul_assoc]
    exact h.high.trans (mul_le_mul_of_nonneg_left h'.high hb)

end Within

/-! ## One rounding -/

/-- What has to be known about powers that are too large for arithmetic by rewriting. -/
theorem large_powers :
    10 ^ 308 + 2 ^ 970 < 2 ^ 1024 ∧ 10 * 10 ^ 308 ≤ 27 * 2 ^ 1022 ∧
      (72057594037927935 * 10 ^ 308 ≤ 72057594037927936 * (5010420900022432 * 2 ^ 971) ∧
        72057594037927936 * (5010420900022432 * 2 ^ 971) ≤ 72057594037927937 * 10 ^ 308) ∧
      9007199254740991 * 2 ^ 1074 ≤ 9007199254740992 * (2024022533073106 * 10 ^ 308) ∧
        9007199254740992 * (2024022533073106 * 10 ^ 308) ≤ 9007199254740993 * 2 ^ 1074 := by
  decide +kernel

namespace FloatSize

variable {size : FloatSize} {q : ℚ} {r : Nat}

theorem RoundsTo.fractions_le (h : size.RoundsTo q r) (hq : size.number size.fractions ≤ q) :
    size.fractions ≤ r := by
  obtain ⟨first, hfirst⟩ : ∃ first, size.fractions = first + 1 :=
    Nat.exists_eq_add_one.mpr size.fractions_pos
  have hle : size.fractions ≤ size.infinity :=
    Nat.le_mul_of_pos_left _ (by cases size <;> decide)
  rw [hfirst] at hq ⊢
  exact h.lt_of_middle_lt ((size.middle_lt_number first).trans_le hq) (by omega)

theorem RoundsTo.within (h : size.RoundsTo q r) (hq : size.number size.fractions ≤ q)
    (hr : r < size.infinity) :
    Within (1 + size.halfPlace)⁻¹ (1 - size.halfPlace)⁻¹ (size.number r) q := by
  have hpos := size.fractions_pos
  have hposQ : (1 : ℚ) ≤ size.fractions := by exact_mod_cast hpos
  have hhalf : size.halfPlace ≤ 1 / 2 := by
    rw [halfPlace, div_le_div_iff₀ (by positivity) two_pos]
    linarith
  have hhalf0 := size.halfPlace_pos
  have hpart : size.fractions * size.halfPlace = 1 / 2 := by
    unfold halfPlace
    field_simp
  have hle := h.fractions_le hq
  obtain ⟨p, rfl⟩ : ∃ p, r = p + 1 := Nat.exists_eq_add_one.mpr (hpos.trans_le hle)
  -- above the least normal number a gap is at most `2 * halfPlace` of the number
  have hbelow := size.gap_le_number_succ hle
  have habove := size.gap_le_number hle
  have hlow := h.middle_le
  have hhigh := h.le_middle hr
  have hnumber := size.number_succ p
  rw [middle] at hlow hhigh
  constructor
  · rw [inv_mul_eq_div, div_le_iff₀ (by linarith)]
    have hgap := mul_le_mul_of_nonneg_left habove hhalf0.le
    rw [← mul_assoc, mul_comm size.halfPlace, hpart] at hgap
    linarith
  · rw [inv_mul_eq_div, le_div_iff₀ (by linarith)]
    have hgap := mul_le_mul_of_nonneg_left hbelow hhalf0.le
    rw [← mul_assoc, mul_comm size.halfPlace, hpart] at hgap
    linarith

theorem number_fractions_double : double.number double.fractions = 2 ^ (-1022 : ℤ) := by
  have h := double.number_mul_fractions 0
  rw [Nat.zero_add, Nat.one_mul] at h
  exact h.trans (congrArg (2 ^ ·) (by decide))

theorem middle_last_double :
    double.middle (double.infinity - 1) = 2 ^ (1024 : ℤ) - 2 ^ (970 : ℤ) := by
  have hnumber := double.number_mul_fractions 2046
  have hgap := double.gap_place (k := 2045) (j := 2 * double.fractions - 1) (.inr (by decide))
    (by decide)
  have hplace : 2045 * double.fractions + (2 * double.fractions - 1) = double.infinity - 1 := by
    decide
  have hnext : (2046 + 1) * double.fractions = double.infinity - 1 + 1 := by decide
  have hlast : double.leastExponent + double.fractionBits + (2046 : Nat) = 1024 := by decide
  have hplaces : double.leastExponent + (2045 : Nat) = 970 + 1 := by decide
  rw [hplace, hplaces, zpow_add_one₀ two_ne_zero] at hgap
  rw [hnext, number_succ, hlast, hgap] at hnumber
  rw [middle, hgap]
  linarith

theorem RoundsTo.lt_infinity (h : double.RoundsTo q r) (hq : q < 2 ^ (1024 : ℤ) - 2 ^ (970 : ℤ)) :
    r < double.infinity := by
  rw [← middle_last_double] at hq
  have hle := h.le_of_lt_middle hq
  have hpos : 0 < double.infinity := by decide
  omega

theorem ten_pow_lt_last {n : Nat} (hn : n ≤ 308) :
    (10 : ℚ) ^ n < 2 ^ (1024 : ℤ) - 2 ^ (970 : ℤ) := by
  have hcast : ((10 ^ 308 + 2 ^ 970 : Nat) : ℚ) < ((2 ^ 1024 : Nat) : ℚ) :=
    Nat.cast_lt.mpr large_powers.1
  have hle : (10 : ℚ) ^ n ≤ 10 ^ 308 := pow_le_pow_right₀ (by norm_num) hn
  rw [Nat.cast_add, Nat.cast_pow, Nat.cast_pow, Nat.cast_pow] at hcast
  have h1024 : (2 : ℚ) ^ (1024 : ℤ) = 2 ^ 1024 := zpow_natCast 2 1024
  have h970 : (2 : ℚ) ^ (970 : ℤ) = 2 ^ 970 := zpow_natCast 2 970
  rw [h1024, h970]
  exact lt_sub_iff_add_lt.mpr ((add_le_add_left hle _).trans_lt hcast)

end FloatSize

namespace Json

open FloatSize

/-! ## What is scaled, and by what -/

theorem roundsTo_powerOfTen (n : Nat) : double.RoundsTo (10 ^ n) (powerOfTen n) := by
  refine ⟨Numeral.tenTo n, 1, one_pos, ?_, rfl⟩
  rw [Nat.cast_one, div_one, Numeral.tenTo]
  exact Nat.cast_pow 10 n

theorem number_fractions_le_one : double.number double.fractions ≤ 1 := by
  rw [number_fractions_double]
  exact zpow_le_one_of_nonpos₀ one_le_two (by decide)

theorem number_fractions_le_ten_pow (n : Nat) : double.number double.fractions ≤ 10 ^ n :=
  number_fractions_le_one.trans (one_le_pow₀ (by norm_num))

theorem powerOfTen_pos (n : Nat) : 0 < powerOfTen n :=
  double.fractions_pos.trans_le
    ((roundsTo_powerOfTen n).fractions_le (number_fractions_le_ten_pow n))

theorem within_powerOfTen {n : Nat} (hn : n ≤ largestPower) :
    Within (1 + double.halfPlace)⁻¹ (1 - double.halfPlace)⁻¹ (double.number (powerOfTen n))
      (10 ^ n) :=
  have h := roundsTo_powerOfTen n
  h.within (number_fractions_le_ten_pow n) (h.lt_infinity (ten_pow_lt_last hn))

theorem roundsTo_significand (n : Nat) : double.RoundsTo n (double.round n 1) := by
  have h : double.RoundsTo ((n : ℚ) / (1 : Nat)) (double.round n 1) := roundsTo_round one_pos
  rwa [Nat.cast_one, div_one] at h

theorem number_fractions_le_natCast {n : Nat} (hpos : 0 < n) :
    double.number double.fractions ≤ n :=
  number_fractions_le_one.trans (by exact_mod_cast hpos)

theorem natCast_le_ten_pow {n : Nat} (hn : n < UInt64.size) : (n : ℚ) ≤ 10 ^ 20 := by
  have hsize : n ≤ 10 ^ 20 := by
    have : UInt64.size = 18446744073709551616 := rfl
    omega
  exact_mod_cast hsize

theorem within_significand {n : Nat} (hpos : 0 < n) (hn : n < UInt64.size) :
    Within (1 + double.halfPlace)⁻¹ (1 - double.halfPlace)⁻¹ (double.number (double.round n 1))
      n :=
  have h := roundsTo_significand n
  h.within (number_fractions_le_natCast hpos)
    (h.lt_infinity ((natCast_le_ten_pow hn).trans_lt (ten_pow_lt_last (by decide))))

theorem significand_pos {n : Nat} (hpos : 0 < n) : 0 < double.round n 1 :=
  double.fractions_pos.trans_le
    ((roundsTo_significand n).fractions_le (number_fractions_le_natCast hpos))

theorem roundsTo_product (x y : Nat) :
    double.RoundsTo (double.number x * double.number y) (product x y) := by
  unfold product
  dsimp only
  generalize hexponent : (double.magnitude x).exponent + (double.magnitude y).exponent = e
  refine ⟨_, _, ?_, ?_, rfl⟩
  · rw [Nat.one_shiftLeft]
    positivity
  · have hshift := shift_div_shift ((double.magnitude x).mantissa * (double.magnitude y).mantissa) 1
      (-e)
    rw [neg_neg] at hshift
    rw [hshift, number, number, ← hexponent, zpow_neg, div_inv_eq_mul, zpow_add₀ two_ne_zero]
    push_cast
    ring

theorem roundsTo_quotient (x : Nat) {y : Nat} (hy : 0 < y) :
    double.RoundsTo (double.number x / double.number y) (quotient x y) := by
  have hmantissa : 0 < (double.magnitude y).mantissa := by
    have hpos := double.number_pos hy
    refine Nat.pos_of_ne_zero fun hzero => ?_
    rw [number, hzero, Nat.cast_zero, zero_mul] at hpos
    exact hpos.false
  unfold quotient
  dsimp only
  generalize hexponent : (double.magnitude x).exponent - (double.magnitude y).exponent = e
  refine ⟨_, _, ?_, ?_, rfl⟩
  · rw [Nat.shiftLeft_eq]
    positivity
  · have hshift := shift_div_shift (double.magnitude x).mantissa (double.magnitude y).mantissa (-e)
    rw [neg_neg] at hshift
    rw [hshift, number, number, ← hexponent, zpow_neg, div_inv_eq_mul, zpow_sub₀ two_ne_zero]
    field_simp

theorem largestPower_patterns :
    powerOfTen largestPower = 2045 * double.fractions + 5010420900022432 ∧
      ∀ n < 3, quotient (double.round n 1) (powerOfTen largestPower) = n * 2024022533073106 := by
  decide +kernel

/-- The largest power happens to be nearer than it has to be. -/
theorem within_largestPower : Within (1 - double.halfPlace / 8) (1 + double.halfPlace / 8)
    (double.number (powerOfTen largestPower)) (10 ^ largestPower) := by
  have hplace := double.number_place (k := 2045) (j := 5010420900022432) (.inr (by decide))
    (by decide)
  have hexponent : double.leastExponent + (2045 : Nat) = 971 := by decide
  have hpower : (2 : ℚ) ^ (971 : ℤ) = 2 ^ 971 := zpow_natCast 2 971
  obtain ⟨-, -, ⟨hlow, hhigh⟩, -⟩ := large_powers
  replace hlow := (Nat.cast_le (α := ℚ)).mpr hlow
  replace hhigh := (Nat.cast_le (α := ℚ)).mpr hhigh
  simp only [Nat.cast_mul, Nat.cast_pow, Nat.cast_ofNat] at hlow hhigh
  rw [largestPower_patterns.1, hplace, hexponent, hpower, halfPlace_double, Nat.cast_ofNat,
    largestPower]
  generalize (10 : ℚ) ^ 308 = ten at hlow hhigh ⊢
  generalize (2 : ℚ) ^ 971 = two at hlow hhigh ⊢
  constructor <;> linarith

/-- Significands too small for the quotient to have all its places come out well. -/
theorem within_first_small {n : Nat} (hn : n < 3) :
    Within (1 - 9 / 4 * double.halfPlace) (1 + 9 / 4 * double.halfPlace)
      (double.number (quotient (double.round n 1) (powerOfTen largestPower)))
      (n / 10 ^ largestPower) := by
  have hplaces : n * 2024022533073106 ≤ 2 * double.fractions :=
    (Nat.mul_le_mul_right 2024022533073106 (Nat.le_of_lt_succ hn)).trans (by decide)
  obtain ⟨-, -, -, hlow, hhigh⟩ := large_powers
  replace hlow := (Nat.cast_le (α := ℚ)).mpr hlow
  replace hhigh := (Nat.cast_le (α := ℚ)).mpr hhigh
  simp only [Nat.cast_mul, Nat.cast_pow, Nat.cast_ofNat] at hlow hhigh
  have hnumber : double.number (n * 2024022533073106) = n * (2024022533073106 / 2 ^ 1074) := by
    have hexponent : (2 : ℚ) ^ double.leastExponent = (2 ^ 1074)⁻¹ :=
      (zpow_neg 2 (1074 : Nat)).trans (congrArg (·⁻¹) (zpow_natCast 2 1074))
    rw [number_of_le _ hplaces, hexponent, Nat.cast_mul, Nat.cast_ofNat, mul_assoc, div_eq_mul_inv]
  have hten : (0 : ℚ) < 10 ^ 308 := by positivity
  have htwo : (0 : ℚ) < 2 ^ 1074 := by positivity
  rw [largestPower_patterns.2 n hn, hnumber, halfPlace_double, div_eq_mul_one_div (n : ℚ),
    largestPower]
  generalize (10 : ℚ) ^ 308 = ten at hlow hhigh hten ⊢
  generalize (2 : ℚ) ^ 1074 = two at hlow hhigh htwo ⊢
  constructor
  · rw [mul_left_comm]
    refine mul_le_mul_of_nonneg_left ?_ (Nat.cast_nonneg n)
    rw [mul_one_div, div_le_div_iff₀ hten htwo]
    linarith
  · rw [mul_left_comm]
    refine mul_le_mul_of_nonneg_left ?_ (Nat.cast_nonneg n)
    rw [mul_one_div, div_le_div_iff₀ htwo hten]
    linarith

theorem number_fractions_le_quotient {n : Nat} (hn : 3 ≤ n) :
    double.number double.fractions ≤ 9 / 10 * (n / 10 ^ largestPower) := by
  have hnat := (Nat.cast_le (α := ℚ)).mpr large_powers.2.1
  simp only [Nat.cast_mul, Nat.cast_pow, Nat.cast_ofNat] at hnat
  have hnQ : (3 : ℚ) ≤ n := by exact_mod_cast hn
  have hpower : (2 : ℚ) ^ (-1022 : ℤ) = 1 / 2 ^ 1022 :=
    ((zpow_neg 2 (1022 : Nat)).trans (congrArg (·⁻¹) (zpow_natCast 2 1022))).trans
      (one_div _).symm
  have hten : (0 : ℚ) < 10 ^ 308 := by positivity
  have htwo : (0 : ℚ) < 2 ^ 1022 := by positivity
  rw [number_fractions_double, hpower, largestPower]
  generalize (10 : ℚ) ^ 308 = ten at hnat hten ⊢
  generalize (2 : ℚ) ^ 1022 = two at hnat htwo ⊢
  rw [← mul_div_assoc, div_le_div_iff₀ htwo hten]
  have hscaled := mul_le_mul_of_nonneg_right hnQ htwo.le
  linarith

/-- The quotient by the largest power, where it is divided twice. -/
theorem within_first {n : Nat} (hpos : 0 < n) (hn : n < UInt64.size) :
    Within (1 - 9 / 4 * double.halfPlace) (1 + 9 / 4 * double.halfPlace)
      (double.number (quotient (double.round n 1) (powerOfTen largestPower)))
      (n / 10 ^ largestPower) := by
  rcases Nat.lt_or_ge n 3 with hsmall | hlarge
  · exact within_first_small hsmall
  have hquotient := (within_significand hpos hn).div within_largestPower
    (by rw [halfPlace_double]; norm_num) (by rw [halfPlace_double]; norm_num)
    (by rw [halfPlace_double]; norm_num) (by exact_mod_cast hpos) (by positivity)
  have hround := roundsTo_quotient (double.round n 1) (powerOfTen_pos largestPower)
  have hplaces : double.number double.fractions ≤
      double.number (double.round n 1) / double.number (powerOfTen largestPower) := by
    refine (number_fractions_le_quotient hlarge).trans (le_trans ?_ hquotient.low)
    refine mul_le_mul_of_nonneg_right ?_ (by positivity)
    rw [halfPlace_double]
    norm_num
  -- with at most twenty digits nothing overflows
  have hfinite : quotient (double.round n 1) (powerOfTen largestPower) < double.infinity := by
    have hle : (n : ℚ) / 10 ^ largestPower ≤ 10 ^ 20 :=
      (div_le_self (Nat.cast_nonneg n) (one_le_pow₀ (by norm_num))).trans (natCast_le_ten_pow hn)
    have hbound : (1 - double.halfPlace)⁻¹ / (1 - double.halfPlace / 8) ≤ 10 := by
      rw [halfPlace_double]
      norm_num
    refine hround.lt_infinity (lt_of_le_of_lt ?_ (ten_pow_lt_last (by decide : 21 ≤ 308)))
    calc _ ≤ (1 - double.halfPlace)⁻¹ / (1 - double.halfPlace / 8) *
          (n / 10 ^ largestPower) :=
          hquotient.high
      _ ≤ 10 * 10 ^ 20 := mul_le_mul hbound hle (by positivity) (by norm_num)
      _ = 10 ^ 21 := by norm_num
  refine ((hround.within hplaces hfinite).trans hquotient ?_ ?_).mono ?_ ?_ (by positivity)
  all_goals rw [halfPlace_double]; norm_num

/-! ## All steps -/

section

variable {n k : Nat} (hpos : 0 < n) (hn : n < UInt64.size) (hk : k ≤ largestPower)

include hpos hn hk

theorem within_one_division :
    Within (1 - 33 / 10 * double.halfPlace) (1 + 33 / 10 * double.halfPlace)
      (double.number (double.round n 1) / double.number (powerOfTen k)) (n / 10 ^ k) := by
  have hquotient := (within_significand hpos hn).div (within_powerOfTen hk)
    (by rw [halfPlace_double]; norm_num) (by rw [halfPlace_double]; norm_num)
    (by rw [halfPlace_double]; norm_num) (Nat.cast_pos.mpr hpos) (by positivity)
  refine hquotient.mono ?_ ?_ (by positivity)
  all_goals rw [halfPlace_double]; norm_num

theorem within_two_divisions :
    Within (1 - 33 / 10 * double.halfPlace) (1 + 33 / 10 * double.halfPlace)
      (double.number (quotient (double.round n 1) (powerOfTen largestPower)) /
        double.number (powerOfTen k)) (n / 10 ^ largestPower / 10 ^ k) := by
  have hnQ : (0 : ℚ) < n := Nat.cast_pos.mpr hpos
  have hquotient := (within_first hpos hn).div (within_powerOfTen hk)
    (by rw [halfPlace_double]; norm_num) (by rw [halfPlace_double]; norm_num)
    (by rw [halfPlace_double]; norm_num) (by positivity) (by positivity)
  refine hquotient.mono ?_ ?_ (by positivity)
  all_goals rw [halfPlace_double]; norm_num

theorem within_product :
    Within (1 - 33 / 10 * double.halfPlace) (1 + 33 / 10 * double.halfPlace)
      (double.number (double.round n 1) * double.number (powerOfTen k)) (n * 10 ^ k) := by
  have hproduct := (within_significand hpos hn).mul (within_powerOfTen hk)
    (by rw [halfPlace_double]; norm_num) (by rw [halfPlace_double]; norm_num)
    (Nat.cast_pos.mpr hpos) (by positivity)
  refine hproduct.mono ?_ ?_ (by positivity)
  all_goals rw [halfPlace_double]; norm_num

end

/-- What is computed in the end is rounded from a number that is near the one that was meant. -/
theorem exists_scaleByTen {n : Nat} {e : Int} (hpos : 0 < n) (hn : n < UInt64.size)
    (hlow : -616 ≤ e) (hhigh : e ≤ 308) :
    ∃ z w, double.RoundsTo z w ∧
      Within (1 - 33 / 10 * double.halfPlace) (1 + 33 / 10 * double.halfPlace) z (n * 10 ^ e) ∧
      (w < double.infinity → scaleByTen n e = some w) := by
  have hnonzero : double.round n 1 ≠ 0 := (significand_pos hpos).ne'
  have hlargest : largestPower = 308 := rfl
  unfold scaleByTen
  dsimp only
  rcases lt_or_ge e 0 with hneg | hnonneg
  · obtain ⟨k, rfl⟩ : ∃ k : Nat, e = -k := ⟨(-e).toNat, by omega⟩
    rw [if_pos hneg, neg_neg, Int.toNat_natCast, zpow_neg, zpow_natCast, ← div_eq_mul_inv]
    by_cases hk : k ≤ largestPower
    · refine ⟨_, _, roundsTo_quotient (double.round n 1) (powerOfTen_pos k),
        within_one_division hpos hn hk, fun _ => ?_⟩
      rw [divideByTen, if_pos hk]
    · -- the first of two divisions is by the largest power
      rw [Nat.not_le] at hk
      have hrest : k - largestPower ≤ largestPower := by omega
      have hpower : (n : ℚ) / 10 ^ k = n / 10 ^ largestPower / 10 ^ (k - largestPower) := by
        rw [div_div, ← pow_add, Nat.add_sub_cancel' hk.le]
      rw [hpower]
      refine ⟨_, _, roundsTo_quotient (quotient (double.round n 1) (powerOfTen largestPower))
        (powerOfTen_pos (k - largestPower)), within_two_divisions hpos hn hrest, fun _ => ?_⟩
      obtain ⟨fuel, hfuel⟩ : ∃ fuel, k / largestPower = fuel + 1 :=
        Nat.exists_eq_add_one.mpr (Nat.div_pos hk.le (by decide))
      rw [hfuel, divideByTen, if_neg hk.not_ge, if_neg hnonzero, divideByTen, if_pos hrest]
  · obtain ⟨k, rfl⟩ : ∃ k : Nat, e = k := ⟨e.toNat, by omega⟩
    have hk : k ≤ largestPower := by omega
    rw [if_neg hnonneg.not_gt, if_neg hnonzero, Int.toNat_natCast, if_neg (Nat.not_lt.mpr hk),
      zpow_natCast]
    refine ⟨_, _, roundsTo_product (double.round n 1) (powerOfTen k), within_product hpos hn hk,
      fun hw => ?_⟩
    rw [if_neg hw.ne]

/-! ## Neighbours -/

end Json

namespace FloatSize

/-- A number between the middles around a pattern. -/
structure Around (size : FloatSize) (p : Nat) (d : ℚ) : Prop where
  low : ∀ i < p, size.middle i ≤ d
  high : d ≤ size.middle p

variable {size : FloatSize} {p w : Nat} {z d : ℚ}

theorem middle_le_mul_number (i : Nat) : double.middle i ≤
    (1 - double.halfPlace / 2) * (1 - double.halfPlace) ^ 4 * double.number (i + 5) := by
  have hpart : 0 ≤ 1 - double.halfPlace := by
    rw [halfPlace_double]
    norm_num
  have hhalf : 0 ≤ 1 - double.halfPlace / 2 := by
    rw [halfPlace_double]
    norm_num
  calc double.middle i ≤ (1 - double.halfPlace / 2) * double.number (i + 1) :=
        double.middle_le_mul_number_succ i
    _ ≤ (1 - double.halfPlace / 2) * ((1 - double.halfPlace) * ((1 - double.halfPlace) *
        ((1 - double.halfPlace) * ((1 - double.halfPlace) * double.number (i + 5))))) := by
      gcongr
      refine (double.number_le_mul_number_succ (i + 1)).trans ?_
      gcongr
      refine (double.number_le_mul_number_succ (i + 2)).trans ?_
      gcongr
      refine (double.number_le_mul_number_succ (i + 3)).trans ?_
      gcongr
      exact double.number_le_mul_number_succ (i + 4)
    _ = (1 - double.halfPlace / 2) * (1 - double.halfPlace) ^ 4 * double.number (i + 5) := by ring

/-- Five patterns further down, what is lost in scaling is not enough to reach the middle. -/
theorem middle_lt_of_around {i : Nat} (hd : double.Around (i + 5) d)
    (hz : Within (1 - 33 / 10 * double.halfPlace) (1 + 33 / 10 * double.halfPlace) z d) :
    double.middle i < z := by
  have hlow := hd.low (i + 4) (by omega)
  have hpart : 0 ≤ 1 - 33 / 10 * double.halfPlace := by
    rw [halfPlace_double]
    norm_num
  have hz' : (1 - 33 / 10 * double.halfPlace) * double.middle (i + 4) ≤ z :=
    (mul_le_mul_of_nonneg_left hlow hpart).trans hz.low
  refine lt_of_lt_of_le ?_ hz'
  by_cases hlarge : double.fractions ≤ i + 5
  · -- gaps are a part of the number
    have hgap := double.gap_le_number_succ hlarge
    have hpos := double.number_pos (Nat.succ_pos (i + 4))
    have hmiddle : (1 - double.halfPlace) * double.number (i + 5) ≤ double.middle (i + 4) := by
      have hnumber := double.number_succ (i + 4)
      rw [middle, halfPlace_double]
      have hfractions : (double.fractions : ℚ) = 2 ^ 52 := by
        rw [cast_fractions, zpow_natCast, fractionBits]
      rw [hfractions] at hgap
      linarith
    refine (middle_le_mul_number i).trans_lt (lt_of_lt_of_le ?_
      (mul_le_mul_of_nonneg_left hmiddle hpart))
    rw [← mul_assoc]
    refine mul_lt_mul_of_pos_right ?_ hpos
    rw [halfPlace_double]
    norm_num
  · -- the smallest numbers are evenly spaced
    rw [middle, middle, double.number_of_le (by omega), double.number_of_le (by omega),
      double.gap_of_lt (by omega), double.gap_of_lt (by omega)]
    have hgap : (0 : ℚ) < 2 ^ double.leastExponent := zpow_pos two_pos _
    generalize (2 : ℚ) ^ double.leastExponent = gap at hgap ⊢
    have hi : ((i + 5 : Nat) : ℚ) < ((2 ^ 52 : Nat) : ℚ) := by
      exact_mod_cast (by omega : i + 5 < double.fractions)
    push_cast at hi ⊢
    rw [halfPlace_double]
    have hplaces : (i : ℚ) + 1 / 2 < (1 - 33 / 10 * (1 / 2 ^ 53)) * (i + 4 + 1 / 2) := by linarith
    calc i * gap + gap / 2 = (i + 1 / 2) * gap := by ring
      _ < (1 - 33 / 10 * (1 / 2 ^ 53)) * (i + 4 + 1 / 2) * gap :=
        mul_lt_mul_of_pos_right hplaces hgap
      _ = (1 - 33 / 10 * (1 / 2 ^ 53)) * ((i + 4) * gap + gap / 2) := by ring

theorem RoundsTo.few_places (h : double.RoundsTo z w) (hd : double.Around p d)
    (hroom : p + 4 < double.infinity)
    (hz : Within (1 - 33 / 10 * double.halfPlace) (1 + 33 / 10 * double.halfPlace) z d) :
    w ≤ p + 4 ∧ p ≤ w + 4 := by
  have hhalf : double.halfPlace = 1 / 2 ^ 53 := halfPlace_double
  constructor
  · refine h.le_of_lt_middle (lt_of_lt_of_le ?_ (double.middle_add_four p))
    have hgap := double.number_succ_mul_halfPlace_le p
    have hpos := double.gap_pos p
    rw [number_succ] at hgap
    calc z ≤ (1 + 33 / 10 * double.halfPlace) * d := hz.high
      _ ≤ (1 + 33 / 10 * double.halfPlace) * (double.number p + double.gap p / 2) := by
        refine mul_le_mul_of_nonneg_left hd.high ?_
        rw [hhalf]
        norm_num
      _ < double.number p + 9 / 2 * double.gap p := by
        rw [hhalf] at hgap ⊢
        linarith
  · by_cases hp : p < 5
    · omega
    · obtain ⟨i, rfl⟩ : ∃ i, p = i + 5 := Nat.exists_eq_add_of_le' (Nat.le_of_not_lt hp)
      have hlt := h.lt_of_middle_lt (middle_lt_of_around hd hz) (by omega)
      omega

end FloatSize

end DeviceTrial
