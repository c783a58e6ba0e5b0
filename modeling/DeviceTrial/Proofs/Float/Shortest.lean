import DeviceTrial.Decimal
import DeviceTrial.Proofs.Float.Rounding

namespace DeviceTrial

/-- Both sides are brought to naturals by one positive factor. -/
theorem exists_scaled (a : Nat) (i : Int) (n : Nat) (j : Int) : ∃ c : ℚ, 0 < c ∧
    (((a * Numeral.tenTo i.toNat) <<< (-j).toNat : Nat) : ℚ) = a * 10 ^ i * c ∧
      (((n * Numeral.tenTo (-i).toNat) <<< j.toNat : Nat) : ℚ) = n * 2 ^ j * c := by
  have hsplit (b : ℚ) (hb : b ≠ 0) (k : ℤ) : b ^ k.toNat = b ^ k * b ^ (-k).toNat := by
    rw [← zpow_natCast, ← zpow_natCast, ← zpow_add₀ hb]
    congr 1
    omega
  have hten (k : Nat) : ((Numeral.tenTo k : Nat) : ℚ) = 10 ^ k := Nat.cast_pow 10 k
  refine ⟨10 ^ (-i).toNat * 2 ^ (-j).toNat, by positivity, ?_, ?_⟩
  · rw [Nat.shiftLeft_eq]
    push_cast
    rw [hten, hsplit 10 (by norm_num) i]
    ring
  · rw [Nat.shiftLeft_eq]
    push_cast
    rw [hten, hsplit 2 two_ne_zero j]
    ring

section

variable {a n : Nat} {i j : Int}

theorem compareScaled_eq_lt : compareScaled a i n j = .lt ↔ (a : ℚ) * 10 ^ i < n * 2 ^ j := by
  obtain ⟨c, hc, ha, hn⟩ := exists_scaled a i n j
  rw [compareScaled, Nat.compare_eq_lt, ← Nat.cast_lt (α := ℚ), ha, hn, mul_lt_mul_iff_left₀ hc]

theorem compareScaled_eq_gt : compareScaled a i n j = .gt ↔ (n : ℚ) * 2 ^ j < a * 10 ^ i := by
  obtain ⟨c, hc, ha, hn⟩ := exists_scaled a i n j
  rw [compareScaled, Nat.compare_eq_gt, ← Nat.cast_lt (α := ℚ), ha, hn, mul_lt_mul_iff_left₀ hc]

theorem compareScaled_eq_eq : compareScaled a i n j = .eq ↔ (a : ℚ) * 10 ^ i = n * 2 ^ j := by
  obtain ⟨c, hc, ha, hn⟩ := exists_scaled a i n j
  rw [compareScaled, Nat.compare_eq_eq, ← Nat.cast_inj (R := ℚ), ha, hn, mul_left_inj' hc.ne']

end

/-- The number that a decimal denotes. -/
def Decimal.number (d : Decimal) : ℚ := d.digits * 10 ^ d.exponent

namespace FloatSize

variable (size : FloatSize) (p : Nat)

/-- The ends of what reads back, in quarters of the last place. -/
theorem middle_eq_high : size.middle p = (4 * (size.magnitude p).mantissa + 2 : Nat) *
    2 ^ ((size.magnitude p).exponent - 2) := by
  rw [middle, number, gap, zpow_sub₀ two_ne_zero]
  push_cast
  ring

theorem middle_eq_low : size.middle p = ((if (size.magnitude (p + 1)).narrow = true then
      4 * (size.magnitude (p + 1)).mantissa - 1 else 4 * (size.magnitude (p + 1)).mantissa - 2
        : Nat) : ℚ) * 2 ^ ((size.magnitude (p + 1)).exponent - 2) := by
  have hpos := size.fractions_pos
  obtain ⟨k, j, rfl, hlow, hhigh⟩ := size.exists_place p
  rw [middle, size.number_place hlow hhigh.le, size.gap_place hlow hhigh]
  rcases Nat.lt_or_eq_of_le (Nat.succ_le_of_lt hhigh) with hnext | hnext
  · have hwide : ¬ (j + 1 = size.fractions ∧ 0 < k) := by
      rintro ⟨hj, hk⟩
      omega
    rw [Nat.add_assoc, size.magnitude_place (hlow.imp_right Nat.le_succ_of_le) hnext]
    simp only [decide_eq_true_eq, if_neg hwide]
    rw [zpow_sub₀ two_ne_zero, Nat.cast_sub (by omega)]
    push_cast
    ring
  · -- the pattern before a power of two
    have hplace : k * size.fractions + j + 1 = (k + 1) * size.fractions + size.fractions := by
      rw [Nat.succ_mul]
      omega
    have hj : (j : ℚ) + 1 = 2 * size.fractions := by exact_mod_cast hnext
    rw [hplace, size.magnitude_place (.inr (Nat.le_refl _)) (by omega)]
    simp only [decide_eq_true_eq]
    rw [if_pos ⟨trivial, Nat.succ_pos k⟩, zpow_sub₀ two_ne_zero, Nat.cast_sub (by omega)]
    push_cast
    rw [← add_assoc, zpow_add_one₀ two_ne_zero, eq_sub_of_add_eq hj]
    ring

variable {size p} {d : Decimal}

/-- What reads back lies between the middles around the value. -/
theorem bounds_of_readsBack (h : (size.magnitude (p + 1)).readsBack d = true) :
    size.middle p ≤ d.number ∧ d.number ≤ size.middle (p + 1) := by
  rw [middle_eq_low, middle_eq_high, Decimal.number]
  unfold Binary.readsBack at h
  simp only [Bool.and_eq_true, Bool.or_eq_true, beq_iff_eq, compareScaled_eq_gt,
    compareScaled_eq_lt, compareScaled_eq_eq] at h
  obtain ⟨hlow, hhigh⟩ := h
  exact ⟨hlow.elim le_of_lt fun h => h.2.ge, hhigh.elim le_of_lt fun h => h.2.le⟩

theorem readsBack_of_between (hlow : size.middle p < d.number)
    (hhigh : d.number < size.middle (p + 1)) :
    (size.magnitude (p + 1)).readsBack d = true := by
  rw [middle_eq_low, Decimal.number] at hlow
  rw [middle_eq_high, Decimal.number] at hhigh
  unfold Binary.readsBack
  simp only [Bool.and_eq_true, Bool.or_eq_true, beq_iff_eq, compareScaled_eq_gt,
    compareScaled_eq_lt, compareScaled_eq_eq]
  exact ⟨.inl hlow, .inl hhigh⟩

end FloatSize

namespace Binary

def number (x : Binary) : ℚ := x.mantissa * 2 ^ x.exponent

variable {x : Binary} {k : Int} {fuel : Nat}

/-- The search stops at the power of ten right above the value. -/
theorem scaleFrom_spec (hlow : 10 ^ (k - 1) ≤ x.number) (hhigh : x.number < 10 ^ (k - 1 + fuel)) :
    10 ^ (x.scaleFrom fuel k - 1) ≤ x.number ∧ x.number < 10 ^ x.scaleFrom fuel k := by
  induction fuel generalizing k with
  | zero =>
    rw [Nat.cast_zero, add_zero] at hhigh
    exact absurd hlow hhigh.not_ge
  | succ fuel ih =>
    rw [scaleFrom]
    -- either this power of ten is above the number, or the search starts at the next one
    by_cases habove : compareScaled 1 k x.mantissa x.exponent = .gt
    · rw [habove]
      rw [compareScaled_eq_gt, Nat.cast_one, one_mul] at habove
      exact ⟨hlow, habove⟩
    · rw [if_neg (by simpa using habove)]
      rw [compareScaled_eq_gt, Nat.cast_one, one_mul, not_lt] at habove
      have hnext : k + 1 - 1 + (fuel : ℤ) = k - 1 + (fuel + 1 : Nat) := by
        push_cast
        ring
      refine ih ?_ ?_
      · rwa [add_sub_cancel_right]
      · rwa [hnext]

/-- Powers of ten and of two, by two fractions on either side of the logarithm. -/
theorem ten_zpow_le_two_zpow {k b : Int} (h : 103 * k ≤ 31 * b) (h' : 93 * k ≤ 28 * b) :
    (10 : ℚ) ^ k ≤ 2 ^ b := by
  have hten : (1 : ℚ) ≤ 10 := by norm_num
  have hpower (a : ℚ) (m : Nat) (i : Int) : (a ^ i) ^ m = a ^ (m * i) := by
    rw [← zpow_natCast, ← zpow_mul, mul_comm]
  have hswap (a : ℚ) (m : Nat) (i : Int) : a ^ (m * i) = (a ^ m) ^ i := by
    rw [zpow_mul, zpow_natCast]
  rcases le_or_gt 0 b with hb | hb
  · refine le_of_pow_le_pow_left₀ (n := 103) (by decide) (by positivity) ?_
    calc ((10 : ℚ) ^ k) ^ 103 = 10 ^ ((103 : Nat) * k) := hpower ..
      _ ≤ 10 ^ ((31 : Nat) * b) := zpow_le_zpow_right₀ hten h
      _ = (10 ^ 31) ^ b := hswap ..
      _ ≤ (2 ^ 103) ^ b := zpow_le_zpow_left₀ hb (by norm_num) (by norm_num)
      _ = (2 ^ b) ^ 103 := by rw [hpower, hswap]
  · refine le_of_pow_le_pow_left₀ (n := 93) (by decide) (by positivity) ?_
    have hinv : ((2 : ℚ) ^ 93) ^ (-b) ≤ (10 ^ 28) ^ (-b) :=
      zpow_le_zpow_left₀ (by omega) (by norm_num) (by norm_num)
    rw [zpow_neg, zpow_neg, inv_le_inv₀ (by positivity) (by positivity)] at hinv
    calc ((10 : ℚ) ^ k) ^ 93 = 10 ^ ((93 : Nat) * k) := hpower ..
      _ ≤ 10 ^ ((28 : Nat) * b) := zpow_le_zpow_right₀ hten h'
      _ = (10 ^ 28) ^ b := hswap ..
      _ ≤ (2 ^ 93) ^ b := hinv
      _ = (2 ^ b) ^ 93 := by rw [hpower, hswap]

theorem two_zpow_le_ten_zpow {k b : Int} (h : 31 * b ≤ 103 * k) (h' : 28 * b ≤ 93 * k) :
    (2 : ℚ) ^ b ≤ 10 ^ k := by
  have hinv := ten_zpow_le_two_zpow (k := -k) (b := -b) (by omega) (by omega)
  rw [zpow_neg, zpow_neg] at hinv
  exact (inv_le_inv₀ (by positivity) (by positivity)).mp hinv

theorem scale_spec {b : Int} (hb : (x.mantissa.log2 : Int) + x.exponent = b) (hpos : 0 < x.mantissa)
    (hlow : -1074 ≤ b) (hhigh : b ≤ 1023) :
    10 ^ (x.scale - 1) ≤ x.number ∧ x.number < 10 ^ x.scale := by
  have hbelow : (2 : ℚ) ^ b ≤ x.number := by
    rw [← hb, zpow_add₀ two_ne_zero, number]
    exact mul_le_mul_of_nonneg_right (two_pow_log2_le hpos) (by positivity)
  have habove : x.number < 2 ^ (b + 1) := by
    rw [← hb, add_right_comm, zpow_add₀ two_ne_zero, number]
    exact mul_lt_mul_of_pos_right (lt_two_pow_log2_succ x.mantissa) (by positivity)
  rw [scale, scaleGuess, hb]
  refine scaleFrom_spec ?_ ?_
  · exact (ten_zpow_le_two_zpow (by omega) (by omega)).trans hbelow
  · exact habove.trans_le (two_zpow_le_ten_zpow (by omega) (by omega))

theorem floorOn_spec (x : Binary) (e : Int) :
    (x.floorOn e : ℚ) * 10 ^ e ≤ x.number ∧ x.number < (x.floorOn e + 1) * 10 ^ e := by
  obtain ⟨c, hc, hten, hx⟩ := exists_scaled 1 e x.mantissa x.exponent
  rw [Nat.one_mul, Nat.cast_one, one_mul] at hten
  have hdiv : x.floorOn e = (x.mantissa * Numeral.tenTo (-e).toNat) <<< x.exponent.toNat /
    Numeral.tenTo e.toNat <<< (-x.exponent).toNat := rfl
  have hpos : 0 < Numeral.tenTo e.toNat <<< (-x.exponent).toNat := by
    rw [Nat.shiftLeft_eq]
    exact Nat.mul_pos (Nat.pow_pos (by decide)) (by positivity)
  generalize (x.mantissa * Numeral.tenTo (-e).toNat) <<< x.exponent.toNat = num at hx hdiv
  generalize Numeral.tenTo e.toNat <<< (-x.exponent).toNat = den at hten hdiv hpos
  have hlow : x.floorOn e * den ≤ num := hdiv ▸ Nat.div_mul_le_self num den
  have hhigh : num < (x.floorOn e + 1) * den :=
    Nat.lt_mul_of_div_lt (hdiv ▸ Nat.lt_succ_self (num / den)) hpos
  replace hlow := (Nat.cast_le (α := ℚ)).mpr hlow
  replace hhigh := (Nat.cast_lt (α := ℚ)).mpr hhigh
  push_cast at hlow hhigh
  rw [hten, hx, ← mul_assoc] at hlow hhigh
  exact ⟨le_of_mul_le_mul_right hlow hc, lt_of_mul_lt_mul_right hhigh hc.le⟩

theorem floorOn_lt {x : Binary} {scale : Int} (h : x.number < 10 ^ scale) (k : Nat) :
    x.floorOn (scale - k) < 10 ^ k := by
  have hle : (x.floorOn (scale - k) : ℚ) * 10 ^ (scale - k) < 10 ^ k * 10 ^ (scale - k) := by
    refine ((x.floorOn_spec _).1.trans_lt h).trans_eq ?_
    rw [← zpow_natCast, ← zpow_add₀ (by norm_num), add_sub_cancel]
  exact_mod_cast lt_of_mul_lt_mul_right hle (by positivity)

variable {tie : Tie} {e : Int} {d : Decimal}

theorem onGrid_eq_some (h : x.onGrid tie e = some d) : x.readsBack d = true ∧ d.exponent = e ∧
    d.digits ≤ x.floorOn e + 1 := by
  have hbelow : x.floorOn e ≤ x.floorOn e + 1 := Nat.le_succ _
  unfold onGrid at h
  dsimp only at h
  split at h
  · cases h
  · next hreads _ =>
    cases h
    exact ⟨hreads, rfl, hbelow⟩
  · next _ hreads =>
    cases h
    exact ⟨hreads, rfl, Nat.le_refl _⟩
  · next hreads hreads' =>
    have hchoice : d = ⟨x.floorOn e, e⟩ ∨ d = ⟨x.floorOn e + 1, e⟩ := by
      split at h
      · exact .inl (Option.some.inj h).symm
      · exact .inr (Option.some.inj h).symm
      · exact .inr (Option.some.inj h).symm
      · split at h
        · exact .inl (Option.some.inj h).symm
        · exact .inr (Option.some.inj h).symm
    obtain rfl | rfl := hchoice
    · exact ⟨hreads, rfl, hbelow⟩
    · exact ⟨hreads', rfl, Nat.le_refl _⟩

theorem onGrid_eq_none (h : x.onGrid tie e = none) :
    x.readsBack ⟨x.floorOn e, e⟩ = false ∧ x.readsBack ⟨x.floorOn e + 1, e⟩ = false := by
  unfold onGrid at h
  dsimp only at h
  split at h
  · next hbelow habove => exact ⟨hbelow, habove⟩
  · cases h
  · cases h
  · split at h <;> cases h

end Binary

theorem Decimal.strip_spec (fuel : Nat) (d : Decimal) : (d.strip fuel).number = d.number ∧
    (d.strip fuel).digits ≤ d.digits ∧ d.exponent ≤ (d.strip fuel).exponent := by
  induction fuel generalizing d with
  | zero => exact ⟨rfl, Nat.le_refl _, le_refl _⟩
  | succ fuel ih =>
    rw [strip]
    split
    · next hzero =>
      obtain ⟨hnumber, hdigits, hexponent⟩ := ih ⟨d.digits / 10, d.exponent + 1⟩
      have hsum : ((d.digits / 10 : Nat) : ℚ) * 10 = d.digits := by
        exact_mod_cast Nat.div_mul_cancel (Nat.dvd_of_mod_eq_zero hzero.1)
      refine ⟨hnumber.trans ?_, hdigits.trans (Nat.div_le_self _ _), le_trans ?_ hexponent⟩
      · rw [number, number, zpow_add_one₀ (by norm_num), ← hsum]
        ring
      · exact (Int.lt_succ d.exponent).le
    · exact ⟨rfl, Nat.le_refl _, le_refl _⟩

namespace FloatSize

variable {p : Nat}

theorem scale_magnitude (hp : p + 1 < double.infinity) :
    (10 : ℚ) ^ ((double.magnitude (p + 1)).scale - 1) ≤ double.number (p + 1) ∧
      double.number (p + 1) < 10 ^ (double.magnitude (p + 1)).scale := by
  obtain ⟨k, j, hplace, hlow, hhigh⟩ := double.exists_place (p + 1)
  have hfractions : double.fractions = 2 ^ 52 := rfl
  have hleast : double.leastExponent = -1074 := rfl
  have hj : 0 < j := by
    rcases hlow with rfl | hj
    · omega
    · omega
  have hk : k ≤ 2045 := by
    rcases hlow with rfl | hj
    · exact Nat.zero_le _
    · have hroom : k * double.fractions + j < 2047 * double.fractions := hplace ▸ hp
      have hfield : (k + 1) * double.fractions < 2047 * double.fractions := by
        rw [Nat.succ_mul]
        omega
      exact Nat.le_of_lt_succ (Nat.lt_of_succ_lt_succ (Nat.lt_of_mul_lt_mul_right hfield))
  have hlog : j.log2 < 53 := (Nat.log2_lt hj.ne').mpr (by omega)
  have hmagnitude := double.magnitude_place hlow hhigh
  rw [← hplace] at hmagnitude
  have hb : ((double.magnitude (p + 1)).mantissa.log2 : Int) +
      (double.magnitude (p + 1)).exponent = j.log2 + (-1074 + k) := by
    rw [hmagnitude, hleast]
  exact Binary.scale_spec hb (by rw [hmagnitude]; exact hj) (by omega) (by omega)

theorem neg_le_scale {scale : Int} (h : double.number (p + 1) < 10 ^ scale) : -323 ≤ scale := by
  by_contra hless
  have hsmall : (10 : ℚ) ^ scale ≤ 2 ^ (-1074 : Int) :=
    Binary.ten_zpow_le_two_zpow (by omega) (by omega)
  have hone : (2 : ℚ) ^ (-1074 : Int) ≤ double.number (p + 1) := by
    have hle := double.number_strictMono.monotone (Nat.le_add_left 1 p)
    rwa [double.number_of_le (by decide), Nat.cast_one, one_mul] at hle
  exact (h.trans_le hsmall).not_ge hone

/-- On a grid of seventeen digits the nearer neighbour reads back. -/
theorem readsBack_of_fine {e : Int} (hp : 10 ^ 16 * 10 ^ e ≤ double.number (p + 1)) :
    let x := double.magnitude (p + 1)
    x.readsBack ⟨x.floorOn e, e⟩ = true ∨ x.readsBack ⟨x.floorOn e + 1, e⟩ = true := by
  intro x
  obtain ⟨hlow, hhigh⟩ : (x.floorOn e : ℚ) * 10 ^ e ≤ double.number (p + 1) ∧
      double.number (p + 1) < (x.floorOn e + 1) * 10 ^ e := x.floorOn_spec e
  have hgrid : (0 : ℚ) < 10 ^ e := by positivity
  -- half a step of the grid is less than half the gap on either side
  have hgap : (10 : ℚ) ^ e < double.gap p := by
    have h := double.number_succ_le_gap p
    rw [cast_fractions, zpow_natCast, fractionBits] at h
    linarith
  have hnext := double.gap_mono (Nat.le_succ p)
  have hnumber := double.number_succ p
  have hmiddle := double.number_lt_middle (p + 1)
  rcases le_or_gt (double.number (p + 1) - x.floorOn e * 10 ^ e) (10 ^ e / 2) with hnear | hfar
  · refine .inl (readsBack_of_between ?_ ?_)
    · change double.middle p < x.floorOn e * 10 ^ e
      rw [middle]
      linarith
    · exact hlow.trans_lt hmiddle
  · refine .inr (readsBack_of_between ?_ ?_)
    · change double.middle p < (x.floorOn e + 1 : Nat) * 10 ^ e
      push_cast
      exact (double.middle_lt_number p).trans hhigh
    · change (x.floorOn e + 1 : Nat) * 10 ^ e < double.middle (p + 1)
      push_cast
      rw [middle]
      linarith

theorem shortest_spec (tie : Tie) (hp : p + 1 < double.infinity) :
    let d := (double.magnitude (p + 1)).shortest tie
    double.middle p ≤ d.number ∧ d.number ≤ double.middle (p + 1) ∧ d.digits ≤ 10 ^ 17 ∧
      -340 ≤ d.exponent := by
  intro d
  have hd : d = (double.magnitude (p + 1)).shortest tie := rfl
  obtain ⟨hlow, hhigh⟩ := scale_magnitude hp
  rw [Binary.shortest] at hd
  generalize hx : double.magnitude (p + 1) = x at hd hlow hhigh
  have hvalue : x.number = double.number (p + 1) := hx ▸ rfl
  have hscale := neg_le_scale hhigh
  split at hd
  -- found on a grid, with at most seventeen digits
  · next found hfound =>
    obtain ⟨i, hi, hgrid⟩ := List.exists_of_findSome?_eq_some hfound
    rw [List.mem_range] at hi
    obtain ⟨hreads, hexponent, hdigits⟩ := Binary.onGrid_eq_some hgrid
    obtain ⟨hnumber, hstrip, hmore⟩ := found.strip_spec 17
    obtain ⟨hmiddle, hmiddle'⟩ := bounds_of_readsBack (hx ▸ hreads)
    rw [← hd] at hnumber hstrip hmore
    refine ⟨hnumber ▸ hmiddle, hnumber ▸ hmiddle', ?_, by omega⟩
    have hfloor := Binary.floorOn_lt (hvalue.trans_lt hhigh) (i + 1)
    have hseventeen : 10 ^ (i + 1) ≤ 10 ^ 17 := Nat.pow_le_pow_right (by decide) (by omega)
    omega
  -- at seventeen digits the grid is finer than the gap, so one of its neighbours reads back
  · next hnone =>
    have hgrid := Binary.onGrid_eq_none
      (List.findSome?_eq_none_iff.mp hnone 16 (List.mem_range.mpr (by decide)))
    have hfine : 10 ^ 16 * (10 : ℚ) ^ (x.scale - (16 + 1 : Nat)) ≤ double.number (p + 1) := by
      refine le_of_eq_of_le ?_ hlow
      rw [← zpow_natCast, ← zpow_add₀ (by norm_num)]
      congr 1
      push_cast
      ring
    have hreads := readsBack_of_fine hfine
    rw [hx] at hreads
    rcases hreads with hreads | hreads
    · exact absurd (hreads.symm.trans hgrid.1) (by decide)
    · exact absurd (hreads.symm.trans hgrid.2) (by decide)

end FloatSize

end DeviceTrial
