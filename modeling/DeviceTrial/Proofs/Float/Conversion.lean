import DeviceTrial.Proofs.Float.Rounding

namespace DeviceTrial.FloatSize

variable {size source target : FloatSize}

theorem infinity_lt_signBit (size : FloatSize) : size.infinity < size.signBit := by
  cases size <;> decide

theorem two_pow_bits (size : FloatSize) : 2 ^ size.bits = 2 * size.signBit := by
  cases size <;> decide

theorem two_pow_bits_pred (size : FloatSize) : 2 ^ (size.bits - 1) = size.signBit := by
  cases size <;> decide

section

variable {p : Nat} (minus : Bool) (hp : p < size.infinity)

include hp

theorem toNat_signed :
    (size.signed minus p).toNat = if minus then size.signBit + p else p := by
  have hsign := size.infinity_lt_signBit
  rw [signed, BitVec.toNat_ofNat, size.two_pow_bits]
  exact Nat.mod_eq_of_lt (by cases minus <;> simp <;> omega)

theorem unsigned_signed : size.unsigned (size.signed minus p) = p := by
  have hlt : p < size.signBit := hp.trans size.infinity_lt_signBit
  rw [unsigned, toNat_signed minus hp]
  cases minus with
  | true => exact (Nat.add_mod_left _ _).trans (Nat.mod_eq_of_lt hlt)
  | false => exact Nat.mod_eq_of_lt hlt

theorem unsigned_signed_lt : size.unsigned (size.signed minus p) < size.infinity :=
  (unsigned_signed minus hp).trans_lt hp

theorem negative_signed : size.negative (size.signed minus p) = minus := by
  have hlt : p < size.signBit := hp.trans size.infinity_lt_signBit
  rw [negative, BitVec.msb_eq_decide, size.two_pow_bits_pred, toNat_signed minus hp]
  cases minus with
  | true => exact decide_eq_true (Nat.le_add_right _ _)
  | false => exact decide_eq_false hlt.not_ge

end

theorem signed_unsigned (v : BitVec size.bits) :
    size.signed (size.negative v) (size.unsigned v) = v := by
  have hlt := v.isLt
  rw [size.two_pow_bits] at hlt
  refine BitVec.eq_of_toNat_eq ?_
  rw [signed, BitVec.toNat_ofNat, size.two_pow_bits, unsigned, negative, BitVec.msb_eq_decide,
    size.two_pow_bits_pred]
  by_cases hsign : size.signBit ≤ v.toNat
  · have hrest : v.toNat % size.signBit = v.toNat - size.signBit := by
      rw [Nat.mod_eq_sub_mod hsign, Nat.mod_eq_of_lt (by omega)]
    rw [decide_eq_true hsign, if_pos rfl, hrest, Nat.add_sub_cancel' hsign, Nat.mod_eq_of_lt hlt]
  · rw [decide_eq_false hsign, if_neg Bool.false_ne_true, Nat.mod_eq_of_lt (Nat.not_le.mp hsign),
      Nat.mod_eq_of_lt hlt]

section

variable {v : BitVec source.bits} (hv : source.unsigned v < source.infinity)

include hv

theorem value_of_lt : source.value v =
    .finite (source.negative v) (source.magnitude (source.unsigned v)) := by
  unfold value
  dsimp only
  rw [if_neg hv.not_gt, if_neg hv.ne]

theorem exists_roundsTo_convert (target : FloatSize) : ∃ r,
    target.RoundsTo (source.number (source.unsigned v)) r ∧
      source.convert target v = target.signed (source.negative v) r := by
  have hquotient := shift_div_shift (source.magnitude (source.unsigned v)).mantissa 1
    (-(source.magnitude (source.unsigned v)).exponent)
  rw [neg_neg, Nat.cast_one, div_one, zpow_neg, div_inv_eq_mul] at hquotient
  refine ⟨_, ⟨_, _, ?_, hquotient, rfl⟩, ?_⟩
  · rw [Nat.one_shiftLeft]
    exact Nat.two_pow_pos _
  · rw [convert, value_of_lt hv]

theorem convert_eq_signed {p : Nat} (hp : p < target.infinity)
    (h : target.number p = source.number (source.unsigned v)) :
    source.convert target v = target.signed (source.negative v) p := by
  obtain ⟨r, hround, hconvert⟩ := exists_roundsTo_convert hv target
  rw [← h] at hround
  rw [hconvert, hround.eq_of_number hp]

theorem convert_self : source.convert source v = v := by
  rw [convert_eq_signed hv hv rfl, signed_unsigned]

end

theorem exists_number (size : FloatSize) (k : Nat) {n : Nat} (hn : n < 2 * size.fractions) : ∃ p,
    size.number p = n * 2 ^ (size.leastExponent + k) ∧ p ≤ k * size.fractions + n := by
  -- as long as the mantissa is short, a place is taken from the exponent
  induction k generalizing n with
  | zero =>
    exact ⟨0 * size.fractions + n, size.number_place (.inl rfl) hn.le, Nat.le_refl _⟩
  | succ k ih =>
    by_cases hlong : size.fractions ≤ n
    · exact ⟨(k + 1) * size.fractions + n, size.number_place (.inr hlong) hn.le, Nat.le_refl _⟩
    · obtain ⟨p, hp, hle⟩ := ih (n := 2 * n) (by omega)
      refine ⟨p, ?_, ?_⟩
      · rw [hp, Nat.cast_succ, ← add_assoc, zpow_add_one₀ two_ne_zero]
        push_cast
        ring
      · rw [Nat.succ_mul]
        omega

/-- The numbers of single size are numbers of double size, and none but zero is among the smallest
of those. -/
theorem exists_number_double {p : Nat} (hp : p < single.infinity) : ∃ wide,
    wide < double.infinity ∧ double.number wide = single.number p ∧
      (0 < p → double.fractions + 4 ≤ wide) := by
  have hfractions : single.fractions = 2 ^ 23 := by decide
  have hinfinity : single.infinity = 255 * 2 ^ 23 := by decide
  have hwide : double.fractions = 2 ^ 52 := by decide
  have hlast : double.infinity = 2047 * 2 ^ 52 := by decide
  obtain ⟨k, j, rfl, hlow, hhigh⟩ := single.exists_place p
  obtain ⟨wide, hnumber, hle⟩ := double.exists_number (k + 925) (n := j) (by omega)
  have hexponent : double.leastExponent + ((k + 925 : Nat) : ℤ) = single.leastExponent + k := by
    have hdouble : double.leastExponent = -1074 := rfl
    have hsingle : single.leastExponent = -149 := rfl
    omega
  have hsame : double.number wide = single.number (k * single.fractions + j) := by
    rw [hnumber, single.number_place hlow hhigh.le, hexponent]
  have hk : k ≤ 253 := by
    rw [hfractions, hinfinity] at hp
    rw [hfractions] at hlow
    omega
  refine ⟨wide, ?_, hsame, fun hpos => (double.number_strictMono.lt_iff_lt.mp ?_).le⟩
  · rw [hlast]
    rw [hwide] at hle
    rw [hfractions] at hhigh
    omega
  -- the least positive number of single size is far above
  have hleast : double.number (double.fractions + 4) ≤ 2 ^ (-1021 : ℤ) := by
    calc double.number (double.fractions + 4) ≤ double.number ((1 + 1) * double.fractions) :=
          double.number_strictMono.monotone (by omega)
      _ = 2 ^ (-1021 : ℤ) := by
        rw [number_mul_fractions]
        congr 1
  have hone : (2 : ℚ) ^ (-149 : ℤ) ≤ single.number (k * single.fractions + j) := by
    have h := single.number_strictMono.monotone (Nat.succ_le_of_lt hpos)
    rw [number_succ, number_zero, zero_add, gap_of_lt _ (by decide)] at h
    exact h
  rw [hsame]
  exact hleast.trans_lt ((zpow_lt_zpow_right₀ one_lt_two (by decide)).trans_le hone)

/-- A finite pattern few places from another. Nothing but zero takes the place of zero. -/
structure Near (size : FloatSize) (p w : Nat) : Prop where
  finite : w < size.infinity
  high : w ≤ p + 4
  low : p ≤ w + 4
  zero : p = 0 → w = 0

/-- A few places of double size do not reach the middles between numbers of single size. -/
theorem eq_of_near {p wide w r : Nat} (hp : p < single.infinity)
    (hsame : double.number wide = single.number p) (hwide : 0 < p → double.fractions + 4 ≤ wide)
    (h : double.Near wide w) (hround : single.RoundsTo (double.number w) r) : r = p := by
  -- four places of double size away from a number of single size, the nearest is still that number
  rcases Nat.eq_zero_or_pos p with rfl | hpos
  · have hzero : wide = 0 := by
      refine Nat.eq_zero_of_not_pos fun hwide => ?_
      have := double.number_pos hwide
      rw [hsame, number_zero] at this
      exact this.false
    rw [h.zero hzero, double.number_zero, ← single.number_zero] at hround
    exact hround.eq_of_number hp
  · have hfar := hwide hpos
    have hnear := h.low
    have hx := single.number_pos hpos
    have hup : double.number w ≤ (1 + 2 * double.halfPlace) ^ 4 * single.number p := by
      rw [← hsame]
      exact (double.number_strictMono.monotone h.high).trans (double.number_add_le (by omega) 4)
    have hdown : single.number p ≤ (1 + 2 * double.halfPlace) ^ 4 * double.number w := by
      rw [← hsame]
      exact (double.number_strictMono.monotone h.low).trans (double.number_add_le (by omega) 4)
    rw [halfPlace_double] at hup hdown
    refine hround.eq hp (fun i hi => ?_) ?_
    · have hmiddle : single.middle i ≤ (1 - single.halfPlace / 2) * single.number p := by
        obtain ⟨last, rfl⟩ : ∃ last, p = last + 1 := Nat.exists_eq_add_one.mpr hpos
        exact (single.middle_strictMono.monotone (Nat.le_of_lt_succ hi)).trans
          (single.middle_le_mul_number_succ last)
      rw [halfPlace_single] at hmiddle
      linarith
    · have hmiddle := single.mul_number_lt_middle p
      rw [halfPlace_single] at hmiddle
      linarith

theorem exists_widened {v : BitVec single.bits} (hv : single.unsigned v < single.infinity) : ∃ wide,
    wide < double.infinity ∧
      single.convert .double v = double.signed (single.negative v) wide ∧
      ∀ w, double.Near wide w →
        double.convert .single (double.signed (single.negative v) w) = v := by
  obtain ⟨wide, hfinite, hsame, hwide⟩ := exists_number_double hv
  refine ⟨wide, hfinite, convert_eq_signed hv hfinite hsame, fun w h => ?_⟩
  have hunsigned := unsigned_signed (single.negative v) h.finite
  obtain ⟨r, hround, hconvert⟩ :=
    exists_roundsTo_convert (unsigned_signed_lt (single.negative v) h.finite) single
  rw [hunsigned] at hround
  rw [hconvert, negative_signed _ h.finite, eq_of_near hv hsame hwide h hround]
  exact signed_unsigned v

end DeviceTrial.FloatSize
