import DeviceTrial.Binary
import Mathlib.Algebra.Order.Archimedean.Basic
import Mathlib.Algebra.Order.Field.Power
import Mathlib.Algebra.Order.Ring.Rat
import Mathlib.Order.Monotone.Basic
import Mathlib.Tactic.FieldSimp
import Mathlib.Tactic.Linarith
import Mathlib.Tactic.NormNum
import Mathlib.Tactic.Positivity
import Mathlib.Tactic.Ring

namespace DeviceTrial

namespace FloatSize

variable (size : FloatSize)

/-! ## Numbers of patterns -/

/-- The number of a pattern without sign. Beyond infinity the scale just goes on. -/
def number (p : Nat) : ℚ := (size.magnitude p).mantissa * 2 ^ (size.magnitude p).exponent

def gap (p : Nat) : ℚ := 2 ^ (size.magnitude p).exponent

/-- What lies halfway between a pattern and the next larger one. -/
def middle (p : Nat) : ℚ := size.number p + size.gap p / 2

theorem fractions_pos : 0 < size.fractions := by cases size <;> decide

theorem cast_fractions : (size.fractions : ℚ) = 2 ^ (size.fractionBits : ℤ) := by
  rw [zpow_natCast, fractions, Nat.one_shiftLeft, Nat.cast_pow, Nat.cast_ofNat]

theorem exists_place (p : Nat) : ∃ k j, p = k * size.fractions + j ∧
    (k = 0 ∨ size.fractions ≤ j) ∧ j < 2 * size.fractions := by
  have hpos := size.fractions_pos
  by_cases hp : p < size.fractions
  · exact ⟨0, p, by omega, .inl rfl, by omega⟩
  · have hlast : p % size.fractions < size.fractions := Nat.mod_lt p hpos
    have hfield : 1 ≤ p / size.fractions := (Nat.one_le_div_iff hpos).mpr (Nat.not_lt.mp hp)
    have hsum : p / size.fractions * size.fractions + p % size.fractions = p :=
      Nat.div_add_mod' p size.fractions
    have hsub := Nat.sub_one_mul (p / size.fractions) size.fractions
    have hle : 1 * size.fractions ≤ p / size.fractions * size.fractions :=
      Nat.mul_le_mul_right _ hfield
    exact ⟨p / size.fractions - 1, size.fractions + p % size.fractions, by omega, .inr (by omega),
      by omega⟩

theorem magnitude_place {k j : Nat} (hlow : k = 0 ∨ size.fractions ≤ j)
    (hhigh : j < 2 * size.fractions) : size.magnitude (k * size.fractions + j) =
      ⟨j, size.leastExponent + k, decide (j = size.fractions ∧ 0 < k)⟩ := by
  have hpos := size.fractions_pos
  unfold magnitude
  by_cases hj : j < size.fractions
  · obtain rfl : k = 0 := hlow.resolve_right (Nat.not_le.mpr hj)
    simp [Nat.div_eq_of_lt hj, Nat.mod_eq_of_lt hj]
  · have hrest : j - size.fractions < size.fractions := by omega
    have hsplit : k * size.fractions + j = (j - size.fractions) + (k + 1) * size.fractions := by
      rw [Nat.succ_mul]
      omega
    have hfield : (k * size.fractions + j) / size.fractions = k + 1 := by
      rw [hsplit, Nat.add_mul_div_right _ _ hpos, Nat.div_eq_of_lt hrest, Nat.zero_add]
    have hfraction : (k * size.fractions + j) % size.fractions = j - size.fractions := by
      rw [hsplit, Nat.add_mul_mod_self_right, Nat.mod_eq_of_lt hrest]
    have hmantissa : size.fractions + (j - size.fractions) = j := by omega
    have hnarrow : (j - size.fractions == 0 && decide (k + 1 > 1)) =
        decide (j = size.fractions ∧ 0 < k) := by
      rw [Bool.eq_iff_iff, Bool.and_eq_true, beq_iff_eq, decide_eq_true_eq, decide_eq_true_eq]
      omega
    simp only [hfield, hfraction, hmantissa, hnarrow, Nat.succ_ne_zero, if_false,
      Nat.add_sub_cancel]

theorem gap_place {k j : Nat} (hlow : k = 0 ∨ size.fractions ≤ j)
    (hhigh : j < 2 * size.fractions) :
    size.gap (k * size.fractions + j) = 2 ^ (size.leastExponent + k) := by
  rw [gap, size.magnitude_place hlow hhigh]

theorem number_place {k j : Nat} (hlow : k = 0 ∨ size.fractions ≤ j)
    (hhigh : j ≤ 2 * size.fractions) :
    size.number (k * size.fractions + j) = j * 2 ^ (size.leastExponent + k) := by
  rcases Nat.lt_or_eq_of_le hhigh with hj | rfl
  · rw [number, size.magnitude_place hlow hj]
  · -- the first number of the next exponent
    have hnext : k * size.fractions + 2 * size.fractions =
        (k + 1) * size.fractions + size.fractions := by ring
    have hpos := size.fractions_pos
    rw [number, hnext, size.magnitude_place (.inr (Nat.le_refl _)) (by omega)]
    push_cast
    rw [← add_assoc, zpow_add_one₀ two_ne_zero]
    ring

theorem number_mul_fractions (k : Nat) : size.number ((k + 1) * size.fractions) =
    2 ^ (size.leastExponent + size.fractionBits + k) := by
  have hplace := size.number_place (k := k) (.inr (Nat.le_refl _))
    (Nat.le_mul_of_pos_left _ two_pos)
  rw [Nat.succ_mul, hplace, size.cast_fractions, ← zpow_add₀ two_ne_zero]
  congr 1
  ring

theorem gap_pos (p : Nat) : 0 < size.gap p := by
  unfold gap
  positivity

theorem number_succ (p : Nat) : size.number (p + 1) = size.number p + size.gap p := by
  obtain ⟨k, j, rfl, hlow, hhigh⟩ := size.exists_place p
  rw [Nat.add_assoc, size.number_place (hlow.imp_right fun h => Nat.le_succ_of_le h) hhigh,
    size.number_place hlow hhigh.le, size.gap_place hlow hhigh]
  push_cast
  ring

@[simp] theorem number_zero : size.number 0 = 0 := by
  have h := size.number_place (k := 0) (j := 0) (.inl rfl) (Nat.zero_le _)
  simpa using h

theorem number_strictMono : StrictMono size.number :=
  strictMono_nat_of_lt_succ fun p => by
    rw [number_succ]
    exact lt_add_of_pos_right _ (size.gap_pos p)

theorem number_nonneg (p : Nat) : 0 ≤ size.number p := by
  rw [← size.number_zero]
  exact size.number_strictMono.monotone (Nat.zero_le p)

theorem number_pos {p : Nat} (h : 0 < p) : 0 < size.number p := by
  rw [← size.number_zero]
  exact size.number_strictMono h

theorem number_lt_middle (p : Nat) : size.number p < size.middle p :=
  lt_add_of_pos_right _ (half_pos (size.gap_pos p))

theorem middle_lt_number (p : Nat) : size.middle p < size.number (p + 1) := by
  rw [middle, number_succ]
  linarith [size.gap_pos p]

theorem middle_strictMono : StrictMono size.middle :=
  strictMono_nat_of_lt_succ fun p =>
    (size.middle_lt_number p).trans (size.number_lt_middle (p + 1))

theorem gap_mono : Monotone size.gap := by
  refine monotone_nat_of_le_succ fun p => ?_
  obtain ⟨k, j, rfl, hlow, hhigh⟩ := size.exists_place p
  rcases Nat.lt_or_eq_of_le (Nat.succ_le_of_lt hhigh) with hnext | hnext
  · rw [Nat.add_assoc, size.gap_place hlow hhigh,
      size.gap_place (hlow.imp_right Nat.le_succ_of_le) hnext]
  · have hplace : k * size.fractions + j + 1 = (k + 1) * size.fractions + size.fractions := by
      rw [Nat.succ_mul]
      omega
    rw [hplace, size.gap_place hlow hhigh, size.gap_place (.inr (Nat.le_refl _)) (by omega)]
    refine zpow_le_zpow_right₀ one_le_two ?_
    push_cast
    omega

theorem number_succ_le_gap (p : Nat) :
    size.number (p + 1) ≤ 2 * size.fractions * size.gap p := by
  obtain ⟨k, j, rfl, hlow, hhigh⟩ := size.exists_place p
  have hj : ((j + 1 : Nat) : ℚ) ≤ ((2 * size.fractions : Nat) : ℚ) := by exact_mod_cast hhigh
  rw [Nat.add_assoc, size.number_place (hlow.imp_right fun h => Nat.le_succ_of_le h) hhigh,
    size.gap_place hlow hhigh]
  push_cast at hj ⊢
  exact mul_le_mul_of_nonneg_right hj (by positivity)

theorem gap_le_number {p : Nat} (h : size.fractions ≤ p) :
    size.fractions * size.gap p ≤ size.number p := by
  obtain ⟨k, j, rfl, hlow, hhigh⟩ := size.exists_place p
  have hj : (size.fractions : ℚ) ≤ (j : ℚ) := by
    rcases hlow with rfl | hj
    · rw [Nat.zero_mul, Nat.zero_add] at h
      exact_mod_cast h
    · exact_mod_cast hj
  rw [size.number_place hlow hhigh.le, size.gap_place hlow hhigh]
  exact mul_le_mul_of_nonneg_right hj (by positivity)

theorem number_of_le {p : Nat} (h : p ≤ 2 * size.fractions) :
    size.number p = p * 2 ^ size.leastExponent := by
  have hplace := size.number_place (k := 0) (.inl rfl) h
  simpa using hplace

theorem gap_of_lt {p : Nat} (h : p < 2 * size.fractions) :
    size.gap p = 2 ^ size.leastExponent := by
  have hplace := size.gap_place (k := 0) (.inl rfl) h
  simpa using hplace

theorem gap_le_number_succ {p : Nat} (h : size.fractions ≤ p + 1) :
    size.fractions * size.gap p ≤ size.number (p + 1) := by
  by_cases hp : size.fractions ≤ p
  · exact (size.gap_le_number hp).trans (size.number_strictMono (Nat.lt_succ_self p)).le
  · obtain hfirst : p + 1 = size.fractions := by omega
    rw [size.gap_of_lt (by omega), size.number_of_le (by omega), hfirst]

/-! ## Places as parts of a number -/

/-- Half of a last place, as a part of the smallest number that has all its places. -/
def halfPlace : ℚ := 1 / (2 * size.fractions)

theorem halfPlace_single : single.halfPlace = 1 / 2 ^ 24 := by
  rw [halfPlace, cast_fractions, fractionBits]
  norm_num

theorem halfPlace_double : double.halfPlace = 1 / 2 ^ 53 := by
  rw [halfPlace, cast_fractions, fractionBits]
  norm_num

theorem halfPlace_pos : 0 < size.halfPlace := by
  have := size.fractions_pos
  unfold halfPlace
  positivity

theorem number_succ_mul_halfPlace_le (p : Nat) :
    size.number (p + 1) * size.halfPlace ≤ size.gap p := by
  have hpos : (0 : ℚ) < 2 * size.fractions := by
    have := size.fractions_pos
    positivity
  rw [halfPlace, mul_one_div, div_le_iff₀ hpos, mul_comm (size.gap p)]
  exact size.number_succ_le_gap p

theorem middle_add_four (p : Nat) :
    size.number p + 9 / 2 * size.gap p ≤ size.middle (p + 4) := by
  have h1 := size.gap_mono (Nat.le_add_right p 1)
  have h2 := size.gap_mono (Nat.le_add_right p 2)
  have h3 := size.gap_mono (Nat.le_add_right p 3)
  have h4 := size.gap_mono (Nat.le_add_right p 4)
  rw [middle, number_succ, number_succ, number_succ, number_succ]
  linarith

theorem number_le_mul_number_succ (p : Nat) :
    size.number p ≤ (1 - size.halfPlace) * size.number (p + 1) := by
  have h := size.number_succ_mul_halfPlace_le p
  rw [number_succ] at h ⊢
  linarith

theorem middle_le_mul_number_succ (p : Nat) :
    size.middle p ≤ (1 - size.halfPlace / 2) * size.number (p + 1) := by
  have h := size.number_succ_mul_halfPlace_le p
  rw [middle]
  rw [number_succ] at h ⊢
  linarith

theorem mul_number_lt_middle (p : Nat) :
    (1 + size.halfPlace / 2) * size.number p < size.middle p := by
  have h := size.number_succ_mul_halfPlace_le p
  have hgap := mul_pos (size.gap_pos p) size.halfPlace_pos
  rw [number_succ, add_mul] at h
  rw [middle]
  linarith

theorem number_add_le {p : Nat} (h : size.fractions ≤ p) (n : Nat) :
    size.number (p + n) ≤ (1 + 2 * size.halfPlace) ^ n * size.number p := by
  have hpart : 2 * size.halfPlace * size.fractions = 1 := by
    have hpos : (size.fractions : ℚ) ≠ 0 := by exact_mod_cast size.fractions_pos.ne'
    unfold halfPlace
    field_simp
  have hplace := mul_pos two_pos size.halfPlace_pos
  induction n with
  | zero => simp
  | succ n ih =>
    have hgap := mul_le_mul_of_nonneg_left
      (size.gap_le_number (Nat.le_trans h (Nat.le_add_right p n))) hplace.le
    rw [← mul_assoc, hpart, one_mul] at hgap
    calc size.number (p + n + 1) = size.number (p + n) + size.gap (p + n) := size.number_succ _
      _ ≤ (1 + 2 * size.halfPlace) * size.number (p + n) := by linarith
      _ ≤ (1 + 2 * size.halfPlace) * ((1 + 2 * size.halfPlace) ^ n * size.number p) :=
        mul_le_mul_of_nonneg_left ih (by linarith)
      _ = (1 + 2 * size.halfPlace) ^ (n + 1) * size.number p := by ring

end FloatSize

/-! ## Quotients of naturals -/

theorem shift_div_shift (a b : Nat) (e : Int) :
    ((a <<< (-e).toNat : Nat) : ℚ) / ((b <<< e.toNat : Nat) : ℚ) = a / b / 2 ^ e := by
  rw [Nat.shiftLeft_eq, Nat.shiftLeft_eq]
  obtain ⟨n, rfl | rfl⟩ := e.eq_nat_or_neg
  · simp [div_div]
  · simp [mul_div_right_comm]

theorem abs_nearestEven_sub {num den : Nat} (hden : 0 < den) :
    |(num : ℚ) / den - nearestEven num den| ≤ 1 / 2 := by
  have hpos : (0 : ℚ) < den := by exact_mod_cast hden
  have hsum : (num : ℚ) / den = (num / den : Nat) + (num % den : Nat) / den := by
    have h : ((den * (num / den) + num % den : Nat) : ℚ) = num := by rw [Nat.div_add_mod]
    rw [← h]
    push_cast
    field_simp
  have hrest : ((num % den : Nat) : ℚ) / den < 1 := by
    rw [div_lt_one hpos]
    exact_mod_cast Nat.mod_lt num hden
  have hrest0 : (0 : ℚ) ≤ ((num % den : Nat) : ℚ) / den := by positivity
  have hdown : 2 * (num % den) ≤ den → ((num % den : Nat) : ℚ) / den ≤ 1 / 2 := by
    intro h
    rw [div_le_div_iff₀ hpos two_pos]
    exact_mod_cast (by omega : num % den * 2 ≤ 1 * den)
  have hup : den ≤ 2 * (num % den) → (1 : ℚ) / 2 ≤ ((num % den : Nat) : ℚ) / den := by
    intro h
    rw [div_le_div_iff₀ two_pos hpos]
    exact_mod_cast (by omega : 1 * den ≤ num % den * 2)
  -- downwards at most half is lost, upwards at least half is there already
  rw [abs_le, hsum]
  unfold nearestEven
  dsimp only
  split
  · have := hdown (by omega)
    constructor <;> linarith
  · split
    · have := hup (by omega)
      push_cast
      constructor <;> linarith
    · have := hdown (by omega)
      have := hup (by omega)
      split
      · constructor <;> linarith
      · push_cast
        constructor <;> linarith

theorem two_pow_log2_le {n : Nat} (h : 0 < n) : (2 : ℚ) ^ (n.log2 : ℤ) ≤ n := by
  rw [zpow_natCast]
  exact_mod_cast Nat.log2_self_le h.ne'

theorem lt_two_pow_log2_succ (n : Nat) : (n : ℚ) < 2 ^ (n.log2 + 1 : ℤ) := by
  have h : (n : ℚ) < ((2 ^ (n.log2 + 1) : Nat) : ℚ) := by exact_mod_cast Nat.lt_log2_self
  rw [← Nat.cast_succ, zpow_natCast]
  push_cast at h
  exact h

theorem leadingExponent_spec {num den : Nat} (hnum : 0 < num) (hden : 0 < den) :
    (2 : ℚ) ^ leadingExponent num den ≤ num / den ∧
      (num : ℚ) / den < 2 ^ (leadingExponent num den + 1) := by
  have hpos : (0 : ℚ) < den := by exact_mod_cast hden
  -- the binary lengths leave two exponents, and one comparison decides between them
  have hlow : (2 : ℚ) ^ ((num.log2 : ℤ) - den.log2 - 1) ≤ num / den := by
    rw [le_div_iff₀ hpos]
    have hbound := (lt_two_pow_log2_succ den).le
    calc (2 : ℚ) ^ ((num.log2 : ℤ) - den.log2 - 1) * den
        ≤ 2 ^ ((num.log2 : ℤ) - den.log2 - 1) * 2 ^ (den.log2 + 1 : ℤ) := by gcongr
      _ = 2 ^ (num.log2 : ℤ) := by
        rw [← zpow_add₀ two_ne_zero]
        congr 1
        ring
      _ ≤ num := two_pow_log2_le hnum
  have hhigh : (num : ℚ) / den < 2 ^ ((num.log2 : ℤ) - den.log2 + 1) := by
    rw [div_lt_iff₀ hpos]
    have hbound := two_pow_log2_le hden
    calc (num : ℚ) < 2 ^ (num.log2 + 1 : ℤ) := lt_two_pow_log2_succ num
      _ = 2 ^ ((num.log2 : ℤ) - den.log2 + 1) * 2 ^ (den.log2 : ℤ) := by
        rw [← zpow_add₀ two_ne_zero]
        congr 1
        ring
      _ ≤ 2 ^ ((num.log2 : ℤ) - den.log2 + 1) * den := by gcongr
  have hguess (e : ℤ) : num <<< (-e).toNat < den <<< e.toNat ↔ (num : ℚ) / den < 2 ^ e := by
    have hshift : (0 : ℚ) < ((den <<< e.toNat : Nat) : ℚ) := by
      rw [Nat.shiftLeft_eq]
      positivity
    have hpower : (0 : ℚ) < 2 ^ e := zpow_pos two_pos e
    rw [← div_lt_one hpower, ← shift_div_shift, div_lt_one hshift, Nat.cast_lt]
  unfold leadingExponent
  dsimp only
  split
  · next hless =>
    rw [hguess] at hless
    rw [sub_add_cancel]
    exact ⟨hlow, hless⟩
  · next hmore =>
    rw [hguess, not_lt] at hmore
    exact ⟨hmore, hhigh⟩

/-! ## Rounding -/

namespace FloatSize

variable (size : FloatSize)

/-- Rounding looks for the pattern among those of the exponent that a number has, and rounds the
places that it has there. -/
theorem round_place {num den : Nat} (hnum : 0 < num) (hden : 0 < den) :
    ∃ k j, size.round num den = min (k * size.fractions + j) size.infinity ∧
      (k = 0 ∨ size.fractions ≤ j ∧
        size.fractions * (2 : ℚ) ^ (size.leastExponent + k) ≤ num / den) ∧
      j ≤ 2 * size.fractions ∧
      (num : ℚ) / den < 2 * size.fractions * 2 ^ (size.leastExponent + k) ∧
      (j - 1 / 2 : ℚ) * 2 ^ (size.leastExponent + k) ≤ num / den ∧
      (num : ℚ) / den ≤ (j + 1 / 2) * 2 ^ (size.leastExponent + k) := by
  obtain ⟨hlead, htrail⟩ := leadingExponent_spec hnum hden
  unfold round
  rw [if_neg hnum.ne']
  dsimp only
  -- `last` is the exponent of the last place that is kept
  generalize hlast : max (leadingExponent num den - size.fractionBits) size.leastExponent = last
  have hk : size.leastExponent + ((last - size.leastExponent).toNat : ℤ) = last := by
    have := le_max_right (leadingExponent num den - size.fractionBits) size.leastExponent
    omega
  have hpower : (0 : ℚ) < 2 ^ last := zpow_pos two_pos last
  have hlow : (last - size.leastExponent).toNat = 0 ∨
      size.fractions * (2 : ℚ) ^ last ≤ num / den := by
    rcases max_choice (leadingExponent num den - size.fractionBits) size.leastExponent with h | h
    · right
      rw [← hlast, h, size.cast_fractions, ← zpow_add₀ two_ne_zero, add_sub_cancel]
      exact hlead
    · left
      omega
  have hhigh : (num : ℚ) / den < 2 * size.fractions * 2 ^ last := by
    rw [size.cast_fractions, ← zpow_one_add₀ two_ne_zero, ← zpow_add₀ two_ne_zero]
    refine htrail.trans_le (zpow_le_zpow_right₀ one_le_two ?_)
    have := le_max_left (leadingExponent num den - size.fractionBits) size.leastExponent
    omega
  have hshift : 0 < den <<< last.toNat := by
    rw [Nat.shiftLeft_eq]
    positivity
  have hnear := @abs_nearestEven_sub (num <<< (-last).toNat) _ hshift
  generalize nearestEven (num <<< (-last).toNat) (den <<< last.toNat) = j at hnear ⊢
  rw [shift_div_shift, abs_le] at hnear
  refine ⟨(last - size.leastExponent).toNat, j, rfl, hlow.imp_right fun h => ⟨?_, ?_⟩, ?_, ?_, ?_,
    ?_⟩
  · rw [← le_div_iff₀ hpower] at h
    have hj : (size.fractions : ℚ) < ((j + 1 : Nat) : ℚ) := by
      push_cast
      linarith
    exact Nat.le_of_lt_succ (by exact_mod_cast hj)
  · rwa [hk]
  · rw [← div_lt_iff₀ hpower] at hhigh
    have hj : (j : ℚ) < ((2 * size.fractions + 1 : Nat) : ℚ) := by
      push_cast
      linarith
    exact Nat.le_of_lt_succ (by exact_mod_cast hj)
  · rwa [hk]
  · rw [hk, ← le_div_iff₀ hpower]
    linarith
  · rw [hk, ← div_le_iff₀ hpower]
    linarith

/-- Some quotient that is the number is rounded to the pattern. -/
def RoundsTo (q : ℚ) (r : Nat) : Prop :=
  ∃ num den : Nat, 0 < den ∧ (num : ℚ) / den = q ∧ size.round num den = r

variable {size} {q : ℚ} {p r : Nat}

theorem roundsTo_round {num den : Nat} (hden : 0 < den) :
    size.RoundsTo (num / den) (size.round num den) :=
  ⟨num, den, hden, rfl, rfl⟩

namespace RoundsTo

/-- A number below the middle behind a pattern is not rounded beyond the pattern. -/
theorem le_of_lt_middle (h : size.RoundsTo q r) (hq : q < size.middle p) : r ≤ p := by
  obtain ⟨num, den, hden, rfl, rfl⟩ := h
  rcases Nat.eq_zero_or_pos num with rfl | hnum
  · exact Nat.zero_le p
  obtain ⟨k, j, hround, hlow, hj, -, hnear, -⟩ := size.round_place hnum hden
  rw [hround]
  refine (min_le_left _ _).trans (Nat.le_of_not_lt fun hp => hq.not_ge ?_)
  by_cases hbelow : k = 0 ∨ size.fractions < j
  · -- the pattern before the rounded one has the same exponent
    obtain ⟨i, rfl⟩ : ∃ i, j = i + 1 := Nat.exists_eq_add_one.mpr (by
      rcases hbelow with rfl | hless
      · omega
      · omega)
    have hplace : k = 0 ∨ size.fractions ≤ i := hbelow.imp_right Nat.le_of_lt_succ
    calc size.middle p ≤ size.middle (k * size.fractions + i) :=
          size.middle_strictMono.monotone (by omega)
      _ = ((i + 1 : Nat) - 1 / 2 : ℚ) * 2 ^ (size.leastExponent + k) := by
        rw [middle, size.number_place hplace (by omega), size.gap_place hplace hj]
        push_cast
        ring
      _ ≤ num / den := hnear
  · -- the number is not below the first one of its exponent, and that is what it is rounded to
    rw [not_or, Nat.not_lt] at hbelow
    obtain ⟨hfirst, hnum⟩ := hlow.resolve_left hbelow.1
    obtain rfl : j = size.fractions := Nat.le_antisymm hbelow.2 hfirst
    calc size.middle p ≤ size.number (p + 1) := (size.middle_lt_number p).le
      _ ≤ size.number (k * size.fractions + size.fractions) :=
        size.number_strictMono.monotone hp
      _ = size.fractions * 2 ^ (size.leastExponent + k) := size.number_place (.inr hfirst) hj
      _ ≤ num / den := hnum

/-- A number above the middle behind a pattern is rounded beyond the pattern, if there is room. -/
theorem lt_of_middle_lt (h : size.RoundsTo q r) (hq : size.middle p < q)
    (hp : p < size.infinity) : p < r := by
  obtain ⟨num, den, hden, rfl, rfl⟩ := h
  have hnum : 0 < num := by
    have hpos := (size.number_nonneg p).trans_lt ((size.number_lt_middle p).trans hq)
    refine Nat.pos_of_ne_zero ?_
    rintro rfl
    simp at hpos
  obtain ⟨k, j, hround, hlow, hj, hhigh, -, hnear⟩ := size.round_place hnum hden
  rw [hround, lt_min_iff]
  refine ⟨Nat.lt_of_not_le fun hle => hq.not_ge ?_, hp⟩
  have hplace : k = 0 ∨ size.fractions ≤ j := hlow.imp_right And.left
  -- a mantissa that was rounded up to a power of two is the first of the next places
  rcases Nat.lt_or_eq_of_le hj with hless | rfl
  · calc (num : ℚ) / den ≤ (j + 1 / 2) * 2 ^ (size.leastExponent + k) := hnear
      _ = size.middle (k * size.fractions + j) := by
        rw [middle, size.number_place hplace hj, size.gap_place hplace hless]
        ring
      _ ≤ size.middle p := size.middle_strictMono.monotone hle
  · calc (num : ℚ) / den ≤ (2 * size.fractions : Nat) * 2 ^ (size.leastExponent + k) := by
          push_cast
          exact hhigh.le
      _ = size.number (k * size.fractions + 2 * size.fractions) :=
        (size.number_place hplace hj).symm
      _ ≤ size.number p := size.number_strictMono.monotone hle
      _ ≤ size.middle p := (size.number_lt_middle p).le

/-- A number strictly between the middles around a pattern is rounded to the pattern. -/
theorem eq (h : size.RoundsTo q r) (hp : p < size.infinity)
    (hlow : ∀ i < p, size.middle i < q) (hhigh : q < size.middle p) : r = p := by
  refine Nat.le_antisymm (h.le_of_lt_middle hhigh) ?_
  cases p with
  | zero => exact Nat.zero_le _
  | succ i => exact h.lt_of_middle_lt (hlow i (Nat.lt_succ_self i)) (Nat.lt_of_succ_lt hp)

theorem eq_of_number (h : size.RoundsTo (size.number p) r) (hp : p < size.infinity) : r = p :=
  h.eq hp (fun i hi => (size.middle_lt_number i).trans_le (size.number_strictMono.monotone hi))
    (size.number_lt_middle p)

theorem le_middle (h : size.RoundsTo q r) (hr : r < size.infinity) : q ≤ size.middle r :=
  le_of_not_gt fun hlt => (h.lt_of_middle_lt hlt hr).false

theorem middle_le (h : size.RoundsTo q (p + 1)) : size.middle p ≤ q :=
  le_of_not_gt fun hlt => absurd (h.le_of_lt_middle hlt) (by omega)

end RoundsTo

end FloatSize

end DeviceTrial
