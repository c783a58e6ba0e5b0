import DeviceTrial.Proofs.Float.Conversion
import DeviceTrial.Proofs.Float.Shortest
import DeviceTrial.Proofs.Json.Scaling
import DeviceTrial.Proofs.Json.Values

namespace DeviceTrial.Json

variable {ρ : Type}

/-! ## Digits -/

theorem toDigits_ten_mul {n : Nat} (hn : 0 < n) :
    Nat.toDigits 10 (10 * n) = Nat.toDigits 10 n ++ ['0'] := by
  rw [Nat.toDigits_of_base_le (by decide) (by omega), Nat.mul_div_cancel_left n (by decide),
    Nat.mul_mod_right]
  rfl

theorem toDigits_append_zeros {n : Nat} (hn : 0 < n) (k : Nat) :
    Nat.toDigits 10 n ++ Decimal.zeros k = Nat.toDigits 10 (n * 10 ^ k) := by
  induction k with
  | zero => rw [Nat.pow_zero, Nat.mul_one]; exact List.append_nil _
  | succ k ih =>
    have hpower : n * 10 ^ (k + 1) = 10 * (n * 10 ^ k) := by ring
    rw [Decimal.zeros, List.replicate_succ', ← List.append_assoc, hpower,
      toDigits_ten_mul (by positivity), ← ih, Decimal.zeros]

theorem lt_ten_pow_length (n : Nat) : n < 10 ^ (Nat.toDigits 10 n).length := by
  induction n using Nat.strongRecOn with
  | _ n ih =>
    by_cases h : n < 10
    · rw [Nat.toDigits_of_lt_base h]
      exact h
    · rw [Nat.toDigits_of_base_le (by decide) (by omega), List.length_append, List.length_singleton,
        Nat.pow_succ]
      have := ih (n / 10) (by omega)
      omega

theorem takeDigits_zeros (count k : Nat) (rest : List Char) :
    takeDigits 0 count (Decimal.zeros k ++ rest) = takeDigits 0 (count + k) rest := by
  induction k generalizing count with
  | zero => rfl
  | succ k ih =>
    rw [Decimal.zeros, List.replicate_succ, List.cons_append]
    refine (takeDigits_cons_digitChar (d := 0) (by decide) _ (by decide)).trans ?_
    rw [Nat.zero_mul, ← Decimal.zeros, ih]
    congr 1
    omega

/-- The digits of a number fall into those of its front and those behind, which are taken after
them. -/
theorem exists_toDigits_eq_append {n k : Nat} (hn : n < UInt64.size)
    (hk : k < (Nat.toDigits 10 n).length) : ∃ back : List Char, back.length = k ∧
      Nat.toDigits 10 n = Nat.toDigits 10 (n / 10 ^ k) ++ back ∧
      (0 < k → ∀ rest, startsWithDigit (back ++ rest) = true) ∧
      ∀ count rest,
        takeDigits (n / 10 ^ k) count (back ++ rest) = takeDigits n (count + k) rest := by
  -- on the digits behind: the last one is taken off each time
  induction k generalizing n with
  | zero =>
    rw [Nat.pow_zero, Nat.div_one]
    exact ⟨[], rfl, (List.append_nil _).symm, fun h => absurd h (Nat.lt_irrefl 0),
      fun _ _ => rfl⟩
  | succ k ih =>
    have hlarge : 10 ≤ n := by
      by_contra h
      rw [Nat.toDigits_of_lt_base (Nat.lt_of_not_le h)] at hk
      simp at hk
    have hlast : n % 10 < 10 := Nat.mod_lt n (by decide)
    have hdigits := Nat.toDigits_of_base_le (b := 10) (by decide) hlarge
    rw [hdigits, List.length_append, List.length_singleton] at hk
    obtain ⟨back, hlength, hback, hstart, htake⟩ := ih (n := n / 10) (by omega) (by omega)
    have hfront : n / 10 ^ (k + 1) = n / 10 / 10 ^ k := by
      rw [Nat.div_div_eq_div_mul, Nat.pow_succ, Nat.mul_comm]
    refine ⟨back ++ [Nat.digitChar (n % 10)], by simp [hlength], ?_, fun _ rest => ?_,
      fun count rest => ?_⟩
    · rw [hdigits, hback, hfront, List.append_assoc]
    · rw [List.append_assoc]
      rcases Nat.eq_zero_or_pos k with rfl | hk
      · rw [List.length_eq_zero_iff.mp hlength]
        exact Numeral.isDecimal_digitChar hlast
      · exact hstart hk _
    · have hsum : n / 10 * 10 + n % 10 = n := Nat.div_add_mod' n 10
      rw [hfront, List.append_assoc, htake, List.singleton_append,
        takeDigits_cons_digitChar hlast rest (by omega), hsum, Nat.add_assoc]

theorem naturalOf_toDigits (n : Nat) (rest : List Char) :
    naturalOf 0 (Nat.toDigits 10 n ++ rest) = naturalOf n rest := by
  induction n using Nat.strongRecOn generalizing rest with
  | _ n ih =>
    by_cases h : n < 10
    · rw [Nat.toDigits_of_lt_base h, List.singleton_append, naturalOf, Numeral.digit?_digitChar n h]
      simp
    · rw [Nat.toDigits_of_base_le (by decide) (by omega), List.append_assoc, List.singleton_append,
        ih (n / 10) (by omega), naturalOf, Numeral.digit?_digitChar _ (Nat.mod_lt n (by decide))]
      simp only [Nat.div_add_mod']

/-! ## Parts of a float -/

theorem EndsNumber.naturalOf {rest : List Char} (h : EndsNumber rest) (n : Nat) :
    naturalOf n rest = (n, rest) := by
  cases rest with
  | nil => rfl
  | cons c rest =>
    have hnone : Numeral.digit? 10 c = none := by
      simpa [Numeral.isDecimal] using (h c rfl).1
    rw [Json.naturalOf, hnone]

theorem startsWithDigit_toDigits (n : Nat) (rest : List Char) :
    startsWithDigit (Nat.toDigits 10 n ++ rest) = true := by
  obtain ⟨d, tail, hd, heq, -⟩ := Numeral.toDigits_eq_cons n
  rw [heq]
  exact Numeral.isDecimal_digitChar hd

def exponentSign (e : Int) : Char := if e < 0 then '-' else '+'

theorem readExponent_toDigits {rest : List Char} (hrest : EndsNumber rest) (minus : Bool) (n : Nat)
    (start e : Int) :
    readExponent (ρ := ρ) minus n start (exponentSign e :: (Nat.toDigits 10 e.natAbs ++ rest)) =
      (floatOf minus n (start + e)).map (·, rest) := by
  have hsign : withoutSign (exponentSign e :: (Nat.toDigits 10 e.natAbs ++ rest)) =
      (decide (e < 0), Nat.toDigits 10 e.natAbs ++ rest) := by
    unfold exponentSign
    split
    · next h => rw [decide_eq_true h]; rfl
    · next h => rw [decide_eq_false h]; rfl
  have hnonempty : (Nat.toDigits 10 e.natAbs ++ rest).isEmpty = false := by
    obtain ⟨d, tail, -, heq, -⟩ := Numeral.toDigits_eq_cons e.natAbs
    rw [heq]
    rfl
  have hexponent : (if decide (e < 0) = true then start - e.natAbs else start + e.natAbs) =
      start + e := by
    by_cases h : e < 0
    · rw [decide_eq_true h, if_pos rfl]
      omega
    · rw [decide_eq_false h, if_neg Bool.false_ne_true]
      omega
  unfold readExponent
  simp only [hsign, hnonempty, startsWithDigit_toDigits, naturalOf_toDigits, hrest.naturalOf,
    hexponent]
  rfl

theorem finishFloat_end {rest : List Char} (hrest : EndsNumber rest) (minus : Bool) (n : Nat)
    (e : Int) :
    finishFloat (ρ := ρ) minus n e rest = (floatOf minus n e).map (·, rest) := by
  unfold finishFloat
  split
  · exact absurd rfl (hrest _ rfl).2.2.1
  · exact absurd rfl (hrest _ rfl).2.2.2
  · rfl

theorem skipDigits_of_start {cs : List Char} (h : startsWithDigit cs = false) :
    skipDigits 0 cs = (0, cs) := by
  cases cs with
  | nil => rfl
  | cons c cs =>
    rw [startsWithDigit] at h
    rw [skipDigits, h]
    rfl

theorem readFraction_eq {minus : Bool} {m n count : Nat} {e : Int} {cs rest : List Char}
    (hstart : startsWithDigit cs = true) (htake : takeDigits m 0 cs = (n, count, rest))
    (hrest : startsWithDigit rest = false) :
    readFraction (ρ := ρ) minus m e cs = finishFloat minus n (e - count) rest := by
  have hnonempty : cs.isEmpty = false := by
    cases cs with
    | nil => cases hstart
    | cons c cs => rfl
  unfold readFraction
  simp only [hnonempty, hstart, htake, skipDigits_of_start hrest]
  rfl

section

variable {n : Nat} (hn : n < UInt64.size) (minus : Bool) (after : List Char)

include hn

theorem takeDigits_cons {c : Char} (hc : Numeral.isDecimal c = false) :
    ∃ d tail, d < 10 ∧ Nat.toDigits 10 n = Nat.digitChar d :: tail ∧
      ¬ (Nat.digitChar d = '0' ∧ startsWithDigit (tail ++ c :: after) = true) ∧
      takeDigits 0 0 (Nat.digitChar d :: (tail ++ c :: after)) =
        (n, (Nat.toDigits 10 n).length, c :: after) := by
  obtain ⟨d, tail, hd, heq, hzero⟩ := Numeral.toDigits_eq_cons n
  refine ⟨d, tail, hd, heq, ?_, ?_⟩
  · -- no digit stands behind a leading zero
    rintro ⟨hdigit, hstarts⟩
    obtain rfl := hzero (Numeral.digitChar_eq_zero d hd hdigit)
    obtain rfl : tail = [] := (List.cons.inj heq).2.symm
    exact absurd (hstarts.symm.trans hc) (by decide)
  · have hnone : Numeral.digit? 10 c = none := by simpa [Numeral.isDecimal] using hc
    rw [← List.cons_append, ← heq, takeDigits_toDigits hn, takeDigits, hnone, Nat.zero_add]

theorem readUnsigned_point : readUnsigned (ρ := ρ) minus (Nat.toDigits 10 n ++ '.' :: after) =
    readFraction minus n 0 after := by
  have hc : Numeral.isDecimal '.' = false := by decide
  obtain ⟨d, tail, hd, heq, hlead, htake⟩ := takeDigits_cons hn after hc
  have hskip : skipDigits 0 ('.' :: after) = (0, '.' :: after) := skipDigits_of_start hc
  rw [heq, List.cons_append, readUnsigned, htake]
  simp only [Numeral.isDecimal_digitChar hd, hskip, Bool.not_true, hlead, or_self, if_false,
    Bool.false_eq_true]
  rfl

theorem readUnsigned_mark : readUnsigned (ρ := ρ) minus (Nat.toDigits 10 n ++ 'e' :: after) =
    readExponent minus n 0 after := by
  have hc : Numeral.isDecimal 'e' = false := by decide
  obtain ⟨d, tail, hd, heq, hlead, htake⟩ := takeDigits_cons hn after hc
  have hskip : skipDigits 0 ('e' :: after) = (0, 'e' :: after) := skipDigits_of_start hc
  rw [heq, List.cons_append, readUnsigned, htake]
  simp only [Numeral.isDecimal_digitChar hd, hskip, Bool.not_true, hlead, or_self, if_false,
    Bool.false_eq_true]
  rfl

end

/-! ## The four notations -/

/-- A text is read as a significand and an exponent, whatever scaling makes of them. -/
def ReadsAs (cs : List Char) (n : Nat) (e : Int) : Prop :=
  ∀ (ρ : Type) (minus : Bool) (rest : List Char), EndsNumber rest →
    readUnsigned (ρ := ρ) minus (cs ++ rest) = (floatOf minus n e).map (·, rest)

variable {d : Decimal}

theorem whole_lt (hexponent : 0 ≤ d.exponent) (hleading : d.leading ≤ 15) :
    d.digits * 10 ^ d.exponent.toNat < 10 ^ 16 := by
  have hlength : (Nat.toDigits 10 d.digits).length + d.exponent.toNat ≤ 16 := by
    rw [Decimal.leading] at hleading
    omega
  calc d.digits * 10 ^ d.exponent.toNat
      < 10 ^ (Nat.toDigits 10 d.digits).length * 10 ^ d.exponent.toNat :=
        Nat.mul_lt_mul_of_pos_right (lt_ten_pow_length d.digits) (by positivity)
    _ = 10 ^ ((Nat.toDigits 10 d.digits).length + d.exponent.toNat) := (Nat.pow_add ..).symm
    _ ≤ 10 ^ 16 := Nat.pow_le_pow_right (by decide) hlength

/-- Digits and zeros, and a zero behind the point. -/
theorem readsAs_whole (hpos : 0 < d.digits) (hexponent : 0 ≤ d.exponent)
    (hleading : d.leading ≤ 15) :
    ReadsAs (d.positional ".0").toList (d.digits * 10 ^ d.exponent.toNat * 10) (-1) := by
  intro ρ minus rest hrest
  have hwhole : UInt64.size = 18446744073709551616 := rfl
  have hsize := whole_lt hexponent hleading
  have htext : (d.positional ".0").toList ++ rest =
      Nat.toDigits 10 (d.digits * 10 ^ d.exponent.toNat) ++ '.' :: '0' :: rest := by
    rw [Decimal.positional, if_pos hexponent, ← toDigits_append_zeros hpos]
    simp
  have htake : takeDigits (d.digits * 10 ^ d.exponent.toNat) 0 ('0' :: rest) =
      (d.digits * 10 ^ d.exponent.toNat * 10, 1, rest) := by
    refine (takeDigits_cons_digitChar (d := 0) (by decide) rest (by omega)).trans ?_
    exact hrest.takeDigits _ _
  rw [htext, readUnsigned_point (by omega), readFraction_eq rfl htake hrest.startsWithDigit,
    finishFloat_end hrest]
  rfl

theorem readsAs_fraction (hdigits : d.digits ≤ 10 ^ 17) (hexponent : d.exponent < 0) :
    ReadsAs (d.positional ".0").toList d.digits d.exponent := by
  intro ρ minus rest hrest
  obtain ⟨k, hk⟩ : ∃ k : Nat, d.exponent = -k := ⟨(-d.exponent).toNat, by omega⟩
  have hwhole : UInt64.size = 18446744073709551616 := rfl
  have hsize : d.digits < UInt64.size := by omega
  have hplaces : (-d.exponent).toNat = k := by omega
  have hcount : (0 : Int) - (k : Nat) = d.exponent := by omega
  rw [Decimal.positional, if_neg (Int.not_le.mpr hexponent)]
  dsimp only
  rw [hplaces]
  split
  -- the point stands among the digits
  · next hinside =>
    obtain ⟨back, hlength, hback, hstart, htake⟩ := exists_toDigits_eq_append hsize hinside
    have hfront : (Nat.toDigits 10 d.digits).length - k =
        (Nat.toDigits 10 (d.digits / 10 ^ k)).length := by
      rw [hback, List.length_append, hlength, Nat.add_sub_cancel]
    have hall : takeDigits (d.digits / 10 ^ k) 0 (back ++ rest) = (d.digits, k, rest) := by
      rw [htake, hrest.takeDigits, Nat.zero_add]
    rw [String.toList_ofList, hfront, hback, List.take_left, List.drop_left, List.append_assoc,
      List.cons_append, readUnsigned_point (Nat.lt_of_le_of_lt (Nat.div_le_self _ _) hsize),
      readFraction_eq (hstart (by omega) rest) hall hrest.startsWithDigit, hcount,
      finishFloat_end hrest]
  -- the digits stand behind zeros, which add nothing to what is read
  · next houtside =>
    have hstart : startsWithDigit (Decimal.zeros (k - (Nat.toDigits 10 d.digits).length) ++
        (Nat.toDigits 10 d.digits ++ rest)) = true := by
      cases k - (Nat.toDigits 10 d.digits).length with
      | zero => exact startsWithDigit_toDigits d.digits rest
      | succ m => exact (by decide : Numeral.isDecimal '0' = true)
    have hall : takeDigits 0 0 (Decimal.zeros (k - (Nat.toDigits 10 d.digits).length) ++
        (Nat.toDigits 10 d.digits ++ rest)) = (d.digits, k, rest) := by
      rw [takeDigits_zeros, takeDigits_toDigits hsize, hrest.takeDigits]
      congr 2
      omega
    rw [String.toList_ofList, List.append_assoc, List.cons_append, List.cons_append]
    refine (readUnsigned_point (n := 0) (by decide) minus _).trans ?_
    rw [readFraction_eq hstart hall hrest.startsWithDigit, hcount, finishFloat_end hrest]

theorem readUnsigned_pointed {n : Nat} (hn : n < UInt64.size) {c : Char} {back : List Char}
    (heq : Nat.toDigits 10 n = c :: back) (hback : back ≠ []) (minus : Bool) (e : Int)
    {rest : List Char} (hrest : EndsNumber rest) :
    readUnsigned (ρ := ρ) minus (c :: '.' :: (back ++ 'e' :: exponentSign e ::
      (Nat.toDigits 10 e.natAbs ++ rest))) =
        (floatOf minus n (0 - (back.length : Nat) + e)).map (·, rest) := by
  have hlength : back.length < (Nat.toDigits 10 n).length := by
    rw [heq, List.length_cons]
    exact Nat.lt_succ_self _
  obtain ⟨back', hback', happend, hstart, htake⟩ := exists_toDigits_eq_append hn hlength
  have hsplit : [c] ++ back = Nat.toDigits 10 (n / 10 ^ back.length) ++ back' :=
    heq.symm.trans happend
  obtain ⟨hfront, rfl⟩ := List.append_inj' hsplit hback'.symm
  have hmark : Numeral.isDecimal 'e' = false := by decide
  have hexponent := readExponent_toDigits (ρ := ρ) hrest minus n (0 - (back.length : Nat)) e
  generalize exponentSign e :: (Nat.toDigits 10 e.natAbs ++ rest) = after at hexponent ⊢
  have hall : takeDigits (n / 10 ^ back.length) 0 (back ++ 'e' :: after) =
      (n, back.length, 'e' :: after) := by
    have hnone : Numeral.digit? 10 'e' = none := by decide
    rw [htake, takeDigits, hnone, Nat.zero_add]
  have hpoint := readUnsigned_point (ρ := ρ)
    (Nat.lt_of_le_of_lt (Nat.div_le_self n (10 ^ back.length)) hn) minus (back ++ 'e' :: after)
  rw [readFraction_eq (hstart (List.length_pos_of_ne_nil hback) _) hall hmark, ← hfront] at hpoint
  exact hpoint.trans hexponent

/-- A leading digit, the others behind a point, and the exponent of the leading one. -/
theorem readsAs_scientific (hdigits : d.digits ≤ 10 ^ 17) :
    ReadsAs d.scientific.toList d.digits d.exponent := by
  intro ρ minus rest hrest
  have hwhole : UInt64.size = 18446744073709551616 := rfl
  have hsize : d.digits < UInt64.size := by omega
  have hsign : (if d.leading < 0 then "-" else "+").toList = [exponentSign d.leading] := by
    unfold exponentSign
    split
    · rfl
    · rfl
  obtain ⟨c, tail, -, heq, -⟩ := Numeral.toDigits_eq_cons d.digits
  have hlength := congrArg List.length heq
  rw [List.length_cons] at hlength
  rw [Decimal.scientific, String.toList_append, String.toList_append, String.toList_append, hsign,
    Numeral.decimal, String.toList_ofList, String.toList_ofList]
  cases tail with
  | nil =>
    have hexponent : (0 : Int) + d.leading = d.exponent := by
      rw [Decimal.leading, hlength, List.length_nil]
      omega
    have hmark := readUnsigned_mark (ρ := ρ) hsize minus
      (exponentSign d.leading :: (Nat.toDigits 10 d.leading.natAbs ++ rest))
    rw [readExponent_toDigits hrest, hexponent, heq] at hmark
    rw [heq]
    simpa using hmark
  | cons c' tail =>
    have hexponent : (0 : Int) - ((c' :: tail).length : Nat) + d.leading = d.exponent := by
      rw [Decimal.leading, hlength]
      omega
    have hpointed := readUnsigned_pointed (ρ := ρ) hsize heq (List.cons_ne_nil c' tail) minus
      d.leading hrest
    rw [hexponent] at hpointed
    rw [heq]
    simpa using hpointed

def decimalText (d : Decimal) : String :=
  if -5 ≤ d.leading ∧ d.leading ≤ 15 then d.positional ".0" else d.scientific

/-- However it is written, a decimal is read as itself. -/
theorem exists_readsAs (hpos : 0 < d.digits) (hdigits : d.digits ≤ 10 ^ 17) :
    ∃ n e, 0 < n ∧ n < UInt64.size ∧ (n : ℚ) * 10 ^ e = d.number ∧ (e = d.exponent ∨ e = -1) ∧
      ReadsAs (decimalText d).toList n e := by
  unfold decimalText
  have hwhole : UInt64.size = 18446744073709551616 := rfl
  have hsize : d.digits < UInt64.size := by omega
  by_cases hplace : -5 ≤ d.leading ∧ d.leading ≤ 15
  · rw [if_pos hplace]
    by_cases hexponent : 0 ≤ d.exponent
    · have hless := whole_lt hexponent hplace.2
      refine ⟨_, _, by positivity, by omega, ?_, .inr rfl,
        readsAs_whole hpos hexponent hplace.2⟩
      have hpower : (10 : ℚ) ^ d.exponent = 10 ^ d.exponent.toNat := by
        rw [← zpow_natCast, Int.toNat_of_nonneg hexponent]
      rw [Decimal.number, hpower, zpow_neg_one]
      push_cast
      field_simp
    · exact ⟨_, _, hpos, hsize, rfl, .inl rfl, readsAs_fraction hdigits (by omega)⟩
  · rw [if_neg hplace]
    exact ⟨_, _, hpos, hsize, rfl, .inl rfl, readsAs_scientific hdigits⟩

/-! ## Floats -/

open FloatSize

def magnitudeText (m : Binary) : String :=
  if m.mantissa = 0 then "0.0" else decimalText (m.shortest .even)

theorem readsAs_zero : ReadsAs "0.0".toList 0 (-1) := by
  intro ρ minus rest hrest
  have htake : takeDigits 0 0 ('0' :: rest) = (0, 1, rest) :=
    (takeDigits_cons_digitChar (d := 0) (by decide) rest (by decide)).trans (hrest.takeDigits _ _)
  refine (readUnsigned_point (n := 0) (by decide) minus ('0' :: rest)).trans ?_
  rw [readFraction_eq rfl htake hrest.startsWithDigit, finishFloat_end hrest]
  rfl

/-- The very largest numbers come out finite, though little room is left. -/
theorem scaleByTen_last : ∀ i < 4, let p := double.infinity - 1 - i
    let d := (double.magnitude p).shortest .even
    15 < d.leading ∧ d.digits ≤ 10 ^ 17 ∧ ((scaleByTen d.digits d.exponent).any fun w =>
      w < double.infinity ∧ w ≤ p + 4 ∧ p ≤ w + 4) = true := by
  decide +kernel

theorem exponent_le {p : Nat} (hp : p < double.infinity) {d : Decimal} (hpos : 0 < d.digits)
    (hd : d.number ≤ double.middle p) : d.exponent ≤ 308 := by
  by_contra hlarge
  have hlast : double.middle p < 2 ^ (1024 : Int) := by
    refine (double.middle_strictMono.monotone (Nat.le_sub_one_of_lt hp)).trans_lt ?_
    rw [middle_last_double]
    exact sub_lt_self _ (by positivity)
  have hdigits : (1 : ℚ) ≤ d.digits := by exact_mod_cast hpos
  have hpower : (2 : ℚ) ^ (1024 : Int) ≤ d.number := by
    calc (2 : ℚ) ^ (1024 : Int) ≤ 10 ^ d.exponent :=
          Binary.two_zpow_le_ten_zpow (by omega) (by omega)
      _ ≤ d.digits * 10 ^ d.exponent := le_mul_of_one_le_left (by positivity) hdigits
  exact (hd.trans_lt hlast).not_ge hpower

section

variable {p : Nat} (hp : p + 1 < double.infinity)

include hp

/-- Where there is room above, what scaling loses is few places. -/
theorem exists_scaleByTen_shortest (hroom : p + 1 + 4 < double.infinity) : ∃ n e w,
    ReadsAs (decimalText ((double.magnitude (p + 1)).shortest .even)).toList n e ∧
      scaleByTen n e = some w ∧ double.Near (p + 1) w := by
  obtain ⟨hlow, hhigh, hdigits, hexponent⟩ := shortest_spec .even hp
  generalize (double.magnitude (p + 1)).shortest .even = d at hlow hhigh hdigits hexponent ⊢
  have hpos : 0 < d.digits := by
    refine Nat.pos_of_ne_zero fun hzero => ?_
    have hmiddle := (double.number_nonneg p).trans_lt (double.number_lt_middle p)
    rw [Decimal.number, hzero, Nat.cast_zero, zero_mul] at hlow
    exact hmiddle.not_ge hlow
  have hlargest := exponent_le hp hpos hhigh
  obtain ⟨n, e, hn, hsize, hnumber, he, hreads⟩ := exists_readsAs hpos hdigits
  obtain ⟨z, w, hround, hz, hscale⟩ := exists_scaleByTen (e := e) hn hsize (by omega) (by omega)
  rw [hnumber] at hz
  have haround : double.Around (p + 1) d.number :=
    ⟨fun i hi => (double.middle_strictMono.monotone (Nat.le_of_lt_succ hi)).trans hlow, hhigh⟩
  obtain ⟨hup, hdown⟩ := hround.few_places haround hroom hz
  have hfinite : w < double.infinity := by omega
  exact ⟨n, e, w, hreads, hscale hfinite, ⟨hfinite, hup, hdown, by omega⟩⟩

theorem exists_scaleByTen_shortest_last (hlast : double.infinity ≤ p + 1 + 4) : ∃ n e w,
    ReadsAs (decimalText ((double.magnitude (p + 1)).shortest .even)).toList n e ∧
      scaleByTen n e = some w ∧ double.Near (p + 1) w := by
  have hlast := scaleByTen_last (double.infinity - 1 - (p + 1)) (by omega)
  have hplace : double.infinity - 1 - (double.infinity - 1 - (p + 1)) = p + 1 := by omega
  rw [hplace] at hlast
  obtain ⟨hleading, hdigits, hscale⟩ := hlast
  generalize (double.magnitude (p + 1)).shortest .even = d at hleading hdigits hscale ⊢
  rw [decimalText, if_neg fun hplace => hleading.not_ge hplace.2]
  cases hw : scaleByTen d.digits d.exponent with
  | none =>
    rw [hw] at hscale
    cases hscale
  | some w =>
    rw [hw] at hscale
    obtain ⟨hfinite, hup, hdown⟩ := of_decide_eq_true hscale
    exact ⟨_, _, w, readsAs_scientific hdigits, hw, ⟨hfinite, hup, hdown, by omega⟩⟩

end

theorem exists_scaleByTen_magnitudeText {p : Nat} (hp : p < double.infinity) : ∃ n e w,
    ReadsAs (magnitudeText (double.magnitude p)).toList n e ∧ scaleByTen n e = some w ∧
      double.Near p w := by
  cases p with
  | zero =>
    exact ⟨0, -1, 0, readsAs_zero, rfl, ⟨hp, by omega, by omega, fun _ => rfl⟩⟩
  | succ p =>
    have hnonzero : (double.magnitude (p + 1)).mantissa ≠ 0 := by
      intro hzero
      have hpos := double.number_pos (Nat.succ_pos p)
      rw [number, hzero, Nat.cast_zero, zero_mul] at hpos
      exact hpos.false
    rw [magnitudeText, if_neg hnonzero]
    by_cases hroom : p + 1 + 4 < double.infinity
    · exact exists_scaleByTen_shortest hp hroom
    · exact exists_scaleByTen_shortest_last hp (Nat.le_of_not_lt hroom)

variable {v : BitVec 64}

theorem floatChars_eq (hv : double.unsigned v < double.infinity) : floatChars v =
    (if double.negative v then ['-'] else []) ++
      (magnitudeText (double.magnitude (double.unsigned v))).toList := by
  rw [floatChars, floatText, value_of_lt hv]
  dsimp only
  unfold magnitudeText decimalText
  cases double.negative v <;> split <;> simp

theorem exists_eq_cons_of_readUnsigned {minus : Bool} {cs : List Char} {r : Json × List Char}
    (h : readUnsigned (ρ := ρ) minus cs = .ok r) :
    ∃ c tail, cs = c :: tail ∧ Numeral.isDecimal c = true := by
  cases cs with
  | nil => cases h
  | cons c tail =>
    refine ⟨c, tail, rfl, ?_⟩
    by_contra hc
    rw [readUnsigned, if_pos (.inl (by simpa using hc))] at h
    cases h

/-- A finite float is read as a float of the same sign that is few places away. -/
theorem exists_readNumber (hv : double.unsigned v < double.infinity) : ∃ w,
    double.Near (double.unsigned v) w ∧
      (∃ c tail, floatChars v = c :: tail ∧ IsNumberStart c) ∧
      ∀ (ρ : Type) (rest : List Char), EndsNumber rest →
        readNumber (ρ := ρ) (floatChars v ++ rest) =
          .ok (.float (double.signed (double.negative v) w), rest) := by
  obtain ⟨n, e, w, hreads, hscale, hnear⟩ := exists_scaleByTen_magnitudeText hv
  rw [floatChars_eq hv]
  generalize (magnitudeText (double.magnitude (double.unsigned v))).toList = cs at hreads
  have hunsigned (ρ : Type) (minus : Bool) (rest : List Char) (hrest : EndsNumber rest) :
      readUnsigned (ρ := ρ) minus (cs ++ rest) = .ok (.float (double.signed minus w), rest) := by
    rw [hreads ρ minus rest hrest, floatOf, hscale]
    rfl
  obtain ⟨c, tail, hcs, hc⟩ :=
    exists_eq_cons_of_readUnsigned (hunsigned Empty false [] endsNumber_nil)
  rw [List.append_nil] at hcs
  refine ⟨w, hnear, ?_, fun ρ rest hrest => ?_⟩
  · cases double.negative v with
    | true => exact ⟨'-', cs, rfl, .inl rfl⟩
    | false => exact ⟨c, tail, hcs, .inr hc⟩
  · cases double.negative v with
    | true => exact hunsigned ρ true rest hrest
    | false =>
      have hread := hunsigned ρ false rest hrest
      rw [hcs, List.cons_append] at hread
      change readNumber (cs ++ rest) = _
      rw [hcs, List.cons_append, readNumber]
      · exact hread
      · rintro after hminus
        exact Numeral.ne_of_isDecimal hc rfl (List.cons.inj hminus).1

theorem exists_takes_float (hv : double.unsigned v < double.infinity) : ∃ w,
    double.Near (double.unsigned v) w ∧
      ∀ ρ, Takes (ρ := ρ) 0 readValue (.float v)
        (.float (double.signed (double.negative v) w)) := by
  obtain ⟨w, hnear, ⟨c, tail, hc, hstart⟩, hread⟩ := exists_readNumber hv
  refine ⟨w, hnear, fun ρ => ⟨fun indent => ?_, ?_⟩⟩
  · rw [prettyChars, hc]
    exact hstart.startsValue tail
  · intro scope indent cs rest _ _ hrest hcs
    rw [prettyChars] at hcs
    rw [← hread ρ rest hrest]
    rw [hc] at hcs ⊢
    exact readValue_of_isNumberStart hstart scope hcs

end DeviceTrial.Json
