import DeviceTrial.Json.Reader
import DeviceTrial.Proofs.Text.Numerals

namespace DeviceTrial.Json

variable {ρ : Type}

theorem takeDigits_cons_digitChar {significand count d : Nat} (hd : d < 10) (rest : List Char)
    (h : significand * 10 + d < UInt64.size) :
    takeDigits significand count (Nat.digitChar d :: rest) =
      takeDigits (significand * 10 + d) (count + 1) rest := by
  rw [takeDigits, Numeral.digit?_digitChar d hd]
  exact if_pos h

theorem takeDigits_toDigits {n : Nat} (hn : n < UInt64.size) (count : Nat) (rest : List Char) :
    takeDigits 0 count (Nat.toDigits 10 n ++ rest) =
      takeDigits n (count + (Nat.toDigits 10 n).length) rest := by
  -- by the digits from the last one on, since the first ones are those of `n / 10`
  induction n using Nat.strongRecOn generalizing rest with
  | _ n ih =>
    by_cases h : n < 10
    · rw [Nat.toDigits_of_lt_base h, List.singleton_append,
        takeDigits_cons_digitChar h rest (by omega), Nat.zero_mul, Nat.zero_add]
      rfl
    · have hlast : n % 10 < 10 := Nat.mod_lt n (by decide)
      have hsum : n / 10 * 10 + n % 10 = n := Nat.div_add_mod' n 10
      rw [Nat.toDigits_of_base_le (by decide) (by omega), List.append_assoc, List.singleton_append,
        ih (n / 10) (by omega) (by omega), takeDigits_cons_digitChar hlast rest (by omega), hsum,
        List.length_append, List.length_singleton, Nat.add_assoc]

/-- Nothing stands here with which a number would go on. -/
def EndsNumber (rest : List Char) : Prop :=
  ∀ c ∈ rest.head?, Numeral.isDecimal c = false ∧ c ≠ '.' ∧ c ≠ 'e' ∧ c ≠ 'E'

theorem endsNumber_nil : EndsNumber [] := by
  intro c hc
  cases hc

theorem EndsNumber.startsWithDigit {rest : List Char} (h : EndsNumber rest) :
    startsWithDigit rest = false := by
  cases rest with
  | nil => rfl
  | cons c rest => exact (h c rfl).1

theorem EndsNumber.takeDigits {rest : List Char} (h : EndsNumber rest) (significand count : Nat) :
    takeDigits significand count rest = (significand, count, rest) := by
  cases rest with
  | nil => rfl
  | cons c rest =>
    have hnone : Numeral.digit? 10 c = none := by
      simpa [Numeral.isDecimal] using (h c rfl).1
    rw [Json.takeDigits, hnone]

theorem EndsNumber.skipDigits {rest : List Char} (h : EndsNumber rest) (count : Nat) :
    skipDigits count rest = (count, rest) := by
  cases rest with
  | nil => rfl
  | cons c rest => rw [Json.skipDigits, (h c rfl).1]; rfl

theorem readUnsigned_toDigits {minus : Bool} {n : Nat} (hn : n < UInt64.size) {rest : List Char}
    (hrest : EndsNumber rest) :
    readUnsigned (ρ := ρ) minus (Nat.toDigits 10 n ++ rest) = .ok (integerOf minus n, rest) := by
  have hdigits : takeDigits 0 0 (Nat.toDigits 10 n ++ rest) =
      (n, 0 + (Nat.toDigits 10 n).length, rest) := by
    rw [takeDigits_toDigits hn, hrest.takeDigits]
  obtain ⟨d, tail, hd, heq, hzero⟩ := Numeral.toDigits_eq_cons n
  -- no digit stands behind a leading zero
  have hlead : ¬ (Nat.digitChar d = '0' ∧ startsWithDigit (tail ++ rest) = true) := by
    rintro ⟨hc, hstarts⟩
    obtain rfl := hzero (Numeral.digitChar_eq_zero d hd hc)
    obtain rfl : tail = [] := (List.cons.inj heq).2.symm
    rw [List.nil_append, hrest.startsWithDigit] at hstarts
    cases hstarts
  rw [heq, List.cons_append] at hdigits ⊢
  rw [readUnsigned, hdigits]
  simp only [Numeral.isDecimal_digitChar hd, hrest.skipDigits, Bool.not_true, hlead, or_self,
    if_false, Bool.false_eq_true]
  cases rest with
  | nil => rfl
  | cons c rest =>
    obtain ⟨-, hpoint, he, hE⟩ := hrest c rfl
    split
    · rename_i h
      exact absurd (List.cons.inj h).1 hpoint
    · rename_i h
      exact absurd (List.cons.inj h).1 he
    · rename_i h
      exact absurd (List.cons.inj h).1 hE
    · rfl

theorem readNumber_natural {n : Nat} (hn : n < UInt64.size) {rest : List Char}
    (hrest : EndsNumber rest) :
    readNumber (ρ := ρ) (Nat.toDigits 10 n ++ rest) = .ok (.ofNat n, rest) := by
  have hread : readUnsigned (ρ := ρ) false (Nat.toDigits 10 n ++ rest) =
      .ok (integerOf false n, rest) := readUnsigned_toDigits hn hrest
  obtain ⟨d, tail, hd, heq, -⟩ := Numeral.toDigits_eq_cons n
  have hdigit := Numeral.isDecimal_digitChar hd
  rw [heq, List.cons_append] at hread ⊢
  rw [readNumber]
  · exact hread
  · rintro cs h
    exact Numeral.ne_of_isDecimal hdigit rfl (List.cons.inj h).1

theorem readNumber_negative {v : Int64} (hv : v.toInt < 0) {rest : List Char}
    (hrest : EndsNumber rest) :
    readNumber (ρ := ρ) (numberChars v.toInt ++ rest) = .ok (.negative v, rest) := by
  have hleast : -9223372036854775808 ≤ v.toInt := v.le_toInt
  have hsize : UInt64.size = 18446744073709551616 := rfl
  have habs : -(v.toInt.natAbs : Int) = v.toInt := by omega
  rw [numberChars, if_pos hv, List.cons_append, readNumber,
    readUnsigned_toDigits (by omega) hrest, integerOf]
  simp only [Bool.not_true, Bool.false_eq_true, if_false]
  rw [if_pos (by omega), habs, Int64.ofInt_toInt]

theorem numberChars_natCast (n : Nat) : numberChars n = Nat.toDigits 10 n :=
  if_neg (Int.not_lt.mpr (Int.natCast_nonneg n))

theorem textBody_plain {c : Char} (hslash : c ≠ '\\') (hquote : c ≠ '\x22')
    (hc : ¬ c.toNat < 0x20) (acc rest : List Char) :
    textBody (ρ := ρ) none acc (c :: rest) = textBody none (c :: acc) rest := by
  rw [textBody]
  · simp only [Option.isSome_none, Bool.false_eq_true, if_false, if_neg hquote, if_neg hc]
  · rintro a b d e rest rfl
    exact absurd rfl hslash
  · rintro rest rfl
    exact absurd rfl hslash
  · rintro rfl
    exact absurd rfl hslash
  · rintro d rest rfl
    exact absurd rfl hslash

theorem hexDigits_control : ∀ n < 0x20,
    Numeral.hexDigits 4 n =
      ['0', '0', Nat.digitChar (n / 16), Nat.digitChar (n % 16)] ∧
    hexUnit '0' '0' (Nat.digitChar (n / 16)) (Nat.digitChar (n % 16)) = some n := by
  decide

theorem textBody_escaped (c : Char) (acc rest : List Char) :
    textBody (ρ := ρ) none acc (escaped c ++ rest) = textBody none (c :: acc) rest := by
  unfold escaped
  split
  · rfl
  · rfl
  · rfl
  · rfl
  · rfl
  · rfl
  · rfl
  · rename_i hquote hslash _ _ _ _ _
    by_cases hc : c.toNat < 0x20
    · obtain ⟨hdigits, hunit⟩ := hexDigits_control c.toNat hc
      rw [if_pos hc, hdigits]
      simp only [List.cons_append, List.nil_append]
      rw [textBody]
      simp only [hunit]
      -- a control character is no surrogate
      rw [if_neg (by omega), if_neg (by omega), Char.ofNat_toNat]
    · rw [if_neg hc]
      exact textBody_plain hslash hquote hc acc rest

theorem textBody_flatMap (cs acc rest : List Char) :
    textBody (ρ := ρ) none acc (cs.flatMap escaped ++ '\x22' :: rest) =
      .ok (String.ofList (acc.reverse ++ cs), rest) := by
  induction cs generalizing acc with
  | nil =>
    rw [List.flatMap_nil, List.append_nil]
    rfl
  | cons c cs ih =>
    rw [List.flatMap_cons, List.append_assoc, textBody_escaped, ih, List.reverse_cons,
      List.append_assoc, List.singleton_append]

theorem textBody_toList (s : String) (rest : List Char) :
    textBody (ρ := ρ) none [] (s.toList.flatMap escaped ++ '\x22' :: rest) = .ok (s, rest) := by
  rw [textBody_flatMap, List.reverse_nil, List.nil_append, String.ofList_toList]

end DeviceTrial.Json
