import DeviceTrial.Proofs.Json.Takes

namespace DeviceTrial.Json

variable {ρ α : Type}

def IsNumberStart (c : Char) : Prop := c = '-' ∨ Numeral.isDecimal c = true

instance : DecidablePred IsNumberStart := fun c =>
  inferInstanceAs (Decidable (c = '-' ∨ Numeral.isDecimal c = true))

theorem IsNumberStart.ne {c d : Char} (h : IsNumberStart c) (hd : ¬ IsNumberStart d) : c ≠ d := by
  rintro rfl
  exact hd h

theorem IsNumberStart.startsValue {c : Char} (h : IsNumberStart c) (tail : List Char) :
    StartsValue (c :: tail) := by
  refine ⟨c, tail, rfl, ?_, h.ne (by decide)⟩
  have hspace : c ≠ ' ' := h.ne (by decide)
  have hline : c ≠ '\n' := h.ne (by decide)
  have htab : c ≠ '\t' := h.ne (by decide)
  have hreturn : c ≠ '\r' := h.ne (by decide)
  simp [isBlank, hspace, hline, htab, hreturn]

theorem numberChars_eq_cons (n : Int) :
    ∃ c tail, numberChars n = c :: tail ∧ IsNumberStart c := by
  unfold numberChars
  split
  · exact ⟨_, _, rfl, .inl rfl⟩
  · obtain ⟨d, tail, hd, heq, -⟩ := Numeral.toDigits_eq_cons n.natAbs
    exact ⟨_, tail, heq, .inr (Numeral.isDecimal_digitChar hd)⟩

theorem startsValue_numberChars (n : Int) : StartsValue (numberChars n) := by
  obtain ⟨c, tail, hn, hc⟩ := numberChars_eq_cons n
  exact hn ▸ hc.startsValue tail

theorem textChars_append (s : String) (rest : List Char) :
    textChars s ++ rest = '\x22' :: (s.toList.flatMap escaped ++ '\x22' :: rest) := by
  simp only [textChars, List.cons_append, List.append_assoc, List.nil_append]

theorem readNumber_numberChars {n : Nat} (hn : n < UInt64.size) {rest : List Char}
    (hrest : EndsNumber rest) :
    readNumber (ρ := ρ) (numberChars n ++ rest) = .ok (.ofNat n, rest) := by
  rw [numberChars_natCast]
  exact readNumber_natural hn hrest

theorem prettyChars_ofNat {n : Nat} (hn : n < UInt64.size) (indent : Nat) :
    prettyChars indent (.ofNat n) = numberChars n := by
  rw [ofNat, prettyChars, UInt64.toNat_ofNat_of_lt' hn]

theorem takes_readText (s : String) : Takes (ρ := ρ) 0 (fun _ => readText) (.text s) s where
  starts := fun _ => ⟨'\x22', _, rfl, by decide, by decide⟩
  reads := by
    intro scope indent cs rest _ _ _ hcs
    rw [prettyChars, textChars_append] at hcs
    rw [readText, hcs]
    exact textBody_toList s rest

section

variable {bound n : Nat} (hbound : bound ≤ UInt64.size) (hn : n < bound)

include hbound hn

theorem boundedNumber_numberChars {rest : List Char} (hrest : EndsNumber rest) :
    boundedNumber (ρ := ρ) bound (numberChars n ++ rest) = .ok (n, rest) := by
  have hsize : n < UInt64.size := Nat.lt_of_lt_of_le hn hbound
  refine bind_eq_ok_iff.mpr ⟨_, readNumber_numberChars hsize hrest, ?_⟩
  simp only [ofNat, UInt64.toNat_ofNat_of_lt' hsize, if_pos hn]
  rfl

theorem startsValue_ofNat (indent : Nat) : StartsValue (prettyChars indent (.ofNat n)) := by
  rw [prettyChars_ofNat (Nat.lt_of_lt_of_le hn hbound)]
  exact startsValue_numberChars n

theorem takes_readNatural : Takes (ρ := ρ) 0 (fun _ => readNatural bound) (.ofNat n) n where
  starts := startsValue_ofNat hbound hn
  reads := by
    intro scope indent cs rest _ _ hrest hcs
    have hread := boundedNumber_numberChars (ρ := ρ) hbound hn hrest
    rw [prettyChars_ofNat (Nat.lt_of_lt_of_le hn hbound)] at hcs
    obtain ⟨c, tail, hc, hstart⟩ := numberChars_eq_cons n
    rw [hc] at hcs hread
    rw [readNatural, hcs]
    exact (if_pos hstart).trans hread

theorem takes_readOption_readNatural :
    Takes (ρ := ρ) 0 (fun _ => readOption (readNatural bound)) (.ofNat n) (some n) where
  starts := startsValue_ofNat hbound hn
  reads := by
    intro scope indent cs rest hroom hfuel hrest hcs
    have htakes := takes_readNatural (ρ := ρ) hbound hn
    have hread := htakes.reads hroom hfuel hrest ((htakes.starts indent).skipBlanks_append rest)
    rw [prettyChars_ofNat (Nat.lt_of_lt_of_le hn hbound)] at hcs hread
    obtain ⟨c, tail, hc, hstart⟩ := numberChars_eq_cons n
    have hnull : c ≠ 'n' := hstart.ne (by decide)
    rw [hc] at hcs hread
    unfold readOption
    rw [hcs]
    split
    · rename_i heq
      exact absurd (List.cons.inj heq).1 hnull
    · rw [hread]
      rfl

end

theorem escaped_digitChar : ∀ d < 10, escaped (Nat.digitChar d) = [Nat.digitChar d] := by decide

theorem flatMap_escaped_toDigits (n : Nat) :
    (Nat.toDigits 10 n).flatMap escaped = Nat.toDigits 10 n := by
  induction n using Nat.strongRecOn with
  | _ n ih =>
    by_cases h : n < 10
    · rw [Nat.toDigits_of_lt_base h, List.flatMap_singleton, escaped_digitChar n h]
    · rw [Nat.toDigits_of_base_le (by decide) (by omega), List.flatMap_append,
        ih (n / 10) (by omega), List.flatMap_singleton,
        escaped_digitChar _ (Nat.mod_lt n (by decide))]

theorem takesKey_numeralKey {bound n : Nat} (hbound : bound ≤ UInt64.size) (hn : n < bound) :
    TakesKey (ρ := ρ) (numeralKey bound) (Numeral.decimal n) n := by
  intro rest
  have hread := boundedNumber_numberChars (ρ := ρ) hbound hn
    (endsNumber_cons (c := '\x22') (by decide) rest)
  rw [Numeral.decimal, String.toList_ofList, flatMap_escaped_toDigits, ← numberChars_natCast]
  obtain ⟨c, tail, hc, hstart⟩ := numberChars_eq_cons n
  rw [hc] at hread ⊢
  refine (if_pos hstart).trans ?_
  exact bind_eq_ok_iff.mpr ⟨_, hread, rfl⟩

theorem readValue_eq (scope : Scope) (cs : List Char) :
    readValue (ρ := ρ) scope cs =
      valueWith scope.fuel (if scope.room = 0 then none else some (readValue scope.inner)) cs := by
  obtain ⟨room, fuel⟩ := scope
  cases room with
  | zero => rfl
  | succ room => rfl

theorem takes_null : Takes (ρ := ρ) 0 readValue .null .null where
  starts := fun _ => ⟨'n', _, rfl, by decide, by decide⟩
  reads := by
    intro scope indent cs rest _ _ _ hcs
    rw [prettyChars] at hcs
    rw [readValue_eq, valueWith, hcs]
    rfl

theorem takes_bool (v : Bool) : Takes (ρ := ρ) 0 readValue (.bool v) (.bool v) where
  starts := fun indent => by
    cases v with
    | true => exact ⟨'t', _, rfl, by decide, by decide⟩
    | false => exact ⟨'f', _, rfl, by decide, by decide⟩
  reads := by
    intro scope indent cs rest _ _ _ hcs
    rw [readValue_eq, valueWith, hcs]
    cases v <;> rfl

theorem takes_text (s : String) : Takes (ρ := ρ) 0 readValue (.text s) (.text s) where
  starts := (takes_readText (ρ := ρ) s).starts
  reads := by
    intro scope indent cs rest _ _ _ hcs
    rw [prettyChars, textChars_append] at hcs
    rw [readValue_eq, valueWith, hcs]
    exact bind_eq_ok_iff.mpr ⟨_, textBody_toList s rest, rfl⟩

theorem readValue_of_isNumberStart {c : Char} (hc : IsNumberStart c) (scope : Scope)
    {cs tail : List Char} (hcs : skipBlanks cs = c :: tail) :
    readValue (ρ := ρ) scope cs = readNumber (c :: tail) := by
  have hletter : c ≠ 'n' ∧ c ≠ 't' ∧ c ≠ 'f' :=
    ⟨hc.ne (by decide), hc.ne (by decide), hc.ne (by decide)⟩
  have hopen : c ≠ '\x22' ∧ c ≠ '[' ∧ c ≠ '\x7b' :=
    ⟨hc.ne (by decide), hc.ne (by decide), hc.ne (by decide)⟩
  rw [readValue_eq]
  unfold valueWith
  have hstart : c = '-' ∨ Numeral.isDecimal c = true := hc
  simp [hcs, hletter, hopen, hstart]

theorem takes_natural (v : UInt64) : Takes (ρ := ρ) 0 readValue (.natural v) (.natural v) where
  starts := fun _ => startsValue_numberChars v.toNat
  reads := by
    intro scope indent cs rest _ _ hrest hcs
    have hread := readNumber_numberChars (ρ := ρ) v.toNat_lt hrest
    rw [prettyChars] at hcs
    obtain ⟨c, tail, hc, hstart⟩ := numberChars_eq_cons v.toNat
    rw [ofNat, UInt64.ofNat_toNat, hc] at hread
    rw [hc] at hcs
    exact (readValue_of_isNumberStart hstart scope hcs).trans hread

theorem takes_negative {v : Int64} (hv : v.toInt < 0) :
    Takes (ρ := ρ) 0 readValue (.negative v) (.negative v) where
  starts := fun _ => startsValue_numberChars v.toInt
  reads := by
    intro scope indent cs rest _ _ hrest hcs
    have hread := readNumber_negative (ρ := ρ) hv hrest
    rw [prettyChars] at hcs
    obtain ⟨c, tail, hc, hstart⟩ := numberChars_eq_cons v.toInt
    rw [hc] at hcs hread
    exact (readValue_of_isNumberStart hstart scope hcs).trans hread

theorem takes_integer {v : Int} (hv : -9223372036854775808 ≤ v) :
    Takes (ρ := ρ) 0 readValue (.integer v) (.integer v) := by
  unfold integer
  by_cases hsign : 0 ≤ v
  · rw [if_pos hsign]
    exact takes_natural _
  · rw [if_neg hsign]
    refine takes_negative ?_
    rw [Int64.toInt_ofInt_of_le hv (by omega)]
    omega

theorem takes_array {room : Nat} {js : List Json}
    (h : ∀ j ∈ js, Takes (ρ := ρ) room readValue j j) :
    Takes (ρ := ρ) (room + 1) readValue (.array js) (.array js) where
  starts := fun indent => startsValue_array indent js
  reads := by
    intro scope indent cs rest hroom hfuel _ hcs
    have hinner : room ≤ scope.inner.room := Nat.le_sub_one_of_lt hroom
    rw [prettyChars_array] at hfuel hcs
    rw [List.length_cons] at hfuel
    have hitems := items_listed (List.forall₂_same.mpr h) hinner (Nat.le_of_succ_le hfuel)
      (Nat.le_refl scope.fuel) [] rest
    rw [readValue_eq, if_neg (by omega), valueWith, hcs]
    exact bind_eq_ok_iff.mpr ⟨_, hitems, rfl⟩

theorem takes_object {room : Nat} {fields : List (String × Json)}
    (h : ∀ f ∈ fields, Takes (ρ := ρ) room readValue f.2 f.2) :
    Takes (ρ := ρ) (room + 1) readValue (.object fields) (.object fields) where
  starts := fun indent => startsValue_object indent fields
  reads := by
    intro scope indent cs rest hroom hfuel _ hcs
    have hinner : room ≤ scope.inner.room := Nat.le_sub_one_of_lt hroom
    rw [prettyChars_object] at hfuel hcs
    rw [List.length_cons] at hfuel
    have hfields : List.Forall₂ (TakesField room (textBody none []) readValue) fields fields :=
      List.forall₂_same.mpr fun f hf => ⟨textBody_toList f.1, h f hf⟩
    have hentries := entries_listed hfields hinner (Nat.le_of_succ_le hfuel)
      (Nat.le_refl scope.fuel) [] rest
    rw [readValue_eq, if_neg (by omega), valueWith, hcs]
    exact bind_eq_ok_iff.mpr ⟨_, hentries, rfl⟩

end DeviceTrial.Json
