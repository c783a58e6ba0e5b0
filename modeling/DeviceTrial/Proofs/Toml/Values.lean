import DeviceTrial.Proofs.Text.Numerals
import DeviceTrial.Proofs.Toml.Text
import DeviceTrial.Toml.Reader

namespace DeviceTrial

open Numeral (isDecimal)

variable {ds rest : List Char}

theorem second_of_isDecimal (hds : ∀ c ∈ ds, isDecimal c = true) {first second : Char}
    {tail : List Char} (h : first :: second :: tail = ds ++ '\n' :: rest)
    (hfirst : first ≠ '\n') : isDecimal second = true ∨ second = '\n' := by
  match ds with
  | [] => exact absurd (List.cons.inj h).1 hfirst
  | [_] => exact .inr (List.cons.inj (List.cons.inj h).2).1
  | _ :: c :: _ =>
    obtain rfl : second = c := (List.cons.inj (List.cons.inj h).2).1
    exact .inl (hds second (by simp))

namespace Timestamp

theorem exists_of_digits (hds : ∀ c ∈ ds, isDecimal c = true) {count acc value : Nat}
    {tail : List Char} (h : digits count acc (ds ++ '\n' :: rest) = some (value, tail)) :
    ∃ es, (∀ c ∈ es, isDecimal c = true) ∧ tail = es ++ '\n' :: rest := by
  induction count generalizing ds acc with
  | zero =>
    cases h
    exact ⟨ds, hds, rfl⟩
  | succ count ih =>
    cases ds with
    | nil => cases h
    | cons d ds =>
      obtain ⟨-, hds⟩ := List.forall_mem_cons.mp hds
      obtain ⟨v, -, h⟩ := Option.bind_eq_some_iff.mp h
      exact ih hds h

theorem mark_eq_none (hds : ∀ c ∈ ds, isDecimal c = true) {m : Char} (hm : isDecimal m = false)
    (hline : m ≠ '\n') : mark [m] (ds ++ '\n' :: rest) = none := by
  have hother {c : Char} (hc : c ≠ m) (tail : List Char) : mark [m] (c :: tail) = none := by
    simp [mark, hc]
  cases ds with
  | nil => exact hother hline.symm _
  | cons d ds =>
    refine hother ?_ _
    rintro rfl
    rw [hds d List.mem_cons_self] at hm
    cases hm

theorem date_eq_none (hds : ∀ c ∈ ds, isDecimal c = true) : date (ds ++ '\n' :: rest) = none := by
  unfold date
  cases h : digits 4 0 (ds ++ '\n' :: rest) with
  | none => rfl
  | some found =>
    obtain ⟨es, hes, htail⟩ := exists_of_digits hds h
    simp [htail, mark_eq_none hes (m := '-') rfl (by decide)]

theorem time_eq_none (hds : ∀ c ∈ ds, isDecimal c = true) : time (ds ++ '\n' :: rest) = none := by
  unfold time
  cases h : digits 2 0 (ds ++ '\n' :: rest) with
  | none => rfl
  | some found =>
    obtain ⟨es, hes, htail⟩ := exists_of_digits hds h
    simp [htail, mark_eq_none hes (m := ':') rfl (by decide)]

end Timestamp

namespace Toml

theorem moreDigits_append (hds : ∀ c ∈ ds, isDecimal c = true) (acc : List Char) :
    moreDigits 10 acc (ds ++ '\n' :: rest) = (acc.reverse ++ ds, '\n' :: rest) := by
  induction ds generalizing acc with
  | nil =>
    rw [List.nil_append, List.append_nil, moreDigits]
    · rfl
    · rintro c tail h
      cases h
  | cons d ds ih =>
    obtain ⟨hd, hds⟩ := List.forall_mem_cons.mp hds
    rw [List.cons_append, moreDigits]
    · refine (if_pos hd).trans ?_
      rw [ih hds, List.reverse_cons, List.append_assoc, List.singleton_append]
    · rintro c tail rfl
      cases hd

theorem someDigits_append (hds : ∀ c ∈ ds, isDecimal c = true) (hne : ds ≠ []) :
    someDigits 10 (ds ++ '\n' :: rest) = some (ds, '\n' :: rest) := by
  cases ds with
  | nil => exact absurd rfl hne
  | cons d ds =>
    obtain ⟨hd, hds⟩ := List.forall_mem_cons.mp hds
    rw [List.cons_append, someDigits, moreDigits_append hds]
    exact if_pos hd

theorem isDecimal_of_mem_toDigits (n : Nat) {c : Char} (hc : c ∈ Nat.toDigits 10 n) :
    isDecimal c = true :=
  (Numeral.spells_toDigits (by decide) (by decide) n).isDecimal_of_mem hc

section

variable {n : Nat}

theorem wholeDigits_toDigits :
    wholeDigits (Nat.toDigits 10 n ++ '\n' :: rest) = some (Nat.toDigits 10 n, '\n' :: rest) := by
  obtain ⟨d, tail, hd, heq, hzero⟩ := Numeral.toDigits_eq_cons n
  by_cases hfirst : Nat.digitChar d = '0'
  · -- a zero that leads is the whole number
    obtain rfl := hzero (Numeral.digitChar_eq_zero d hd hfirst)
    rfl
  · have hsome : someDigits 10 (Nat.toDigits 10 n ++ '\n' :: rest) =
        some (Nat.toDigits 10 n, '\n' :: rest) :=
      someDigits_append (fun _ => isDecimal_of_mem_toDigits n)
        (Numeral.spells_toDigits (by decide) (by decide) n).1
    rw [heq, List.cons_append] at hsome ⊢
    rw [wholeDigits]
    · exact hsome
    · rintro tail h
      exact hfirst (List.cons.inj h).1

theorem sign_toDigits :
    sign (Nat.toDigits 10 n ++ '\n' :: rest) = (false, Nat.toDigits 10 n ++ '\n' :: rest) := by
  obtain ⟨d, tail, hd, heq, -⟩ := Numeral.toDigits_eq_cons n
  have hdigit := Numeral.isDecimal_digitChar hd
  rw [heq, List.cons_append, sign]
  all_goals
    intro after h
    exact absurd (List.cons.inj h).1 (Numeral.ne_of_isDecimal hdigit rfl)

theorem readMoment_toDigits : readMoment (Nat.toDigits 10 n ++ '\n' :: rest) = none := by
  have hdigits : ∀ c ∈ Nat.toDigits 10 n, isDecimal c = true := fun _ => isDecimal_of_mem_toDigits n
  rw [readMoment, Timestamp.date_eq_none hdigits, Timestamp.time_eq_none hdigits]
  rfl

theorem readFloat_toDigits : readFloat (Nat.toDigits 10 n ++ '\n' :: rest) = none := by
  simp [readFloat, sign_toDigits, wholeDigits_toDigits, fraction?, exponent?]

theorem readSpecial_toDigits : readSpecial (Nat.toDigits 10 n ++ '\n' :: rest) = none := by
  obtain ⟨d, tail, hd, heq, -⟩ := Numeral.toDigits_eq_cons n
  have hdigit := Numeral.isDecimal_digitChar hd
  rw [readSpecial, sign_toDigits, heq, List.cons_append]
  dsimp only
  split
  · next h => exact absurd (List.cons.inj h).1 (Numeral.ne_of_isDecimal hdigit rfl)
  · next h => exact absurd (List.cons.inj h).1 (Numeral.ne_of_isDecimal hdigit rfl)
  · rfl

theorem readInteger_toDigits (hn : n < 2 ^ 63) :
    readInteger (Nat.toDigits 10 n ++ '\n' :: rest) = some (.integer n, '\n' :: rest) := by
  have hvalue : naturalOf 10 (Nat.toDigits 10 n) = n := by
    rw [naturalOf, (Numeral.spells_toDigits (by decide) (by decide) n).readFrom_zero (by decide),
      Option.getD_some]
  have hbounds : Int64.minValue.toInt ≤ (n : Int) ∧ (n : Int) ≤ Int64.maxValue.toInt := by
    change -9223372036854775808 ≤ (n : Int) ∧ (n : Int) ≤ 9223372036854775807
    omega
  have hmark {mark : Char} {tail : List Char}
      (h : Nat.toDigits 10 n ++ '\n' :: rest = '0' :: mark :: tail) :
      isDecimal mark = true ∨ mark = '\n' :=
    second_of_isDecimal (fun _ => isDecimal_of_mem_toDigits n) h.symm (by decide)
  unfold readInteger
  split
  · next h => rcases hmark h with hmark | hmark <;> cases hmark
  · next h => rcases hmark h with hmark | hmark <;> cases hmark
  · next h => rcases hmark h with hmark | hmark <;> cases hmark
  · simp [sign_toDigits, wholeDigits_toDigits, hvalue, bounded, hbounds]

theorem readNumber_toDigits (hn : n < 2 ^ 63) :
    readNumber (Nat.toDigits 10 n ++ '\n' :: rest) = some (.integer n, '\n' :: rest) := by
  rw [readNumber, readMoment_toDigits, readFloat_toDigits, readSpecial_toDigits,
    readInteger_toDigits hn]
  rfl

end

/-- What a value is written as is read as the value, up to the end of its line. -/
structure Shows (word : List Char) (v : Toml) : Prop where
  starts : ∀ rest, skipBlanks (word ++ rest) = word ++ rest
  reads : ∀ fuel inside rest,
    valueWith fuel inside (word ++ '\n' :: rest) = some (v, '\n' :: rest)

theorem skipBlanks_cons {c : Char} (hc : isBlank c = false) (cs : List Char) :
    skipBlanks (c :: cs) = c :: cs :=
  List.dropWhile_cons_of_neg (by simp [hc])

theorem Shows.valueAt {word : List Char} {v : Toml} (h : Shows word v) (fuel room : Nat)
    (rest : List Char) :
    valueAt fuel room (word ++ '\n' :: rest) = some (v, '\n' :: rest) := by
  cases room with
  | zero => exact h.reads fuel none rest
  | succ room => exact h.reads fuel _ rest

theorem shows_bool (b : Bool) : Shows (if b then "true" else "false").toList (.bool b) := by
  cases b with
  | false => exact ⟨fun _ => rfl, fun _ _ _ => rfl⟩
  | true => exact ⟨fun _ => rfl, fun _ _ _ => rfl⟩

theorem shows_decimal {n : Nat} (hn : n < 2 ^ 63) :
    Shows (Numeral.decimal n).toList (.integer n) := by
  obtain ⟨d, tail, hd, heq, -⟩ := Numeral.toDigits_eq_cons n
  have hdigit := Numeral.isDecimal_digitChar hd
  rw [Numeral.decimal, String.toList_ofList]
  constructor
  · intro rest
    have hspace : Nat.digitChar d ≠ ' ' := Numeral.ne_of_isDecimal hdigit rfl
    have htab : Nat.digitChar d ≠ '\t' := Numeral.ne_of_isDecimal hdigit rfl
    rw [heq, List.cons_append, skipBlanks_cons (by simp [isBlank, hspace, htab])]
  · intro fuel inside rest
    have hread : readNumber (Nat.toDigits 10 n ++ '\n' :: rest) = some (.integer n, '\n' :: rest) :=
      readNumber_toDigits hn
    rw [heq, List.cons_append] at hread ⊢
    rw [valueWith]
    · exact hread
    all_goals
      intro after h
      exact absurd (List.cons.inj h).1 (Numeral.ne_of_isDecimal hdigit rfl)

theorem exists_quoteChars_eq_cons (cs : List Char) :
    ∃ c tail, quoteChars cs = c :: tail ∧ (c = '\x22' ∨ c = '\x27') := by
  unfold quoteChars
  split
  · exact ⟨'\x22', _, rfl, .inl rfl⟩
  · exact ⟨'\x27', _, rfl, .inr rfl⟩
  · exact ⟨'\x22', _, rfl, .inl rfl⟩
  · exact ⟨'\x27', _, rfl, .inr rfl⟩

theorem shows_quote (s : String) : Shows (quote s).toList (.text s) := by
  obtain ⟨c, tail, heq, hc⟩ := exists_quoteChars_eq_cons s.toList
  rw [quote, String.toList_ofList]
  constructor
  · intro rest
    rw [heq, List.cons_append]
    rcases hc with rfl | rfl <;> rfl
  · intro fuel inside rest
    have hread : readText (quoteChars s.toList ++ '\n' :: rest) = some (s.toList, '\n' :: rest) :=
      readText_quoteChars fun c hc => by cases hc; decide
    have hvalue : valueWith fuel inside (quoteChars s.toList ++ '\n' :: rest) =
        (readText (quoteChars s.toList ++ '\n' :: rest)).map
          fun found => (.text (String.ofList found.1), found.2) := by
      rw [heq, List.cons_append]
      rcases hc with rfl | rfl <;> rfl
    rw [hvalue, hread]
    simp only [Option.map_some, String.ofList_toList]

end Toml

end DeviceTrial
