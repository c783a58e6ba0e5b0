import DeviceTrial.Proofs.Text.Hex
import Mathlib.Data.List.Forall2
import Mathlib.Data.Nat.Digits.Defs

namespace DeviceTrial.Numeral

variable {base : Nat}

/-- The character is the digit of a base with this value, in either case. -/
def IsDigit (base : Nat) (c : Char) (d : Nat) : Prop := d < base ∧ c.toLower = Nat.digitChar d

theorem digit?_eq_some_iff (hbase : base ≤ 16) {c : Char} {d : Nat} :
    digit? base c = some d ↔ IsDigit base c d := by
  have hwide := Hex.digit?_eq_some_iff (c := c) (d := d)
  simp only [digit?, Option.filter_eq_some_iff, decide_eq_true_eq] at hwide ⊢
  rw [IsDigit]
  constructor
  · rintro ⟨hvalue, hd⟩
    exact ⟨hd, (hwide.mp ⟨hvalue, by omega⟩).2⟩
  · rintro ⟨hd, hlower⟩
    exact ⟨(hwide.mpr ⟨by omega, hlower⟩).1, hd⟩

theorem isDigit_digitChar (hbase : base ≤ 16) {d : Nat} (hd : d < base) :
    IsDigit base (Nat.digitChar d) d := by
  have hlower : ∀ d < 16, (Nat.digitChar d).toLower = Nat.digitChar d := by decide
  exact ⟨hd, hlower d (Nat.lt_of_lt_of_le hd hbase)⟩

theorem IsDigit.unique (hbase : base ≤ 16) {c : Char} {d e : Nat} (hd : IsDigit base c d)
    (he : IsDigit base c e) : d = e := by
  rw [← digit?_eq_some_iff hbase] at hd he
  exact Option.some.inj (hd.symm.trans he)

theorem IsDigit.ne (hbase : base ≤ 16) {c other : Char} {d : Nat} (h : IsDigit base c d)
    (hother : digit? 16 other = none) : c ≠ other := by
  rintro rfl
  have hwide : IsDigit 16 c d := ⟨Nat.lt_of_lt_of_le h.1 hbase, h.2⟩
  cases hother.symm.trans ((digit?_eq_some_iff (Nat.le_refl 16)).mpr hwide)

theorem digit?_digitChar : ∀ d < 10, digit? 10 (Nat.digitChar d) = some d := by decide

theorem isDecimal_digitChar {d : Nat} (h : d < 10) :
    isDecimal (Nat.digitChar d) = true := by
  rw [isDecimal, digit?_digitChar d h]
  rfl

theorem ne_of_isDecimal {c other : Char} (hc : isDecimal c = true) (h : isDecimal other = false) :
    c ≠ other := by
  rintro rfl
  cases hc.symm.trans h

theorem digitChar_eq_zero : ∀ d < 10, Nat.digitChar d = '0' → d = 0 := by decide

/-- The digits of a number start with a zero for zero alone. -/
theorem toDigits_eq_cons (n : Nat) :
    ∃ d tail, d < 10 ∧ Nat.toDigits 10 n = Nat.digitChar d :: tail ∧ (d = 0 → n = 0) := by
  induction n using Nat.strongRecOn with
  | _ n ih =>
    by_cases h : n < 10
    · exact ⟨n, [], h, Nat.toDigits_of_lt_base h, id⟩
    · obtain ⟨d, tail, hd, heq, hzero⟩ := ih (n / 10) (by omega)
      refine ⟨d, tail ++ [Nat.digitChar (n % 10)], hd, ?_, fun h0 => ?_⟩
      · rw [Nat.toDigits_of_base_le (by decide) (by omega), heq, List.cons_append]
      · have := hzero h0
        omega

/-- The characters are digits of a base, at least one, and the number is their value. -/
def Spells (base : Nat) (cs : List Char) (n : Nat) : Prop :=
  cs ≠ [] ∧ ∃ ds, List.Forall₂ (IsDigit base) cs ds ∧ n = Nat.ofDigits base ds.reverse

theorem Spells.isDigit_of_mem {cs : List Char} {n : Nat} (h : Spells base cs n) {c : Char}
    (hc : c ∈ cs) : ∃ d, IsDigit base c d := by
  obtain ⟨-, ds, hdigits, -⟩ := h
  induction hdigits with
  | nil => cases hc
  | cons hd _ ih =>
    rcases List.mem_cons.mp hc with rfl | hc
    · exact ⟨_, hd⟩
    · exact ih hc

theorem Spells.notMem (hbase : base ≤ 16) {cs : List Char} {n : Nat} (h : Spells base cs n)
    {other : Char} (hother : digit? 16 other = none) : other ∉ cs := by
  intro hmem
  obtain ⟨d, hd⟩ := h.isDigit_of_mem hmem
  exact hd.ne hbase hother rfl

theorem Spells.unique (hbase : base ≤ 16) {cs : List Char} {n m : Nat} (hn : Spells base cs n)
    (hm : Spells base cs m) : n = m := by
  obtain ⟨-, ds, hds, rfl⟩ := hn
  obtain ⟨-, es, hes, rfl⟩ := hm
  have hsame : ds = es := by
    induction hds generalizing es with
    | nil => cases hes; rfl
    | cons hd _ ih =>
      cases hes with
      | cons he hes => rw [hd.unique hbase he, ih _ hes]
  rw [hsame]

theorem ofDigits_reverse (base : Nat) (ds : List Nat) :
    Nat.ofDigits base ds.reverse = ds.foldl (fun m d => m * base + d) 0 := by
  rw [Nat.ofDigits_eq_foldr, List.foldr_reverse]
  congr 1
  funext m d
  rw [Nat.cast_id, Nat.mul_comm, Nat.add_comm]

theorem readFrom_eq_some (hbase : base ≤ 16) {cs : List Char} {ds : List Nat}
    (h : List.Forall₂ (IsDigit base) cs ds) (acc : Nat) :
    readFrom base acc cs = some (ds.foldl (fun m d => m * base + d) acc) := by
  induction h generalizing acc with
  | nil => rfl
  | cons hd _ ih =>
    rw [readFrom, (digit?_eq_some_iff hbase).mpr hd]
    exact ih _

theorem Spells.readFrom_zero (hbase : base ≤ 16) {cs : List Char} {n : Nat}
    (h : Spells base cs n) : readFrom base 0 cs = some n := by
  obtain ⟨-, ds, hds, rfl⟩ := h
  rw [readFrom_eq_some hbase hds, ofDigits_reverse]

theorem Spells.isDecimal_of_mem {cs : List Char} {n : Nat} (h : Spells 10 cs n) {c : Char}
    (hc : c ∈ cs) : isDecimal c = true := by
  obtain ⟨d, hd⟩ := h.isDigit_of_mem hc
  rw [isDecimal, (digit?_eq_some_iff (by decide)).mpr hd]
  rfl

theorem Spells.zeros (hbase : 0 < base) {cs : List Char} {n : Nat} (h : Spells base cs n)
    (count : Nat) : Spells base (List.replicate count '0' ++ cs) n := by
  induction count with
  | zero => exact h
  | succ count ih =>
    obtain ⟨-, ds, hds, hvalue⟩ := ih
    refine ⟨List.cons_ne_nil _ _, 0 :: ds, .cons ⟨hbase, rfl⟩ hds, ?_⟩
    rw [List.reverse_cons, Nat.ofDigits_append, Nat.ofDigits_singleton, Nat.mul_zero, Nat.add_zero,
      hvalue]

theorem spells_toDigits (hbase : 1 < base) (hwide : base ≤ 16) (n : Nat) :
    Spells base (Nat.toDigits base n) n := by
  induction n using Nat.strongRecOn with
  | _ n ih =>
    by_cases h : n < base
    · rw [Nat.toDigits_of_lt_base h]
      exact ⟨List.cons_ne_nil _ _, [n], .cons (isDigit_digitChar hwide h) .nil,
        (Nat.ofDigits_singleton ..).symm⟩
    · obtain ⟨-, ds, hds, hvalue⟩ := ih (n / base) (Nat.div_lt_self (by omega) hbase)
      have hlast : n % base < base := Nat.mod_lt n (by omega)
      rw [Nat.toDigits_of_base_le hbase (Nat.le_of_not_lt h)]
      refine ⟨by simp, ds ++ [n % base], ?_, ?_⟩
      · exact List.rel_append hds (.cons (isDigit_digitChar hwide hlast) .nil)
      · rw [List.reverse_append, List.reverse_singleton, List.singleton_append,
          Nat.ofDigits_cons, ← hvalue]
        exact (Nat.mod_add_div n base).symm

theorem spells_hexDigits (width n : Nat) : Spells 16 (hexDigits width n) n :=
  (spells_toDigits (by decide) (by decide) n).zeros (by decide) _

theorem spells_decimal (n : Nat) : Spells 10 (decimal n).toList n := by
  rw [decimal, String.toList_ofList]
  exact spells_toDigits (by decide) (by decide) n

theorem exists_marked (width n : Nat) :
    ∃ digits, (marked width n).toList = '0' :: 'x' :: digits ∧ Spells 16 digits n := by
  refine ⟨hexDigits width n, ?_, spells_hexDigits width n⟩
  simp [marked, hex]

theorem decimal_inj {n m : Nat} (h : decimal n = decimal m) : n = m :=
  (spells_decimal n).unique (by decide) (h ▸ spells_decimal m)

theorem marked_inj {width n m : Nat} (h : marked width n = marked width m) : n = m := by
  obtain ⟨cs, hcs, hn⟩ := exists_marked width n
  obtain ⟨ds, hds, hm⟩ := exists_marked width m
  rw [h, hds] at hcs
  cases hcs
  exact hn.unique (by decide) hm

theorem blank_notMem_decimal (n : Nat) : ' ' ∉ (decimal n).toList :=
  (spells_decimal n).notMem (by decide) (by decide)

theorem blank_notMem_marked (width n : Nat) : ' ' ∉ (marked width n).toList := by
  obtain ⟨digits, hdigits, hn⟩ := exists_marked width n
  have hblank : ' ' ∉ digits := hn.notMem (by decide) (by decide)
  rw [hdigits]
  simpa using hblank

end DeviceTrial.Numeral
