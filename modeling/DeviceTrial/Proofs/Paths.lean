import DeviceTrial.Paths
import DeviceTrial.Proofs.Text.Numerals
import DeviceTrial.Proofs.Text.Parts

namespace DeviceTrial

/-- Digits of a number, with or without a plus sign before them. -/
def IsNumber (base : Nat) (cs : List Char) (n : Nat) : Prop :=
  Numeral.Spells base cs n ∨ ∃ digits, cs = '+' :: digits ∧ Numeral.Spells base digits n

inductive IsId : List Char → Nat → Prop
  | decimal {cs : List Char} {n : Nat} (number : IsNumber 10 cs n) : IsId cs n
  | marked {mark : Char} {cs : List Char} {n : Nat} (hexadecimal : mark = 'x' ∨ mark = 'X')
      (number : IsNumber 16 cs n) : IsId ('0' :: mark :: cs) n

namespace AttributePath

/-- The text has the ids of a path in their order, with slashes between them. -/
def IsWritten (cs : List Char) (p : AttributePath) : Prop :=
  ∃ node endpoint cluster id,
    cs = node ++ '/' :: (endpoint ++ '/' :: (cluster ++ '/' :: id)) ∧
    IsId node p.node.toNat ∧ IsId endpoint p.endpoint.toNat ∧
    IsId cluster p.cluster.toNat ∧ IsId id p.id.toNat

end AttributePath

theorem IsNumber.notMem {base : Nat} (hbase : base ≤ 16) {cs : List Char} {n : Nat}
    (h : IsNumber base cs n) {other : Char} (hother : Numeral.digit? 16 other = none)
    (hsign : other ≠ '+') : other ∉ cs := by
  rcases h with h | ⟨digits, rfl, h⟩
  · exact h.notMem hbase hother
  · exact List.not_mem_cons_of_ne_of_not_mem hsign (h.notMem hbase hother)

theorem IsId.slash_notMem {cs : List Char} {n : Nat} (h : IsId cs n) : '/' ∉ cs := by
  cases h with
  | decimal number => exact number.notMem (by decide) (by decide) (by decide)
  | marked hexadecimal number =>
    have hdigits : '/' ∉ _ := number.notMem (Nat.le_refl 16) (by decide) (by decide)
    rcases hexadecimal with rfl | rfl <;> simpa using hdigits

namespace AttributePath

variable {base : Nat}

theorem le_foldl_digits (hbase : 0 < base) (ds : List Nat) (acc : Nat) :
    acc ≤ ds.foldl (fun m d => m * base + d) acc := by
  induction ds generalizing acc with
  | nil => exact Nat.le_refl acc
  | cons d ds ih =>
    calc acc ≤ acc * base := Nat.le_mul_of_pos_right acc hbase
      _ ≤ acc * base + d := Nat.le_add_right _ d
      _ ≤ _ := ih _

theorem readDigits_eq_ok (hbase : 0 < base) (hwide : base ≤ 16) {cs : List Char} {ds : List Nat}
    (h : List.Forall₂ (Numeral.IsDigit base) cs ds) (acc : Nat)
    (hfits : ds.foldl (fun m d => m * base + d) acc < UInt64.size) :
    readDigits base acc cs = .ok (ds.foldl (fun m d => m * base + d) acc) := by
  induction h generalizing acc with
  | nil => rfl
  | @cons c d cs ds hd _ ih =>
    have hnext : acc * base + d < UInt64.size :=
      Nat.lt_of_le_of_lt (le_foldl_digits hbase ds _) hfits
    rw [readDigits, (Numeral.digit?_eq_some_iff hwide).mpr hd]
    exact (if_pos hnext).trans (ih _ hfits)

theorem exists_digits_of_readDigits (hwide : base ≤ 16) {acc n : Nat} {cs : List Char}
    (hacc : acc < UInt64.size) (h : readDigits base acc cs = .ok n) :
    n < UInt64.size ∧ ∃ ds, List.Forall₂ (Numeral.IsDigit base) cs ds ∧
      n = ds.foldl (fun m d => m * base + d) acc := by
  -- on the digits, with what has been read so far below the size of the machine word
  induction cs generalizing acc with
  | nil =>
    cases h
    exact ⟨hacc, [], .nil, rfl⟩
  | cons c cs ih =>
    rw [readDigits] at h
    split at h
    · cases h
    · next d hd =>
      split at h
      · next hnext =>
        obtain ⟨hn, ds, hds, hvalue⟩ := ih hnext h
        exact ⟨hn, d :: ds, .cons ((Numeral.digit?_eq_some_iff hwide).mp hd) hds, hvalue⟩
      · cases h

theorem readDigits_zero_eq_ok_iff (hbase : 0 < base) (hwide : base ≤ 16) {cs : List Char}
    (hcs : cs ≠ []) {n : Nat} :
    readDigits base 0 cs = .ok n ↔ n < UInt64.size ∧ Numeral.Spells base cs n := by
  constructor
  · intro h
    obtain ⟨hn, ds, hds, hvalue⟩ := exists_digits_of_readDigits hwide (by decide) h
    exact ⟨hn, hcs, ds, hds, hvalue.trans (Numeral.ofDigits_reverse base ds).symm⟩
  · rintro ⟨hn, -, ds, hds, rfl⟩
    rw [Numeral.ofDigits_reverse] at hn ⊢
    exact readDigits_eq_ok hbase hwide hds 0 hn

theorem readNumber_eq_ok_iff (hbase : 0 < base) (hwide : base ≤ 16) {cs : List Char} {n : Nat} :
    readNumber base cs = .ok n ↔ n < UInt64.size ∧ IsNumber base cs n := by
  have hsign (digits : List Char) : ¬ Numeral.Spells base ('+' :: digits) n := by
    intro h
    exact h.notMem hwide (by decide) List.mem_cons_self
  unfold readNumber
  split
  · simp [IsNumber, Numeral.Spells]
  · simp only [IsNumber, hsign, false_or, List.cons.injEq, true_and, exists_eq_left']
    simp [Numeral.Spells]
  · next digits hdigits =>
    have hne : digits ≠ [] := fun h => hdigits (h ▸ rfl)
    rw [readDigits_zero_eq_ok_iff hbase hwide hne]
    simp [IsNumber, hsign]
  · next hnil _ hplus =>
    rw [readDigits_zero_eq_ok_iff hbase hwide hnil, IsNumber]
    refine and_congr_right fun _ => (or_iff_left ?_).symm
    rintro ⟨digits, rfl, -⟩
    exact hplus digits rfl

/-- A mark is no digit, so no id is one both in decimal and behind a mark. -/
theorem isId_marked_iff {mark : Char} (hexadecimal : mark = 'x' ∨ mark = 'X') {cs : List Char}
    {n : Nat} : IsId ('0' :: mark :: cs) n ↔ IsNumber 16 cs n := by
  refine ⟨fun h => ?_, .marked hexadecimal⟩
  cases h with
  | decimal number =>
    have hmark : mark ∉ '0' :: mark :: cs := by
      rcases hexadecimal with rfl | rfl
      · exact number.notMem (by decide) (by decide) (by decide)
      · exact number.notMem (by decide) (by decide) (by decide)
    exact (hmark (List.mem_cons_of_mem _ List.mem_cons_self)).elim
  | marked _ number => exact number

theorem readId_eq_ok_iff {cs : List Char} {n : Nat} :
    readId cs = .ok n ↔ n < UInt64.size ∧ IsId cs n := by
  unfold readId
  split
  · rw [readNumber_eq_ok_iff (by decide) (by decide), isId_marked_iff (.inl rfl)]
  · rw [readNumber_eq_ok_iff (by decide) (by decide), isId_marked_iff (.inr rfl)]
  · next hlower hupper =>
    rw [readNumber_eq_ok_iff (by decide) (by decide)]
    refine and_congr_right fun _ => ⟨.decimal, fun h => ?_⟩
    cases h with
    | decimal number => exact number
    | marked hexadecimal number =>
      rcases hexadecimal with rfl | rfl
      · exact (hlower _ rfl).elim
      · exact (hupper _ rfl).elim

theorem boundedId_eq_ok_iff {bound : Nat} (hbound : bound ≤ UInt64.size) {cs : List Char}
    {n : Nat} : boundedId bound cs = .ok n ↔ n < bound ∧ IsId cs n := by
  have hread : n < bound ∧ IsId cs n ↔ readId cs = .ok n ∧ n < bound := by
    rw [readId_eq_ok_iff]
    exact ⟨fun h => ⟨⟨Nat.lt_of_lt_of_le h.1 hbound, h.2⟩, h.1⟩, fun h => ⟨h.2, h.1.2⟩⟩
  rw [hread]
  unfold boundedId
  cases readId cs with
  | error fault => simp
  | ok m =>
    dsimp only
    split
    · next hm =>
      simp only [Except.ok.injEq]
      exact ⟨fun h => ⟨h, h ▸ hm⟩, And.left⟩
    · next hm =>
      simp only [reduceCtorEq, Except.ok.injEq, false_iff]
      rintro ⟨rfl, hn⟩
      exact hm hn

theorem isWritten_iff_parts {cs : List Char} {p : AttributePath} :
    IsWritten cs p ↔ ∃ node endpoint cluster id,
      Text.parts '/' cs = [node, endpoint, cluster, id] ∧ IsId node p.node.toNat ∧
      IsId endpoint p.endpoint.toNat ∧ IsId cluster p.cluster.toNat ∧ IsId id p.id.toNat := by
  refine exists_congr fun node => exists_congr fun endpoint => exists_congr fun cluster =>
    exists_congr fun id => and_congr_left fun ⟨hnode, hendpoint, hcluster, hid⟩ => ⟨?_, fun h => ?_⟩
  · rintro rfl
    rw [Text.parts_append_cons hnode.slash_notMem, Text.parts_append_cons hendpoint.slash_notMem,
      Text.parts_append_cons hcluster.slash_notMem, Text.parts_of_notMem hid.slash_notMem]
  · rw [← Text.intercalate_parts '/' cs, h]
    simp [List.intercalate]

theorem parse_eq_ok_iff {text : String} {p : AttributePath} :
    parse text = .ok p ↔ IsWritten text.toList p := by
  rw [isWritten_iff_parts]
  unfold parse
  split
  · next node endpoint cluster id hparts =>
    simp only [bind_eq_ok_iff, boundedId_eq_ok_iff (Nat.le_refl UInt64.size),
      boundedId_eq_ok_iff (show UInt16.size ≤ UInt64.size by decide),
      boundedId_eq_ok_iff (show UInt32.size ≤ UInt64.size by decide)]
    constructor
    · rintro ⟨n, ⟨hn, hnode⟩, e, ⟨he, hendpoint⟩, c, ⟨hc, hcluster⟩, i, ⟨hi, hid⟩, h⟩
      cases h
      refine ⟨node, endpoint, cluster, id, hparts, ?_, ?_, ?_, ?_⟩
      · rwa [UInt64.toNat_ofNat_of_lt' hn]
      · rwa [UInt16.toNat_ofNat_of_lt' he]
      · rwa [UInt32.toNat_ofNat_of_lt' hc]
      · rwa [UInt32.toNat_ofNat_of_lt' hi]
    · rintro ⟨_, _, _, _, hsame, hnode, hendpoint, hcluster, hid⟩
      cases hparts.symm.trans hsame
      refine ⟨_, ⟨p.node.toNat_lt, hnode⟩, _, ⟨p.endpoint.toNat_lt, hendpoint⟩, _,
        ⟨p.cluster.toNat_lt, hcluster⟩, _, ⟨p.id.toNat_lt, hid⟩, ?_⟩
      simp only [UInt64.ofNat_toNat, UInt16.ofNat_toNat, UInt32.ofNat_toNat]
      rfl
  · next hparts =>
    constructor
    · intro h
      cases h
    · rintro ⟨node, endpoint, cluster, id, h, -⟩
      exact (hparts _ _ _ _ h).elim

theorem isId_decimal (n : Nat) : IsId (Numeral.decimal n).toList n :=
  .decimal (.inl (Numeral.spells_decimal n))

theorem isId_marked (width n : Nat) : IsId (Numeral.marked width n).toList n := by
  obtain ⟨digits, hdigits, hn⟩ := Numeral.exists_marked width n
  exact hdigits ▸ .marked (.inl rfl) (.inl hn)

theorem isWritten_describe (p : AttributePath) : IsWritten p.describe.toList p := by
  refine ⟨_, _, _, _, ?_, isId_decimal _, isId_decimal _, isId_marked 4 _, isId_marked 4 _⟩
  simp [describe]

/-- A text is read as a path exactly if it is one of the texts that the path may be written as, and
the one in which it is shown is among them. -/
theorem parse_eq_ok_iff_written (text : String) (p : AttributePath) :
    (parse text = .ok p ↔ IsWritten text.toList p) ∧ parse p.describe = .ok p :=
  ⟨parse_eq_ok_iff, parse_eq_ok_iff.mpr p.isWritten_describe⟩

example : parse "+7/2/0X300/0x+00fFfD" = .ok ⟨7, 2, 0x300, 0xFFFD⟩ := by cbv

example : parse "1/65536/6/0" = .error (.outOfRange "65536") := by cbv

end AttributePath

end DeviceTrial
