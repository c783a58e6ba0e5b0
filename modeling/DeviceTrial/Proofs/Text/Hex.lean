import DeviceTrial.Hex
import DeviceTrial.Proofs.Fallible
import DeviceTrial.Proofs.Text.Utf8
import Mathlib.Data.List.Basic

namespace DeviceTrial.Hex

/-- What holds of the characters of one byte can be tried out. -/
theorem forall_ascii {P : Char → Prop} (h : ∀ n < 128, P (Char.ofNat n)) {c : Char}
    (hc : c.toNat < 128) : P c := by
  have hn := h c.toNat hc
  rwa [Char.ofNat_toNat] at hn

theorem toNat_lt_of_toLower {c : Char} (h : c.toLower.toNat < 128) : c.toNat < 128 := by
  unfold Char.toLower at h
  split at h
  · next hupper => exact Nat.lt_of_le_of_lt (UInt32.le_iff_toNat_le.mp hupper.2) (by decide)
  · exact h

theorem toNat_lt_of_isHexDigit {c : Char} (h : c.isHexDigit = true) : c.toNat < 128 := by
  simp only [Char.isHexDigit, Char.isDigit, Bool.or_eq_true, Bool.and_eq_true, decide_eq_true_eq,
    UInt32.le_iff_toNat_le, ge_iff_le] at h
  rcases h with (h | h) | h <;> exact Nat.lt_of_le_of_lt h.2 (by decide)

theorem toNat_lt_of_digit? {c : Char} {d : Nat} (h : Numeral.digit? 16 c = some d) :
    c.toNat < 128 := by
  have hvalue := (Option.filter_eq_some_iff.mp h).1
  simp only [Numeral.digitValue?, Char.le_def, UInt32.le_iff_toNat_le] at hvalue
  change c.val.toNat < 128
  split_ifs at hvalue with hrange hrange hrange <;>
    exact Nat.lt_of_le_of_lt hrange.2 (by decide)

theorem isHexDigit_iff {c : Char} : c.isHexDigit = true ↔ ∃ d, Numeral.digit? 16 c = some d := by
  rw [← Option.isSome_iff_exists]
  constructor
  · intro h
    exact forall_ascii (P := fun c => c.isHexDigit = true → (Numeral.digit? 16 c).isSome = true)
      (by decide) (toNat_lt_of_isHexDigit h) h
  · intro h
    obtain ⟨d, hd⟩ := Option.isSome_iff_exists.mp h
    exact forall_ascii (P := fun c => (Numeral.digit? 16 c).isSome = true → c.isHexDigit = true)
      (by decide) (toNat_lt_of_digit? hd) h

theorem digit?_eq_some_iff {c : Char} {d : Nat} :
    Numeral.digit? 16 c = some d ↔ d < 16 ∧ c.toLower = Nat.digitChar d := by
  constructor
  · intro h
    exact forall_ascii
      (P := fun c => ∀ d ∈ Numeral.digit? 16 c, d < 16 ∧ c.toLower = Nat.digitChar d)
      (by decide) (toNat_lt_of_digit? h) d h
  · rintro ⟨hd, h⟩
    have hascii : ∀ d < 16, (Nat.digitChar d).toNat < 128 := by decide
    have hdigit : ∀ d < 16, Numeral.digit? 16 (Nat.digitChar d) = some d := by decide
    have hlower : Numeral.digit? 16 c.toLower = Numeral.digit? 16 c :=
      forall_ascii (P := fun c => Numeral.digit? 16 c.toLower = Numeral.digit? 16 c) (by decide)
        (toNat_lt_of_toLower (h ▸ hascii d hd))
    rw [← hlower, h, hdigit d hd]

theorem utf8EncodeChar_of_digit? {c : Char} {d : Nat} (h : Numeral.digit? 16 c = some d) :
    String.utf8EncodeChar c = [UInt8.ofNat c.toNat] :=
  forall_ascii (P := fun c => String.utf8EncodeChar c = [UInt8.ofNat c.toNat]) (by decide)
    (toNat_lt_of_digit? h)

theorem nibble_eq_ok_iff {b : UInt8} {index d : Nat} : nibble b index = .ok d ↔
    ∃ c, String.utf8EncodeChar c = [b] ∧ Numeral.digit? 16 c = some d := by
  have hread : nibble b index = .ok d ↔ Numeral.digit? 16 (Char.ofNat b.toNat) = some d := by
    unfold nibble
    cases Numeral.digit? 16 (Char.ofNat b.toNat) <;> simp
  have hchar : (Char.ofNat b.toNat).toNat = b.toNat := by
    have hvalid : b.toNat.isValidChar := .inl (Nat.lt_trans b.toNat_lt (by decide))
    rw [Char.ofNat, dif_pos hvalid]
    rfl
  rw [hread]
  constructor
  · intro h
    refine ⟨_, ?_, h⟩
    rw [utf8EncodeChar_of_digit? h, hchar, UInt8.ofNat_toNat]
  · rintro ⟨c, hc, hd⟩
    have hlt : c.toNat < UInt8.size := Nat.lt_trans (toNat_lt_of_digit? hd) (by decide)
    rw [utf8EncodeChar_of_digit? hd] at hc
    obtain rfl := List.singleton_inj.mp hc
    rw [UInt8.toNat_ofNat_of_lt' hlt, Char.ofNat_toNat]
    exact hd

/-- The characters are the digits of the bytes, in either case. -/
def Spells (cs : List Char) (bytes : List UInt8) : Prop := cs.map Char.toLower = bytes.flatMap pair

theorem spells_cons_iff {high low : Char} {cs : List Char} {b : UInt8} {bytes : List UInt8} :
    Spells (high :: low :: cs) (b :: bytes) ↔ Numeral.digit? 16 high = some (b.toNat / 16) ∧
      Numeral.digit? 16 low = some (b.toNat % 16) ∧ Spells cs bytes := by
  have hhigh : b.toNat / 16 < 16 := Nat.div_lt_of_lt_mul b.toNat_lt
  have hlow : b.toNat % 16 < 16 := Nat.mod_lt _ (by decide)
  simp only [Spells, List.map_cons, List.flatMap_cons, pair, List.cons_append, List.nil_append,
    List.cons.injEq, digit?_eq_some_iff, hhigh, hlow, true_and]

theorem Spells.exists_cons {cs : List Char} {b : UInt8} {bytes : List UInt8}
    (h : Spells cs (b :: bytes)) : ∃ high low rest, cs = high :: low :: rest := by
  rw [Spells, List.flatMap_cons, pair] at h
  match cs, h with
  | high :: low :: rest, _ => exact ⟨high, low, rest, rfl⟩
  | [], h => exact (List.cons_ne_nil _ _ h.symm).elim
  | [_], h => exact (List.cons_ne_nil _ _ (List.cons.inj h).2.symm).elim

theorem Spells.length_eq {cs : List Char} {bytes : List UInt8} (h : Spells cs bytes) :
    cs.length = 2 * bytes.length := by
  induction bytes generalizing cs with
  | nil => rw [List.map_eq_nil_iff.mp h]; rfl
  | cons b bytes ih =>
    obtain ⟨high, low, rest, rfl⟩ := h.exists_cons
    have hrest := ih (spells_cons_iff.mp h).2.2
    simp only [List.length_cons] at hrest ⊢
    omega

theorem Spells.digit?_of_mem {cs : List Char} {bytes : List UInt8} (h : Spells cs bytes) {c : Char}
    (hc : c ∈ cs) : ∃ d, Numeral.digit? 16 c = some d := by
  have hlower : c.toLower ∈ bytes.flatMap pair := h ▸ List.mem_map_of_mem hc
  obtain ⟨b, -, hb⟩ := List.mem_flatMap.mp hlower
  simp only [pair, List.mem_cons, List.not_mem_nil, or_false] at hb
  rcases hb with hb | hb
  · exact ⟨_, digit?_eq_some_iff.mpr ⟨Nat.div_lt_of_lt_mul b.toNat_lt, hb⟩⟩
  · exact ⟨_, digit?_eq_some_iff.mpr ⟨Nat.mod_lt _ (by decide), hb⟩⟩

theorem digits_ofNat {h l : Nat} (hh : h < 16) (hl : l < 16) :
    (UInt8.ofNat (h * 16 + l)).toNat / 16 = h ∧ (UInt8.ofNat (h * 16 + l)).toNat % 16 = l := by
  have hlt : h * 16 + l < UInt8.size := by
    have : UInt8.size = 256 := rfl
    omega
  rw [UInt8.toNat_ofNat_of_lt' hlt]
  omega

theorem exists_spells_of_decodePairs {bytes acc out : List UInt8} {index : Nat}
    (heven : bytes.length % 2 = 0) (h : decodePairs index acc bytes = .ok out) :
    ∃ cs rest, cs.flatMap String.utf8EncodeChar = bytes ∧ Spells cs rest ∧
      out = acc.reverse ++ rest := by
  fun_induction decodePairs index acc bytes with
  | case1 index acc high low bytes ih =>
    obtain ⟨d, hhigh, hrest⟩ := bind_eq_ok_iff.mp h
    obtain ⟨d', hlow, hrest⟩ := bind_eq_ok_iff.mp hrest
    obtain ⟨cs, rest, hbytes, hspells, rfl⟩ := ih d d' (by simpa [Nat.add_assoc] using heven) hrest
    obtain ⟨c, hc, hd⟩ := nibble_eq_ok_iff.mp hhigh
    obtain ⟨c', hc', hd'⟩ := nibble_eq_ok_iff.mp hlow
    obtain ⟨hdiv, hmod⟩ := digits_ofNat (digit?_eq_some_iff.mp hd).1 (digit?_eq_some_iff.mp hd').1
    refine ⟨c :: c' :: cs, UInt8.ofNat (d * 16 + d') :: rest, ?_, ?_, ?_⟩
    · rw [List.flatMap_cons, List.flatMap_cons, hc, hc', hbytes]
      rfl
    · rw [spells_cons_iff, hdiv, hmod]
      exact ⟨hd, hd', hspells⟩
    · rw [List.reverse_cons, List.append_assoc]
      rfl
  | case2 bytes index acc hshort =>
    cases h
    match bytes, hshort with
    | [], _ => exact ⟨[], [], rfl, rfl, (List.append_nil _).symm⟩
    | [_], _ => exact absurd heven (by simp)
    | high :: low :: rest, hshort => exact (hshort high low rest rfl).elim

theorem decodePairs_of_spells {cs : List Char} {bytes : List UInt8} (h : Spells cs bytes)
    (index : Nat) (acc : List UInt8) :
    decodePairs index acc (cs.flatMap String.utf8EncodeChar) = .ok (acc.reverse ++ bytes) := by
  induction bytes generalizing cs index acc with
  | nil =>
    rw [List.map_eq_nil_iff.mp h, List.append_nil]
    rfl
  | cons b bytes ih =>
    obtain ⟨high, low, rest, rfl⟩ := h.exists_cons
    obtain ⟨hhigh, hlow, hrest⟩ := spells_cons_iff.mp h
    have hbyte : UInt8.ofNat (b.toNat / 16 * 16 + b.toNat % 16) = b := by
      rw [Nat.div_add_mod', UInt8.ofNat_toNat]
    have hencode := utf8EncodeChar_of_digit? hhigh
    have hencode' := utf8EncodeChar_of_digit? hlow
    rw [List.flatMap_cons, List.flatMap_cons, hencode, hencode']
    refine bind_eq_ok_iff.mpr ⟨_, nibble_eq_ok_iff.mpr ⟨high, hencode, hhigh⟩,
      bind_eq_ok_iff.mpr ⟨_, nibble_eq_ok_iff.mpr ⟨low, hencode', hlow⟩, ?_⟩⟩
    refine (ih hrest (index + 2) _).trans ?_
    rw [hbyte, List.reverse_cons, List.append_assoc, List.singleton_append]

theorem Spells.flatMap_eq {cs : List Char} {bytes : List UInt8} (h : Spells cs bytes) :
    cs.flatMap String.utf8EncodeChar = cs.map fun c => UInt8.ofNat c.toNat := by
  rw [List.map_eq_flatMap]
  refine List.flatMap_congr fun c hc => ?_
  obtain ⟨d, hd⟩ := h.digit?_of_mem hc
  exact utf8EncodeChar_of_digit? hd

/-- A text is read as the bytes that it spells. -/
theorem decode_eq_ok_iff {v : String} {bytes : List UInt8} :
    decode v = .ok bytes ↔ Spells v.toList bytes := by
  unfold decode
  constructor
  · intro h
    dsimp only at h
    split at h
    · cases h
    · next hodd =>
      obtain ⟨cs, rest, hbytes, hspells, rfl⟩ := exists_spells_of_decodePairs (by omega) h
      rw [← toUTF8_ofList] at hbytes
      have hv : String.ofList cs = v := Option.some.inj <|
        ((fromUTF8?_eq_some_iff _ _).mpr hbytes).symm.trans ((fromUTF8?_eq_some_iff _ _).mpr rfl)
      rw [← hv, String.toList_ofList]
      exact hspells
  · intro h
    have hutf8 : v.toUTF8.toList = v.toList.flatMap String.utf8EncodeChar := by
      rw [← toUTF8_ofList, String.ofList_toList]
    have hlength : (v.toList.flatMap String.utf8EncodeChar).length = 2 * bytes.length := by
      rw [h.flatMap_eq, List.length_map, h.length_eq]
    rw [hutf8]
    exact (if_neg (by omega)).trans (decodePairs_of_spells h 0 [])

theorem spells_encode (bytes : List UInt8) : Spells (encode bytes).toList bytes := by
  have hlower : ∀ d < 16, (Nat.digitChar d).toLower = Nat.digitChar d := by decide
  rw [encode, String.toList_ofList, Spells, List.map_flatMap]
  refine List.flatMap_congr fun b _ => ?_
  rw [pair, List.map_cons, List.map_singleton, hlower _ (Nat.div_lt_of_lt_mul b.toNat_lt),
    hlower _ (Nat.mod_lt _ (by decide))]

theorem decode_encode_eq_ok (bytes : List UInt8) : decode (encode bytes) = .ok bytes :=
  decode_eq_ok_iff.mpr (spells_encode bytes)

theorem exists_spells {cs : List Char} (heven : cs.length % 2 = 0)
    (hdigits : ∀ c ∈ cs, c.isHexDigit = true) : ∃ bytes, Spells cs bytes := by
  match cs with
  | [] => exact ⟨[], rfl⟩
  | [_] => exact absurd heven (by simp)
  | high :: low :: rest =>
    obtain ⟨hhigh, hlow, hrest⟩ := by simpa only [List.forall_mem_cons] using hdigits
    obtain ⟨h, hhigh⟩ := isHexDigit_iff.mp hhigh
    obtain ⟨l, hlow⟩ := isHexDigit_iff.mp hlow
    obtain ⟨bytes, hspells⟩ := exists_spells (by simpa [Nat.add_assoc] using heven) hrest
    obtain ⟨hdiv, hmod⟩ :=
      digits_ofNat (digit?_eq_some_iff.mp hhigh).1 (digit?_eq_some_iff.mp hlow).1
    refine ⟨UInt8.ofNat (h * 16 + l) :: bytes, spells_cons_iff.mpr ?_⟩
    rw [hdiv, hmod]
    exact ⟨hhigh, hlow, hspells⟩

theorem exists_spells_iff {cs : List Char} :
    (∃ bytes, Spells cs bytes) ↔ cs.length % 2 = 0 ∧ ∀ c ∈ cs, c.isHexDigit = true := by
  constructor
  · rintro ⟨bytes, h⟩
    have hlength := h.length_eq
    exact ⟨by omega, fun c hc => isHexDigit_iff.mpr (h.digit?_of_mem hc)⟩
  · rintro ⟨heven, hdigits⟩
    exact exists_spells heven hdigits

end DeviceTrial.Hex
