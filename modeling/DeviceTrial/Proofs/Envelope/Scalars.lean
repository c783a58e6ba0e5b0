import DeviceTrial.Proofs.Envelope.Reads
import DeviceTrial.Proofs.Text.Utf8

namespace DeviceTrial

namespace Cursor

variable {α : Type} {bound : Nat}

theorem toNat_uint16_of_isWord {n : Nat} {bytes : List UInt8} (h : IsWord 2 n bytes) :
    (UInt16.ofNat n).toNat = n :=
  UInt16.toNat_ofNat_of_lt h.lt

theorem toNat_uint32_of_isWord {long : Bool} {n : Nat} {bytes : List UInt8}
    (h : IsWord (TagForm.numberWidth long) n bytes) : (UInt32.ofNat n).toNat = n := by
  apply UInt32.toNat_ofNat_of_lt
  cases long with
  | false => exact Nat.lt_trans h.lt (by decide)
  | true => exact h.lt

theorem reads_tag (form : TagForm) : Reads bound (fun c => c.tag form) (Tag.Image form) := by
  cases form with
  | anonymous =>
    refine (reads_pure Tag.anonymous).congr fun t bytes => ?_
    constructor
    · rintro ⟨rfl, rfl⟩
      exact .anonymous
    · rintro ⟨⟩
      exact ⟨rfl, rfl⟩
  | context =>
    refine ((reads_word 1).map fun n => Tag.context (UInt8.ofNat n)).congr fun t bytes => ?_
    constructor
    · rintro ⟨n, ⟨hlen, hn⟩, rfl⟩
      obtain ⟨b, rfl⟩ := List.length_eq_one_iff.mp hlen
      have hb : UInt8.ofNat n = b := by
        rw [← hn]
        simp [ofLittleEndian]
      rw [hb]
      exact .context b
    · intro h
      cases h with
      | context b => exact ⟨b.toNat, ⟨rfl, by simp [ofLittleEndian]⟩, by simp⟩
  | common long =>
    refine ((reads_word _).map fun n => Tag.common (UInt32.ofNat n)).congr fun t bytes => ?_
    constructor
    · rintro ⟨n, hn, rfl⟩
      exact .common (by rwa [toNat_uint32_of_isWord hn])
    · intro h
      cases h with
      | common hn => exact ⟨_, hn, by simp⟩
  | implicit long =>
    refine ((reads_word _).map fun n => Tag.implicit (UInt32.ofNat n)).congr fun t bytes => ?_
    constructor
    · rintro ⟨n, hn, rfl⟩
      exact .implicit (by rwa [toNat_uint32_of_isWord hn])
    · intro h
      cases h with
      | implicit hn => exact ⟨_, hn, by simp⟩
  | qualified long =>
    refine ((reads_word 2).bind fun _ vendor => (reads_word 2).bind fun _ profile =>
      (reads_word _).map fun n =>
        Tag.qualified (UInt16.ofNat vendor) (UInt16.ofNat profile) (UInt32.ofNat n)).congr
      fun t bytes => ?_
    constructor
    · rintro ⟨vendor, us, _, hv, ⟨profile, vs, ws, hp, ⟨n, hn, rfl⟩, rfl⟩, rfl⟩
      refine .qualified ?_ ?_ ?_
      · rwa [toNat_uint16_of_isWord hv]
      · rwa [toNat_uint16_of_isWord hp]
      · rwa [toNat_uint32_of_isWord hn]
    · intro h
      cases h with
      | qualified hv hp hn => exact ⟨_, _, _, hv, ⟨_, _, _, hp, ⟨_, hn, by simp⟩, rfl⟩, rfl⟩

theorem reads_bits {count bits : Nat} (same : Nat.pow 256 count = Nat.pow 2 bits)
    (make : BitVec bits → α) :
    Reads bound (fun c => c.word count >>= fun x => .ok (make (BitVec.ofNat bits x.1), x.2))
      fun a bytes => ∃ v, IsWord count v.toNat bytes ∧ a = make v := by
  refine ((reads_word count).map fun n => make (BitVec.ofNat bits n)).congr fun a bytes => ?_
  constructor
  · rintro ⟨n, hn, rfl⟩
    have hlt : n < Nat.pow 2 bits := same ▸ hn.lt
    have hvalue : (BitVec.ofNat bits n).toNat = n := by
      rw [BitVec.toNat_ofNat]
      exact Nat.mod_eq_of_lt hlt
    exact ⟨BitVec.ofNat bits n, by rwa [hvalue], rfl⟩
  · rintro ⟨v, hv, rfl⟩
    exact ⟨v.toNat, hv, by simp⟩

theorem reads_checked (fault : EnvelopeFault) {p : Prop} [Decidable p] (make : p → α) :
    Reads bound (fun c => if h : p then .ok (make h, c) else .error fault) fun a bytes =>
      (∃ h, a = make h) ∧ bytes = [] := by
  by_cases h : p
  · simp only [dif_pos h]
    refine (reads_pure (make h)).congr fun a bytes => ?_
    constructor
    · rintro ⟨ha, hb⟩
      exact ⟨⟨h, ha⟩, hb⟩
    · rintro ⟨⟨_, ha⟩, hb⟩
      exact ⟨ha, hb⟩
  · simp only [dif_neg h]
    refine (reads_error fun _ => fault).congr fun a bytes => ?_
    constructor
    · exact False.elim
    · rintro ⟨⟨h', _⟩, _⟩
      exact h h'

theorem reads_text (size : WordSize) (content : List UInt8) (invalid fault : EnvelopeFault) :
    Reads bound
      (fun c => match String.fromUTF8? (ByteArray.mk content.toArray) with
        | none => .error invalid
        | some v =>
          if h : size.holds v.utf8ByteSize = true then .ok (Scalar.text size v h, c)
          else .error fault)
      fun s bytes =>
        (∃ v, v.toUTF8.toList = content ∧ ∃ h, s = .text size v h) ∧ bytes = [] := by
  cases hv : String.fromUTF8? (ByteArray.mk content.toArray) with
  | none =>
    refine (reads_error fun _ => invalid).congr fun s bytes => ?_
    constructor
    · exact False.elim
    · rintro ⟨⟨v, h, -⟩, -⟩
      rw [(fromUTF8?_eq_some_iff content v).mpr h] at hv
      cases hv
  | some v =>
    refine (reads_checked fault (Scalar.text size v)).congr fun s bytes => ?_
    constructor
    · rintro ⟨h, hbytes⟩
      exact ⟨⟨v, (fromUTF8?_eq_some_iff content v).mp hv, h⟩, hbytes⟩
    · rintro ⟨⟨v', h', h⟩, hbytes⟩
      rw [(fromUTF8?_eq_some_iff content v').mpr h'] at hv
      cases hv
      exact ⟨h, hbytes⟩

theorem reads_scalar (form : ScalarForm) :
    Reads bound (fun c => c.scalar form) fun s bytes => s.form = form ∧ Scalar.Image s bytes := by
  cases form with
  | bool v =>
    refine (reads_pure (Scalar.bool v)).congr fun s bytes => ?_
    constructor
    · rintro ⟨rfl, rfl⟩
      exact ⟨rfl, .bool v⟩
    · rintro ⟨hform, h⟩
      cases h <;> cases hform
      exact ⟨rfl, rfl⟩
  | null =>
    refine (reads_pure Scalar.null).congr fun s bytes => ?_
    constructor
    · rintro ⟨rfl, rfl⟩
      exact ⟨rfl, .null⟩
    · rintro ⟨hform, h⟩
      cases h <;> cases hform
      exact ⟨rfl, rfl⟩
  | signed size =>
    refine (reads_bits size.pow_bytes (Scalar.signed size)).congr fun s bytes => ?_
    constructor
    · rintro ⟨v, hv, rfl⟩
      exact ⟨rfl, .signed hv⟩
    · rintro ⟨hform, h⟩
      cases h <;> cases hform
      exact ⟨_, ‹_›, rfl⟩
  | unsigned size =>
    refine (reads_bits size.pow_bytes (Scalar.unsigned size)).congr fun s bytes => ?_
    constructor
    · rintro ⟨v, hv, rfl⟩
      exact ⟨rfl, .unsigned hv⟩
    · rintro ⟨hform, h⟩
      cases h <;> cases hform
      exact ⟨_, ‹_›, rfl⟩
  | float size =>
    refine (reads_bits size.pow_bytes (Scalar.float size)).congr fun s bytes => ?_
    constructor
    · rintro ⟨v, hv, rfl⟩
      exact ⟨rfl, .float hv⟩
    · rintro ⟨hform, h⟩
      cases h <;> cases hform
      exact ⟨_, ‹_›, rfl⟩
  | text size =>
    refine ((reads_sized size).check fun c content =>
      reads_text size content (.invalidText c.offset) (.typeMismatch .text size.bytes)).congr
      fun s bytes => ?_
    constructor
    · rintro ⟨content, hcontent, v, rfl, fits, rfl⟩
      exact ⟨rfl, .text hcontent⟩
    · rintro ⟨hform, h⟩
      cases h <;> cases hform
      exact ⟨_, ‹_›, _, rfl, _, rfl⟩
  | bytes size =>
    refine ((reads_sized size).check fun _ content =>
      reads_checked (.typeMismatch .bytes size.bytes) (Scalar.bytes size content)).congr
      fun s bytes => ?_
    constructor
    · rintro ⟨content, hcontent, fits, rfl⟩
      exact ⟨rfl, .bytes hcontent⟩
    · rintro ⟨hform, h⟩
      cases h <;> cases hform
      exact ⟨_, ‹_›, _, rfl⟩

end Cursor

end DeviceTrial
