import DeviceTrial.Envelope.Notation
import DeviceTrial.Proofs.Envelope.Content
import DeviceTrial.Proofs.Envelope.RoundTrip
import DeviceTrial.Proofs.Json.Values
import DeviceTrial.Proofs.Text.Hex

namespace DeviceTrial

variable {ρ : Type}

namespace WordSize

theorem words_le_eight (size : WordSize) : size.words ≤ eight.words := by
  cases size <;> decide

theorem toNat_lt_words {size : WordSize} (v : BitVec size.bits) : v.toNat < size.words := by
  cases size <;> exact v.isLt

theorem toInt_bounds {size : WordSize} (v : BitVec size.bits) :
    -9223372036854775808 ≤ v.toInt ∧ v.toInt < 9223372036854775808 := by
  have hlow := v.le_two_mul_toInt
  have hhigh := v.two_mul_toInt_lt
  have hwords : (2 : Int) ^ size.bits = size.words := by cases size <;> rfl
  have hle : size.words ≤ 18446744073709551616 := size.words_le_eight
  omega

theorem ofInt?_toInt {size wide : WordSize} (h : size.words ≤ wide.words) (v : BitVec size.bits) :
    wide.ofInt? v.toInt = some (BitVec.ofInt wide.bits v.toInt) := by
  have hlow := v.le_two_mul_toInt
  have hhigh := v.two_mul_toInt_lt
  have hwords : (2 : Int) ^ size.bits = size.words := by cases size <;> rfl
  have heven : size.words / 2 * 2 = size.words := by cases size <;> rfl
  exact if_pos (by omega)

theorem ofNat?_toNat {size wide : WordSize} (h : size.words ≤ wide.words) (v : BitVec size.bits) :
    wide.ofNat? v.toNat = some (BitVec.ofInt wide.bits v.toNat) := by
  have hlt := toNat_lt_words v
  exact if_pos (by omega)

end WordSize

namespace Literal

theorem sizedInteger_eq_ok {kind : Kind} {v : Int}
    {read : (size : WordSize) → Int → Option (BitVec size.bits)}
    {make : (size : WordSize) → BitVec size.bits → Content} {size : WordSize}
    {w : BitVec size.bits} (hwide : (read .eight v).isSome = true) (hread : read size v = some w) :
    sizedInteger kind size.bytes (.integer v) read make = .ok (make size w) := by
  have hnone : (read .eight v).isNone = false := by
    rw [Option.isNone_eq_false_iff]
    exact hwide
  simp only [sizedInteger, integer?, hnone, WordSize.ofBytes?_bytes, hread]
  rfl

theorem content_literal {s : Scalar} (h : s.kind ≠ .float) :
    s.literal.content s.kind s.width = .ok s.content := by
  cases s with
  | bool | null => rfl
  | text => rfl
  | float => exact absurd rfl h
  | signed size v =>
    change sizedInteger .signed size.bytes (.integer v.toInt) WordSize.ofInt? .signed = _
    refine sizedInteger_eq_ok ?_ ?_
    · rw [WordSize.ofInt?_toInt size.words_le_eight]
      rfl
    · rw [WordSize.ofInt?_toInt (Nat.le_refl _), BitVec.ofInt_toInt]
  | unsigned size v =>
    change sizedInteger .unsigned size.bytes (.integer v.toNat) WordSize.ofNat? .unsigned = _
    refine sizedInteger_eq_ok ?_ ?_
    · rw [WordSize.ofNat?_toNat size.words_le_eight]
      rfl
    · rw [WordSize.ofNat?_toNat (Nat.le_refl _), BitVec.ofInt_natCast, BitVec.ofNat_toNat,
        BitVec.setWidth_eq]
  | bytes size v fits =>
    simp only [Scalar.literal, Scalar.kind, content, Hex.decode_encode_eq_ok]
    rfl

end Literal

namespace Element

def IsFloatFree (e : Element) : Prop := ∀ s ∈ e.scalars, s.kind ≠ .float

def AreFloatFree (es : List Element) : Prop := ∀ s ∈ scalarsOfAll es, s.kind ≠ .float

theorem Scalar.toNat_width (s : Scalar) : (UInt8.ofNat s.width).toNat = s.width := by
  cases s with
  | bool | null => rfl
  | signed size | unsigned size | text size | bytes size => cases size <;> rfl
  | float size => cases size <;> rfl

mutual

theorem element_description (e : Element) (hfree : e.IsFloatFree) :
    e.description.element = .ok e := by
  cases e with
  | leaf tag s =>
    rw [description, Description.element, Scalar.toNat_width,
      Literal.content_literal (hfree s (List.mem_singleton_self s))]
    exact build_content (leaf tag s)
  | node tag shape children =>
    have hcontainer : shape.kind.isContainer = true := by cases shape <;> rfl
    rw [description, Description.element, if_pos hcontainer]
    exact bind_eq_ok_iff.mpr ⟨_, elements_descriptions children hfree, build_content (node ..)⟩

theorem elements_descriptions (es : List Element) (hfree : AreFloatFree es) :
    Description.elements (descriptions es) = .ok es := by
  cases es with
  | nil => rfl
  | cons e es =>
    have ⟨first, others⟩ := List.forall_mem_append.mp hfree
    rw [descriptions]
    exact bind_eq_ok_iff.mpr ⟨_, element_description e first, bind_eq_ok_iff.mpr
      ⟨_, elements_descriptions es others, rfl⟩⟩

end

end Element

theorem Json.natural?_ofNat {bound n : Nat} (hbound : bound ≤ UInt64.size) (hn : n < bound) :
    (Json.ofNat n).natural? bound = some n := by
  rw [Json.ofNat, Json.natural?, UInt64.toNat_ofNat_of_lt' (Nat.lt_of_lt_of_le hn hbound)]
  exact if_pos hn

theorem Tag.ofJson?_json (tag : Tag) : Tag.ofJson? tag.json = some tag := by
  cases tag with
  | anonymous => rfl
  | context n =>
    change ((Json.ofNat n.toNat).natural? UInt8.size).map (fun n => context (UInt8.ofNat n)) = _
    rw [Json.natural?_ofNat (by decide) n.toNat_lt, Option.map_some, UInt8.ofNat_toNat]
  | common n =>
    change ((Json.ofNat n.toNat).natural? UInt32.size).map (fun n => common (UInt32.ofNat n)) = _
    rw [Json.natural?_ofNat (by decide) n.toNat_lt, Option.map_some, UInt32.ofNat_toNat]
  | implicit n =>
    change ((Json.ofNat n.toNat).natural? UInt32.size).map (fun n => implicit (UInt32.ofNat n)) = _
    rw [Json.natural?_ofNat (by decide) n.toNat_lt, Option.map_some, UInt32.ofNat_toNat]
  | qualified vendor profile n =>
    change (do
      let vendor ← (Json.ofNat vendor.toNat).natural? UInt16.size
      let profile ← (Json.ofNat profile.toNat).natural? UInt16.size
      let n ← (Json.ofNat n.toNat).natural? UInt32.size
      return ofParts vendor profile n) = _
    rw [Json.natural?_ofNat (by decide) vendor.toNat_lt,
      Json.natural?_ofNat (by decide) profile.toNat_lt, Json.natural?_ofNat (by decide) n.toNat_lt]
    simp only [Option.bind_eq_bind, Option.bind_some, ofParts, UInt16.ofNat_toNat,
      UInt32.ofNat_toNat]
    rfl

namespace Description

theorem ofJson?_fields (kind : Kind) (width : UInt8) (tag : Tag) {value : Json}
    {v : Literal ⊕ List Description} (h : valueOf? value = some v) :
    ofJson? (fields kind width tag value) = some (make kind width tag v) := by
  have hkind : Kind.ofJson? (.text kind.word) = some kind := kind.ofWord?_word
  have hwidth : widthOf? (.ofNat width.toNat) = some width := by
    rw [widthOf?, Json.natural?_ofNat (by decide) width.toNat_lt, Option.map_some,
      UInt8.ofNat_toNat]
  change (do
    let kind ← Kind.ofJson? (.text kind.word)
    let width ← widthOf? (.ofNat width.toNat)
    let tag ← Tag.ofJson? tag.json
    return make kind width tag (← valueOf? value)) = _
  rw [hkind, hwidth, tag.ofJson?_json, h]
  rfl

theorem valueOf?_integer {v : Int} (hlow : -9223372036854775808 ≤ v)
    (hhigh : v < 18446744073709551616) :
    valueOf? (.integer v) = some (.inl (.integer v)) := by
  unfold Json.integer
  by_cases hsign : 0 ≤ v
  · have hlt : v.toNat < UInt64.size := by
      have : UInt64.size = 18446744073709551616 := rfl
      omega
    rw [if_pos hsign, Json.ofNat, valueOf?, UInt64.toNat_ofNat_of_lt' hlt,
      Int.toNat_of_nonneg hsign]
  · rw [if_neg hsign, valueOf?, Int64.toInt_ofInt_of_le hlow (by omega)]

/-- The literal of an integer may change its kind on the way, but not its value. -/
theorem valueOf?_literal (s : Scalar) : valueOf? s.literal.json = some (.inl s.literal) := by
  cases s with
  | bool | null => rfl
  | text | bytes => rfl
  | float => rfl
  | signed size v =>
    obtain ⟨hlow, hhigh⟩ := WordSize.toInt_bounds v
    exact valueOf?_integer hlow (by omega)
  | unsigned size v =>
    have hlt := Nat.lt_of_lt_of_le (WordSize.toNat_lt_words v) size.words_le_eight
    exact valueOf?_integer (by omega) (Int.ofNat_lt.mpr hlt)

end Description

namespace Element

mutual

theorem ofJson?_json (e : Element) : Description.ofJson? e.json = some e.description := by
  cases e with
  | leaf tag s =>
    rw [json, description, Description.json]
    exact Description.ofJson?_fields _ _ tag (Description.valueOf?_literal s)
  | node tag shape children =>
    rw [json, description, Description.json]
    refine Description.ofJson?_fields _ _ tag (v := .inr (descriptions children)) ?_
    rw [Description.valueOf?, ofJsons?_jsons children]
    rfl

theorem ofJsons?_jsons (es : List Element) :
    Description.ofJsons? (Description.jsons (descriptions es)) = some (descriptions es) := by
  cases es with
  | nil => rfl
  | cons e es =>
    have hfirst := ofJson?_json e
    rw [descriptions, Description.jsons, Description.ofJsons?, ofJsons?_jsons es]
    rw [json] at hfirst
    rw [hfirst]
    rfl

end

end Element

open Json (Takes)

theorem Scalar.takes_literal {s : Scalar} (h : s.kind ≠ .float) :
    Takes (ρ := ρ) 0 Json.readValue s.literal.json s.literal.json := by
  cases s with
  | null => exact Json.takes_null
  | bool v => exact Json.takes_bool v
  | text | bytes => exact Json.takes_text _
  | float => exact absurd rfl h
  | signed size v => exact Json.takes_integer (WordSize.toInt_bounds v).1
  | unsigned size v => exact Json.takes_integer (by omega)

theorem Tag.takes_json (tag : Tag) : Takes (ρ := ρ) 2 Json.readValue tag.json tag.json := by
  have hnumber (name : String) (n : Nat) : Takes (ρ := ρ) 2 Json.readValue
      (.object [(name, .ofNat n)]) (.object [(name, .ofNat n)]) := by
    refine (Json.takes_object fun f hf => ?_).mono (Nat.le_succ 1)
    obtain rfl := List.mem_singleton.mp hf
    exact Json.takes_natural _
  cases tag with
  | anonymous => exact (Json.takes_text _).mono (Nat.zero_le 2)
  | context n | common n | implicit n => exact hnumber _ n.toNat
  | qualified vendor profile n =>
    refine Json.takes_object fun f hf => ?_
    obtain rfl := List.mem_singleton.mp hf
    refine Json.takes_object fun f hf => ?_
    simp only [List.mem_cons, List.not_mem_nil, or_false] at hf
    rcases hf with rfl | rfl | rfl <;> exact Json.takes_natural _

theorem Description.takes_fields {room : Nat} (hroom : 2 ≤ room) (kind : Kind) (width : UInt8)
    (tag : Tag) {value : Json} (h : Takes (ρ := ρ) room Json.readValue value value) :
    Takes (ρ := ρ) (room + 1) Json.readValue (fields kind width tag value)
      (fields kind width tag value) := by
  refine Json.takes_object fun f hf => ?_
  simp only [List.mem_cons, List.not_mem_nil, or_false] at hf
  rcases hf with rfl | rfl | rfl | rfl
  · exact (Json.takes_text _).mono (Nat.zero_le room)
  · exact (Json.takes_natural _).mono (Nat.zero_le room)
  · exact tag.takes_json.mono hroom
  · exact h

namespace Element

-- A container opens two brackets around its children, for its fields and for their list, and a leaf
-- three, for its fields and for the widest tag.
mutual

theorem takes_json (e : Element) (hfree : e.IsFloatFree) :
    Takes (ρ := ρ) (3 + 2 * e.nesting) Json.readValue e.json e.json := by
  cases e with
  | leaf tag s =>
    have hvalue := Scalar.takes_literal (ρ := ρ) (hfree s (List.mem_singleton_self s))
    rw [json, description, Description.json]
    exact Description.takes_fields (Nat.le_refl 2) _ _ tag (hvalue.mono (Nat.zero_le 2))
  | node tag shape children =>
    have hvalue := Json.takes_array (takes_jsons children hfree)
    rw [json, description, Description.json, nesting]
    refine (Description.takes_fields ?_ _ _ tag hvalue).mono ?_
    · omega
    · omega

theorem takes_jsons (es : List Element) (hfree : AreFloatFree es) :
    ∀ j ∈ Description.jsons (descriptions es),
      Takes (ρ := ρ) (3 + 2 * deepest es) Json.readValue j j := by
  cases es with
  | nil =>
    intro j hj
    cases hj
  | cons e es =>
    have ⟨first, others⟩ := List.forall_mem_append.mp hfree
    intro j hj
    rw [deepest]
    rcases List.mem_cons.mp hj with rfl | hj
    · exact (takes_json e first).mono (by omega)
    · exact (takes_jsons es others j hj).mono (by omega)

end

end Element

end DeviceTrial
