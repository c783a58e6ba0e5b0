import DeviceTrial.Proofs.Envelope.Described
import Mathlib.Algebra.Ring.Int.Defs
import Mathlib.Algebra.Ring.Nat
import Mathlib.Data.List.Forall2

namespace DeviceTrial

/-! ## Words -/

namespace WordSize

variable {size : WordSize}

theorem holds_iff {n : Nat} :
    size.holds n = true ↔ size.bytes = 8 ∨ n < 2 ^ (8 * size.bytes) := by
  cases size with
  | eight => exact ⟨fun _ => .inl rfl, fun _ => rfl⟩
  | one | two | four => exact decide_eq_true_iff.trans (by simp [bytes, words])

theorem exists_bytes_iff {n : Nat} : (∃ size : WordSize, size.bytes = n) ↔ n ∈ [1, 2, 4, 8] := by
  constructor
  · rintro ⟨size, rfl⟩
    cases size <;> decide
  · intro h
    simp only [List.mem_cons, List.not_mem_nil, or_false] at h
    rcases h with rfl | rfl | rfl | rfl
    · exact ⟨one, rfl⟩
    · exact ⟨two, rfl⟩
    · exact ⟨four, rfl⟩
    · exact ⟨eight, rfl⟩

theorem bytes_of_ofBytes? {n : Nat} (h : ofBytes? n = some size) : size.bytes = n := by
  unfold ofBytes? at h
  split at h <;> cases h <;> rfl

theorem words_half : (2 : Int) ^ (8 * size.bytes - 1) = (size.words / 2 : Nat) := by
  cases size <;> rfl

theorem words_eq : (2 : Int) ^ (8 * size.bytes) = size.words := by
  cases size <;> rfl

theorem toInt_ofInt {v : Int} (hlow : -(size.words / 2 : Nat) ≤ v)
    (hhigh : v < (size.words / 2 : Nat)) : (BitVec.ofInt size.bits v).toInt = v := by
  have hhalf : (2 : Int) ^ (size.bits - 1) = (size.words / 2 : Nat) := by cases size <;> rfl
  have hbits : 0 < size.bits := by cases size <;> decide
  exact BitVec.toInt_ofInt_eq_self hbits (hhalf ▸ hlow) (hhalf ▸ hhigh)

theorem toNat_ofInt {v : Int} (hlow : 0 ≤ v) (hhigh : v < size.words) :
    ((BitVec.ofInt size.bits v).toNat : Int) = v := by
  have hwords : 2 ^ size.bits = size.words := by cases size <;> rfl
  rw [BitVec.toNat_ofInt, hwords, Int.emod_eq_of_lt hlow hhigh, Int.toNat_of_nonneg hlow]

theorem ofInt?_eq_some_iff {v : Int} {w : BitVec size.bits} :
    size.ofInt? v = some w ↔ w.toInt = v := by
  constructor
  · intro h
    obtain ⟨hbounds, hw⟩ := Option.ite_none_right_eq_some.mp h
    cases hw
    exact toInt_ofInt hbounds.1 hbounds.2
  · rintro rfl
    rw [ofInt?_toInt (Nat.le_refl _), BitVec.ofInt_toInt]

theorem ofNat?_eq_some_iff {v : Int} {w : BitVec size.bits} :
    size.ofNat? v = some w ↔ (w.toNat : Int) = v := by
  constructor
  · intro h
    obtain ⟨hbounds, hw⟩ := Option.ite_none_right_eq_some.mp h
    cases hw
    exact toNat_ofInt hbounds.1 hbounds.2
  · rintro rfl
    rw [ofNat?_toNat (Nat.le_refl _), BitVec.ofInt_natCast, BitVec.ofNat_toNat, BitVec.setWidth_eq]

theorem exists_toInt_iff {v : Int} : (∃ w : BitVec size.bits, w.toInt = v) ↔
    -2 ^ (8 * size.bytes - 1) ≤ v ∧ v ≤ 2 ^ (8 * size.bytes - 1) - 1 := by
  rw [words_half]
  constructor
  · rintro ⟨w, hw⟩
    obtain ⟨⟨hlow, hhigh⟩, -⟩ := Option.ite_none_right_eq_some.mp (ofInt?_eq_some_iff.mpr hw)
    exact ⟨hlow, Int.le_sub_one_of_lt hhigh⟩
  · rintro ⟨hlow, hhigh⟩
    exact ⟨_, toInt_ofInt hlow (Int.lt_of_le_sub_one hhigh)⟩

theorem exists_toNat_iff {v : Int} : (∃ w : BitVec size.bits, (w.toNat : Int) = v) ↔
    0 ≤ v ∧ v ≤ 2 ^ (8 * size.bytes) - 1 := by
  rw [words_eq]
  constructor
  · rintro ⟨w, hw⟩
    obtain ⟨⟨hlow, hhigh⟩, -⟩ := Option.ite_none_right_eq_some.mp (ofNat?_eq_some_iff.mpr hw)
    exact ⟨hlow, Int.le_sub_one_of_lt hhigh⟩
  · rintro ⟨hlow, hhigh⟩
    exact ⟨_, toNat_ofInt hlow (Int.lt_of_le_sub_one hhigh)⟩

end WordSize

theorem FloatSize.exists_bytes_iff {n : Nat} :
    (∃ size : FloatSize, size.bytes = n) ↔ n ∈ [4, 8] := by
  constructor
  · rintro ⟨size, rfl⟩
    cases size <;> decide
  · intro h
    simp only [List.mem_cons, List.not_mem_nil, or_false] at h
    rcases h with rfl | rfl
    · exact ⟨.single, rfl⟩
    · exact ⟨.double, rfl⟩

/-! ## Values -/

/-- The value is one of the kind, and fits the width. The largest length field takes every length.
-/
def Literal.Fits (kind : Kind) (width : Nat) (value : Literal) : Prop :=
  match kind, value with
  | .boolean, .bool _ => True
  | .signed, .integer v => -2 ^ (8 * width - 1) ≤ v ∧ v ≤ 2 ^ (8 * width - 1) - 1
  | .unsigned, .integer v => 0 ≤ v ∧ v ≤ 2 ^ (8 * width) - 1
  | .float, .integer _ => True
  | .float, .float _ => True
  | .float, .null => True
  | .text, .text v => width = 8 ∨ v.utf8ByteSize < 2 ^ (8 * width)
  | .bytes, .text v => (v.length % 2 = 0 ∧ ∀ c ∈ v.toList, c.isHexDigit = true) ∧
      (width = 8 ∨ v.length / 2 < 2 ^ (8 * width))
  | .null, .null => True
  | _, _ => False

/-- The scalar is what the value says. A number is brought to the size of a float. -/
def Scalar.Holds (s : Scalar) (value : Literal) : Prop :=
  match s with
  | .bool v => value = .bool v
  | .signed _ w => value = .integer w.toInt
  | .unsigned _ w => value = .integer w.toNat
  | .float size w => ∃ v, value.float? = some v ∧ w = FloatSize.double.convert size v
  | .text _ v _ => value = .text v
  | .bytes _ content _ => ∃ v, value = .text v ∧ Hex.Spells v.toList content
  | .null => value = .null

namespace Literal

variable {value : Literal} {kind : Kind} {width : Nat} {s : Scalar}

theorem exists_of_sizedInteger {read : (size : WordSize) → Int → Option (BitVec size.bits)}
    {make : (size : WordSize) → BitVec size.bits → Content} {c : Content}
    (h : sizedInteger kind width value read make = .ok c) :
    ∃ size v w, size.bytes = width ∧ value = .integer v ∧ read size v = some w ∧
      c = make size w := by
  cases value with
  | integer v =>
    unfold sizedInteger integer? at h
    dsimp only at h
    split at h
    · cases h
    · split at h
      · cases h
      · next size hsize =>
        split at h
        · next w hread =>
          cases h
          exact ⟨size, v, w, WordSize.bytes_of_ofBytes? hsize, rfl, hread, rfl⟩
        · cases h
  | null | bool | float | text => cases h

theorem content_float (value : Literal) (size : FloatSize) :
    value.content .float size.bytes = match value.float? with
      | some v => .ok (.float size (FloatSize.double.convert size v))
      | none => .error (.typeMismatch .float size.bytes) := by
  cases value <;> cases size <;> rfl

theorem holds_of_content (h : value.content s.kind s.width = .ok s.content) : s.Holds value := by
  cases s with
  | bool v =>
    cases value with
    | bool => cases h; rfl
    | _ => cases h
  | signed size w =>
    obtain ⟨size, v, w, -, rfl, hread, hmake⟩ := exists_of_sizedInteger h
    cases hmake
    exact congrArg integer (WordSize.ofInt?_eq_some_iff.mp hread).symm
  | unsigned size w =>
    obtain ⟨size, v, w, -, rfl, hread, hmake⟩ := exists_of_sizedInteger h
    cases hmake
    exact congrArg integer (WordSize.ofNat?_eq_some_iff.mp hread).symm
  | float size w =>
    rw [Scalar.kind, Scalar.width, content_float] at h
    cases hv : value.float? with
    | none =>
      rw [hv] at h
      cases h
    | some v =>
      rw [hv] at h
      cases h
      exact ⟨v, hv, rfl⟩
  | text size v fits =>
    cases value with
    | text => cases h; rfl
    | _ => cases h
  | bytes size content fits =>
    cases value with
    | text v =>
      simp only [Scalar.kind, Literal.content] at h
      cases hdecode : Hex.decode v with
      | error fault =>
        rw [hdecode] at h
        cases h
      | ok bytes =>
        rw [hdecode] at h
        cases h
        exact ⟨v, rfl, Hex.decode_eq_ok_iff.mp hdecode⟩
    | _ => cases h
  | null =>
    cases value with
    | null => rfl
    | _ => cases h

theorem content_of_holds (h : s.Holds value) : value.content s.kind s.width = .ok s.content := by
  cases s with
  | float size w =>
    obtain ⟨v, hv, rfl⟩ := h
    rw [Scalar.kind, Scalar.width, content_float, hv]
    rfl
  | bytes size content fits =>
    obtain ⟨v, rfl, hspells⟩ := h
    simp only [Scalar.kind, Literal.content, Hex.decode_eq_ok_iff.mpr hspells]
    rfl
  | bool | signed | unsigned | text | null =>
    cases h
    exact content_literal Kind.noConfusion

/-- A scalar leaves the value that it holds the room of its kind and width. -/
theorem fits_of_holds (h : s.Holds value) : value.Fits s.kind s.width := by
  cases s with
  | bool | null =>
    cases h
    trivial
  | signed size w =>
    cases h
    exact WordSize.exists_toInt_iff.mp ⟨w, rfl⟩
  | unsigned size w =>
    cases h
    exact WordSize.exists_toNat_iff.mp ⟨w, rfl⟩
  | float size w =>
    obtain ⟨v, hv, -⟩ := h
    cases value with
    | null | integer | float => trivial
    | bool | text => cases hv
  | text size v fits =>
    cases h
    exact WordSize.holds_iff.mp fits
  | bytes size content fits =>
    obtain ⟨v, rfl, hspells⟩ := h
    have hlength : v.length / 2 = content.length := by
      rw [← String.length_toList, hspells.length_eq]
      omega
    refine ⟨?_, ?_⟩
    · rw [← String.length_toList]
      exact Hex.exists_spells_iff.mp ⟨_, hspells⟩
    · rw [hlength]
      exact WordSize.holds_iff.mp fits

theorem exists_holds_of_fits (hwidth : kind.supports width = true) (hfits : value.Fits kind width) :
    ∃ s : Scalar, s.kind = kind ∧ s.width = width ∧ s.Holds value := by
  replace hwidth : width ∈ kind.widths := List.contains_iff_mem.mp hwidth
  cases kind with
  | boolean =>
    cases value with
    | bool v => exact ⟨.bool v, rfl, (List.mem_singleton.mp hwidth).symm, rfl⟩
    | null | integer | float | text => exact hfits.elim
  | signed =>
    obtain ⟨size, rfl⟩ := WordSize.exists_bytes_iff.mpr hwidth
    cases value with
    | integer v =>
      obtain ⟨w, rfl⟩ := WordSize.exists_toInt_iff.mpr hfits
      exact ⟨.signed size w, rfl, rfl, rfl⟩
    | null | bool | float | text => exact hfits.elim
  | unsigned =>
    obtain ⟨size, rfl⟩ := WordSize.exists_bytes_iff.mpr hwidth
    cases value with
    | integer v =>
      obtain ⟨w, rfl⟩ := WordSize.exists_toNat_iff.mpr hfits
      exact ⟨.unsigned size w, rfl, rfl, rfl⟩
    | null | bool | float | text => exact hfits.elim
  | float =>
    obtain ⟨size, rfl⟩ := FloatSize.exists_bytes_iff.mpr hwidth
    cases value with
    | null | integer | float => exact ⟨.float size _, rfl, rfl, _, rfl, rfl⟩
    | bool | text => exact hfits.elim
  | text =>
    obtain ⟨size, rfl⟩ := WordSize.exists_bytes_iff.mpr hwidth
    cases value with
    | text v => exact ⟨.text size v (WordSize.holds_iff.mpr hfits), rfl, rfl, rfl⟩
    | null | bool | integer | float => exact hfits.elim
  | bytes =>
    obtain ⟨size, rfl⟩ := WordSize.exists_bytes_iff.mpr hwidth
    cases value with
    | text v =>
      obtain ⟨hdigits, hroom⟩ := hfits
      rw [← String.length_toList] at hdigits hroom
      obtain ⟨bytes, hspells⟩ := Hex.exists_spells_iff.mpr hdigits
      rw [hspells.length_eq, Nat.mul_div_cancel_left _ Nat.two_pos] at hroom
      exact ⟨.bytes size bytes (WordSize.holds_iff.mpr hroom), rfl, rfl, v, rfl, hspells⟩
    | null | bool | integer | float => exact hfits.elim
  | null =>
    cases value with
    | null => exact ⟨.null, rfl, (List.mem_singleton.mp hwidth).symm, rfl⟩
    | bool | integer | float | text => exact hfits.elim
  | struct | array | list => cases value <;> exact hfits.elim

theorem fits_iff : kind.supports width = true ∧ value.Fits kind width ↔
    ∃ s : Scalar, s.kind = kind ∧ s.width = width ∧ s.Holds value := by
  constructor
  · rintro ⟨hwidth, hfits⟩
    exact exists_holds_of_fits hwidth hfits
  · rintro ⟨s, rfl, rfl, h⟩
    exact ⟨(Element.leaf .anonymous s).supports_kind, fits_of_holds h⟩

end Literal

/-! ## Elements -/

namespace Element

variable {kind : Kind} {width : Nat} {tag : Tag} {content : Content}

theorem exists_of_sized? {length : Nat} {s : Scalar}
    {make : (size : WordSize) → size.holds length = true → Scalar}
    (h : sized? width length make = some s) :
    ∃ size fits, size.bytes = width ∧ s = make size fits := by
  obtain ⟨size, hsize, h⟩ := Option.bind_eq_some_iff.mp h
  split at h
  · next fits =>
    cases h
    exact ⟨size, fits, WordSize.bytes_of_ofBytes? hsize, rfl⟩
  · cases h

theorem of_scalar? {s : Scalar} (hwidth : kind.supports width = true)
    (h : scalar? kind width content = some s) :
    s.kind = kind ∧ s.width = width ∧ s.content = content := by
  replace hwidth : width ∈ kind.widths := List.contains_iff_mem.mp hwidth
  unfold scalar? at h
  split at h
  case h_1 | h_7 =>
    cases h
    exact ⟨rfl, (List.mem_singleton.mp hwidth).symm, rfl⟩
  case h_2 | h_3 | h_4 =>
    obtain ⟨hsize, hs⟩ := Option.ite_none_right_eq_some.mp h
    cases hs
    exact ⟨rfl, hsize, rfl⟩
  case h_5 | h_6 =>
    obtain ⟨size, fits, hsize, rfl⟩ := exists_of_sized? h
    exact ⟨rfl, hsize, rfl⟩
  case h_8 => cases h

theorem kind_of_shape? {shape : Shape} (h : kind.shape? = some shape) :
    shape.kind = kind ∧ kind.widths = [0] := by
  cases kind <;> cases h <;> exact ⟨rfl, rfl⟩

theorem build_eq_ok_iff {e : Element} : build kind width tag content = .ok e ↔
    e.kind = kind ∧ e.width = width ∧ e.tag = tag ∧ e.content = content := by
  constructor
  · intro h
    unfold build at h
    split at h
    · cases h
    · next hsupported =>
      have hwidth : kind.supports width = true := by simpa using hsupported
      split at h
      · next shape es hshape =>
        cases h
        obtain ⟨hkind, hwidths⟩ := kind_of_shape? hshape
        have hzero : width ∈ kind.widths := List.contains_iff_mem.mp hwidth
        rw [hwidths] at hzero
        exact ⟨hkind, (List.mem_singleton.mp hzero).symm, rfl, rfl⟩
      · split at h
        · next s hs =>
          cases h
          obtain ⟨hkind, hsize, hcontent⟩ := of_scalar? hwidth hs
          exact ⟨hkind, hsize, rfl, hcontent⟩
        · cases h
  · rintro ⟨rfl, rfl, rfl, rfl⟩
    exact e.build_content

end Element

namespace Description

/-- At every node the kind has the width, and the value fits them. Only containers have children. -/
inductive Valid : Description → Prop
  | leaf {kind width tag value} (hwidth : kind.supports width.toNat = true)
      (hvalue : value.Fits kind width.toNat) : Valid (.leaf kind width tag value)
  | node {kind width tag children} (hwidth : kind.supports width.toNat = true)
      (hkind : kind.isContainer = true) (hchildren : ∀ d ∈ children, Valid d) :
      Valid (.node kind width tag children)

/-- At every node the element has the kind, the width and the tag of the description, and holds its
value or has its children, in their order. -/
inductive Describes : Description → Element → Prop
  | leaf {kind width tag value s} (hkind : s.kind = kind) (hwidth : s.width = width.toNat)
      (hvalue : s.Holds value) : Describes (.leaf kind width tag value) (.leaf tag s)
  | node {kind width tag children shape es} (hkind : shape.kind = kind) (hwidth : width.toNat = 0)
      (hchildren : List.Forall₂ Describes children es) :
      Describes (.node kind width tag children) (.node tag shape es)

variable {kind : Kind} {width : UInt8} {tag : Tag} {value : Literal} {children : List Description}

theorem describes_leaf_iff {e : Element} : (leaf kind width tag value).Describes e ↔
    ∃ s : Scalar, e = .leaf tag s ∧ s.kind = kind ∧ s.width = width.toNat ∧ s.Holds value := by
  constructor
  · rintro ⟨hkind, hwidth, hvalue⟩
    exact ⟨_, rfl, hkind, hwidth, hvalue⟩
  · rintro ⟨s, rfl, hkind, hwidth, hvalue⟩
    exact .leaf hkind hwidth hvalue

theorem describes_node_iff {e : Element} : (node kind width tag children).Describes e ↔
    ∃ shape es, e = .node tag shape es ∧ shape.kind = kind ∧ width.toNat = 0 ∧
      List.Forall₂ Describes children es := by
  constructor
  · rintro (_ | ⟨hkind, hwidth, hchildren⟩)
    exact ⟨_, _, rfl, hkind, hwidth, hchildren⟩
  · rintro ⟨shape, es, rfl, hkind, hwidth, hchildren⟩
    exact .node hkind hwidth hchildren

theorem leaf_element_eq_ok_iff {e : Element} : (leaf kind width tag value).element = .ok e ↔
    (leaf kind width tag value).Describes e := by
  rw [element, bind_eq_ok_iff, describes_leaf_iff]
  constructor
  · rintro ⟨content, hcontent, hbuild⟩
    obtain ⟨rfl, hwidth, rfl, rfl⟩ := Element.build_eq_ok_iff.mp hbuild
    rw [← hwidth] at hcontent
    cases e with
    | leaf tag s => exact ⟨s, rfl, rfl, hwidth, Literal.holds_of_content hcontent⟩
    | node tag shape es => cases shape <;> cases hcontent
  · rintro ⟨s, rfl, rfl, hwidth, hvalue⟩
    rw [← hwidth]
    exact ⟨s.content, Literal.content_of_holds hvalue, (Element.leaf tag s).build_content⟩

mutual

theorem element_eq_ok_iff (d : Description) {e : Element} :
    d.element = .ok e ↔ d.Describes e := by
  cases d with
  | leaf kind width tag value => exact leaf_element_eq_ok_iff
  | node kind width tag children =>
    rw [element, describes_node_iff]
    constructor
    · intro h
      split at h
      · obtain ⟨es, hes, hbuild⟩ := bind_eq_ok_iff.mp h
        obtain ⟨rfl, hwidth, rfl, hcontent⟩ := Element.build_eq_ok_iff.mp hbuild
        cases e with
        | leaf tag s => cases s <;> cases hcontent
        | node tag shape children =>
          cases hcontent
          exact ⟨shape, _, rfl, rfl, hwidth.symm, (elements_eq_ok_iff _).mp hes⟩
      · cases h
    · rintro ⟨shape, es, rfl, rfl, hwidth, hchildren⟩
      have hcontainer : shape.kind.isContainer = true := by cases shape <;> rfl
      rw [if_pos hcontainer, hwidth]
      exact bind_eq_ok_iff.mpr ⟨es, (elements_eq_ok_iff children).mpr hchildren,
        (Element.node tag shape es).build_content⟩

theorem elements_eq_ok_iff (ds : List Description) {es : List Element} :
    elements ds = .ok es ↔ List.Forall₂ Describes ds es := by
  cases ds with
  | nil =>
    rw [elements, List.forall₂_nil_left_iff]
    exact ⟨fun h => by cases h; rfl, fun h => by rw [h]⟩
  | cons d ds =>
    rw [elements, bind_eq_ok_iff, List.forall₂_cons_left_iff]
    constructor
    · rintro ⟨first, hfirst, hrest⟩
      obtain ⟨others, hothers, hes⟩ := bind_eq_ok_iff.mp hrest
      cases hes
      exact ⟨first, others, (element_eq_ok_iff d).mp hfirst, (elements_eq_ok_iff ds).mp hothers,
        rfl⟩
    · rintro ⟨first, others, hfirst, hothers, rfl⟩
      exact ⟨first, (element_eq_ok_iff d).mpr hfirst,
        bind_eq_ok_iff.mpr ⟨others, (elements_eq_ok_iff ds).mpr hothers, rfl⟩⟩

end

/-! ## Validity -/

theorem valid_leaf_iff : (leaf kind width tag value).Valid ↔
    kind.supports width.toNat = true ∧ value.Fits kind width.toNat := by
  constructor
  · rintro ⟨hwidth, hvalue⟩
    exact ⟨hwidth, hvalue⟩
  · rintro ⟨hwidth, hvalue⟩
    exact .leaf hwidth hvalue

theorem valid_node_iff : (node kind width tag children).Valid ↔
    kind.supports width.toNat = true ∧ kind.isContainer = true ∧ ∀ d ∈ children, d.Valid := by
  constructor
  · rintro (_ | ⟨hwidth, hkind, hchildren⟩)
    exact ⟨hwidth, hkind, hchildren⟩
  · rintro ⟨hwidth, hkind, hchildren⟩
    exact .node hwidth hkind hchildren

theorem exists_shape_iff {n : Nat} : kind.supports n = true ∧ kind.isContainer = true ↔
    ∃ shape : Shape, shape.kind = kind ∧ n = 0 := by
  constructor
  · rintro ⟨hwidth, hkind⟩
    replace hwidth : n ∈ kind.widths := List.contains_iff_mem.mp hwidth
    cases kind with
    | struct => exact ⟨.struct, rfl, List.mem_singleton.mp hwidth⟩
    | array => exact ⟨.array, rfl, List.mem_singleton.mp hwidth⟩
    | list => exact ⟨.list, rfl, List.mem_singleton.mp hwidth⟩
    | _ => cases hkind
  · rintro ⟨shape, rfl, rfl⟩
    cases shape <;> exact ⟨rfl, rfl⟩

mutual

theorem valid_iff (d : Description) : d.Valid ↔ ∃ e, d.Describes e := by
  cases d with
  | leaf kind width tag value =>
    simp only [valid_leaf_iff, describes_leaf_iff, Literal.fits_iff]
    constructor
    · rintro ⟨s, hs⟩
      exact ⟨_, s, rfl, hs⟩
    · rintro ⟨_, s, rfl, hs⟩
      exact ⟨s, hs⟩
  | node kind width tag children =>
    simp only [valid_node_iff, describes_node_iff, ← and_assoc, exists_shape_iff]
    rw [forall_valid_iff children]
    constructor
    · rintro ⟨⟨shape, hkind, hwidth⟩, es, hes⟩
      exact ⟨_, shape, es, ⟨⟨rfl, hkind⟩, hwidth⟩, hes⟩
    · rintro ⟨_, shape, es, ⟨⟨rfl, hkind⟩, hwidth⟩, hes⟩
      exact ⟨⟨shape, hkind, hwidth⟩, es, hes⟩

theorem forall_valid_iff (ds : List Description) :
    (∀ d ∈ ds, d.Valid) ↔ ∃ es, List.Forall₂ Describes ds es := by
  cases ds with
  | nil => exact ⟨fun _ => ⟨[], .nil⟩, fun _ _ h => by cases h⟩
  | cons d ds =>
    rw [List.forall_mem_cons, valid_iff d, forall_valid_iff ds]
    constructor
    · rintro ⟨⟨e, he⟩, es, hes⟩
      exact ⟨e :: es, .cons he hes⟩
    · rintro ⟨_, _ | ⟨he, hes⟩⟩
      exact ⟨⟨_, he⟩, _, hes⟩

end

end Description

/-! ## What an element is described as -/

theorem Scalar.holds_literal {s : Scalar} (h : s.kind ≠ .float) : s.Holds s.literal :=
  Literal.holds_of_content (Literal.content_literal h)

theorem Scalar.fits_literal (s : Scalar) : s.literal.Fits s.kind s.width := by
  cases s with
  | float => trivial
  | bool | signed | unsigned | text | bytes | null =>
    exact Literal.fits_of_holds (holds_literal Kind.noConfusion)

namespace Element

mutual

theorem valid_description (e : Element) : e.description.Valid := by
  cases e with
  | leaf tag s =>
    rw [description, Description.valid_leaf_iff, Scalar.toNat_width]
    exact ⟨(leaf tag s).supports_kind, s.fits_literal⟩
  | node tag shape children =>
    rw [description, Description.valid_node_iff, ← and_assoc, Description.exists_shape_iff]
    exact ⟨⟨shape, rfl, rfl⟩, valid_descriptions children⟩

theorem valid_descriptions (es : List Element) : ∀ d ∈ descriptions es, d.Valid := by
  cases es with
  | nil =>
    intro d hd
    cases hd
  | cons e es =>
    rw [descriptions, List.forall_mem_cons]
    exact ⟨valid_description e, valid_descriptions es⟩

end

end Element

/-- The descriptions that denote an element are the valid ones. The element is the one that they
describe, and is itself valid at every node. -/
theorem Description.element_exact (d : Description) :
    ((∃ e, d.element = .ok e) ↔ d.Valid) ∧
      ∀ e, (d.element = .ok e ↔ d.Describes e) ∧
        (d.element = .ok e → e.description.Valid) := by
  refine ⟨?_, fun e => ⟨d.element_eq_ok_iff, fun _ => e.valid_description⟩⟩
  rw [valid_iff]
  exact exists_congr fun e => d.element_eq_ok_iff

/-- What is out of range is refused, not wrapped. -/
example : (Description.leaf .signed 1 .anonymous (.integer 128)).element =
    .error (.malformed (.outOfRange .signed 1)) := rfl

end DeviceTrial
