import DeviceTrial.Proofs.Envelope.Denoted
import DeviceTrial.Proofs.Json.Compact
import DeviceTrial.Proofs.Json.Floats

namespace DeviceTrial

variable {ρ : Type}

open Json (Takes Fills)

theorem Json.takes_readAlternative {α : Type} {known : String → Bool} {plain : String → Option α}
    {payload : String → Scope → List Char → Except (Fault ρ) (α × List Char)} {name : String}
    {a : α} (h : plain name = some a) :
    Takes 0 (fun scope => readAlternative scope known plain payload) (.text name) a where
  starts := (takes_text (ρ := ρ) name).starts
  reads := by
    intro scope indent cs rest _ _ _ hcs
    rw [prettyChars, textChars_append] at hcs
    rw [readAlternative, hcs]
    refine bind_eq_ok_iff.mpr ⟨_, textBody_toList name rest, ?_⟩
    dsimp only
    rw [h]
    rfl

theorem takes_readKind (kind : Kind) : Takes (ρ := ρ) 0 readKind (.text kind.word) kind := by
  unfold readKind
  exact Json.takes_readAlternative kind.ofWord?_word

theorem takes_readTag_anonymous :
    Takes (ρ := ρ) 0 readTag (.text "anonymous") Tag.anonymous := by
  unfold readTag
  exact Json.takes_readAlternative rfl

namespace Description

variable {kind : Kind} {width : UInt8} {tag : Tag} {value : Json}
  {v : Literal ⊕ List Description}

theorem fills_draftFields (kind : Kind) (width : UInt8) {j : Json}
    (hread : Takes (ρ := ρ) 0 Json.readValue value j) (hvalue : valueOf? j = some v) :
    Fills (ρ := ρ) 0 draftFields {} [("type", .text kind.word), ("width", .ofNat width.toNat),
      ("tag", Tag.anonymous.json), ("value", value)]
      ⟨some kind, some width, some .anonymous, some v⟩ := by
  have hwidth := Json.takes_readNatural (ρ := ρ) (by decide) width.toNat_lt
  refine .cons rfl rfl ((takes_readKind kind).bind fun _ => rfl) ?_
  refine .cons rfl rfl (hwidth.bind fun _ => rfl) ?_
  rw [UInt8.ofNat_toNat]
  refine .cons rfl rfl (takes_readTag_anonymous.bind fun _ => rfl) ?_
  refine .cons rfl rfl (hread.bind fun _ => ?_) (.nil rfl)
  dsimp only
  rw [hvalue]
  rfl

theorem ofText_of_readRecord {text : String} {e : Element}
    (hread : Json.readRecord (draftFields (ρ := EnvelopeFault)) (.ofText text.toList) {}
      text.toList = .ok (⟨some kind, some width, some tag, some v⟩, []))
    (helement : (make kind width tag v).element = .ok e) : Element.ofText text = .ok e := by
  have hdescription : readDescription (ρ := EnvelopeFault) (.ofText text.toList) text.toList =
      .ok (make kind width tag v, []) := bind_eq_ok_iff.mpr ⟨_, hread, rfl⟩
  refine bind_eq_ok_iff.mpr ⟨(e, []), bind_eq_ok_iff.mpr ⟨_, hdescription, ?_⟩, rfl⟩
  dsimp only
  rw [helement]
  rfl

end Description

open FloatSize

namespace Element

theorem element_leaf_float (size : FloatSize) (u : BitVec 64) :
    (Description.leaf .float (UInt8.ofNat size.bytes) .anonymous (.float u)).element =
      .ok (float size (double.convert size u)) := by
  have hwidth : (UInt8.ofNat size.bytes).toNat = size.bytes :=
    Scalar.toNat_width (.float size (double.convert size u))
  rw [Description.element, hwidth, Literal.content_float]
  exact build_content (float size (double.convert size u))

theorem ofText_float_of_takes {size : FloatSize} {v : BitVec size.bits} {u : BitVec 64}
    (h : Takes (ρ := EnvelopeFault) 0 Json.readValue (.float (size.convert .double v)) (.float u))
    {text : String} (htext : text ∈ [(float size v).json.compact, (float size v).json.pretty]) :
    ofText text = .ok (float size (double.convert size u)) := by
  have hfills := Description.fills_draftFields .float (UInt8.ofNat size.bytes) h
    (v := .inl (.float u)) (by rw [Description.valueOf?])
  refine Description.ofText_of_readRecord (hfills.readRecord_text ?_ (by decide) htext)
    (element_leaf_float size u)
  simp only [List.forall_mem_cons, List.not_mem_nil, false_imp_iff, implies_true, and_true]
  exact ⟨Json.isPlain_text _, Json.isPlain_ofNat _, Json.isPlain_text _, Json.isPlain_float _⟩

/-- The element of a finite float is always read back from its JSON text, in either form, as one of
the same sign. A float of single size is then the same; one of double size may be up to four places
away, but zero is not. -/
theorem ofText_float {size : FloatSize} {v : BitVec size.bits}
    (finite : size.unsigned v < size.infinity) : ∃ w : BitVec size.bits,
      (size = .single → w = v) ∧ size.negative w = size.negative v ∧
        size.Near (size.unsigned v) (size.unsigned w) ∧
          ∀ text ∈ [(float size v).json.compact, (float size v).json.pretty],
            ofText text = .ok (float size w) := by
  -- single size is written wider and narrowed again, which brings the number back
  cases size with
  | single =>
    obtain ⟨wide, hwide, hconvert, hback⟩ := exists_widened finite
    have hunsigned := unsigned_signed (single.negative v) hwide
    obtain ⟨w, hnear, htakes⟩ :=
      Json.exists_takes_float (unsigned_signed_lt (single.negative v) hwide)
    rw [hunsigned] at hnear
    rw [negative_signed _ hwide, ← hconvert] at htakes
    refine ⟨v, fun _ => rfl, rfl, ⟨finite, by omega, by omega, id⟩, fun text htext => ?_⟩
    rw [ofText_float_of_takes (htakes _) htext, hback w hnear]
  | double =>
    obtain ⟨w, hnear, htakes⟩ := Json.exists_takes_float finite
    have hw := hnear.finite
    refine ⟨double.signed (double.negative v) w, nofun, negative_signed _ hw, ?_,
      fun text htext => ?_⟩
    · rw [unsigned_signed _ hw]
      exact hnear
    · have hread := htakes EnvelopeFault
      rw [← congrArg Json.float (convert_self finite)] at hread
      rw [ofText_float_of_takes hread htext, convert_self (unsigned_signed_lt _ hw)]

/-- The number next to a tenth, of either size. -/
theorem ofText_float_tenth :
    (single.unsigned 0x3dcccccd#32 < single.infinity ∧
      ∀ text ∈ [(float .single 0x3dcccccd#32).json.compact,
          (float .single 0x3dcccccd#32).json.pretty],
        ofText text = .ok (float .single 0x3dcccccd#32)) ∧
    (double.unsigned 0xbfb999999999999a#64 < double.infinity ∧
      ∃ w : BitVec 64, double.negative w = true ∧
        double.Near 0x3fb999999999999a (double.unsigned w) ∧
          ∀ text ∈ [(float .double 0xbfb999999999999a#64).json.compact,
              (float .double 0xbfb999999999999a#64).json.pretty],
            ofText text = .ok (float .double w)) := by
  have hsingle : single.unsigned 0x3dcccccd#32 < single.infinity := by decide
  have hdouble : double.unsigned 0xbfb999999999999a#64 < double.infinity := by decide
  refine ⟨⟨hsingle, ?_⟩, hdouble, ?_⟩
  · obtain ⟨w, hsame, -, -, hread⟩ := ofText_float hsingle
    rw [hsame rfl] at hread
    exact hread
  · obtain ⟨w, -, hsign, hnear, hread⟩ := ofText_float hdouble
    exact ⟨w, hsign, hnear, hread⟩

/-- A number of double size that is read as its neighbour. It is written 123456789.12345679, and the
significand and its quotient are both rounded. -/
theorem ofText_float_neighbour :
    double.unsigned 0x419d6f34547e6b75#64 < double.infinity ∧
      ofText (float .double 0x419d6f34547e6b75#64).json.compact =
        .ok (float .double 0x419d6f34547e6b76#64) ∧
      float .double 0x419d6f34547e6b76#64 ≠ float .double 0x419d6f34547e6b75#64 := by
  refine ⟨by decide, by decide +kernel, by decide⟩

end Element

end DeviceTrial
