import DeviceTrial.Proofs.Envelope.RoundTrip

namespace DeviceTrial

theorem littleEndian_ofLittleEndian (bytes : List UInt8) :
    littleEndian bytes.length (ofLittleEndian bytes) = bytes := by
  induction bytes with
  | nil => rfl
  | cons b bs ih =>
    have hb := b.toNat_lt
    have hlow : UInt8.ofNat (ofLittleEndian (b :: bs)) = b := by
      apply UInt8.toNat_inj.mp
      rw [UInt8.toNat_ofNat', ofLittleEndian]
      omega
    have hhigh : ofLittleEndian (b :: bs) / 256 = ofLittleEndian bs := by
      rw [ofLittleEndian]
      omega
    rw [List.length_cons, littleEndian, hlow, hhigh, ih]

theorem IsWord.eq_littleEndian {count n : Nat} {bytes : List UInt8} (h : IsWord count n bytes) :
    bytes = littleEndian count n := by
  rw [← h.1, ← h.2]
  exact (littleEndian_ofLittleEndian bytes).symm

theorem IsSized.eq_append {size : WordSize} {content bytes : List UInt8}
    (h : IsSized size content bytes) :
    bytes = littleEndian size.bytes content.length ++ content := by
  obtain ⟨length, hlength, rfl⟩ := h
  rw [hlength.eq_littleEndian]

theorem Scalar.Image.eq_payload {s : Scalar} {bytes : List UInt8} (h : Scalar.Image s bytes) :
    bytes = s.payload := by
  cases h with
  | bool v => rfl
  | null => rfl
  | signed word => exact word.eq_littleEndian
  | unsigned word => exact word.eq_littleEndian
  | float word => exact word.eq_littleEndian
  | text sized =>
    rw [sized.eq_append, length_toUTF8]
    rfl
  | bytes sized => exact sized.eq_append

theorem Scalar.Image.isShort {s : Scalar} {bytes : List UInt8} (h : Scalar.Image s bytes) :
    s.length < WordSize.eight.words := by
  have hwords (size : WordSize) : Nat.pow 256 size.bytes ≤ WordSize.eight.words := by
    cases size <;> decide
  have hsized {size : WordSize} {content : List UInt8} (h : IsSized size content bytes) :
      content.length < WordSize.eight.words := by
    obtain ⟨length, hlength, -⟩ := h
    exact Nat.lt_of_lt_of_le hlength.lt (hwords size)
  cases h with
  | bool | null | signed | unsigned | float => exact (by decide : 0 < WordSize.eight.words)
  | text sized =>
    rw [Scalar.length, ← length_toUTF8]
    exact hsized sized
  | bytes sized => exact hsized sized

def TagForm.isLong : TagForm → Bool
  | common long | implicit long | qualified long => long
  | anonymous | context => false

/-- The tag stands in the long form although its number fits the short one. -/
def isPadded (tag : TagForm × Tag) : Bool := tag.1.isLong && !tag.2.long

theorem Tag.Image.eq_bytes {form : TagForm} {tag : Tag} {bytes : List UInt8}
    (h : Tag.Image form tag bytes) : bytes = tag.bytes form.isLong := by
  cases h with
  | anonymous => rfl
  | context n => rfl
  | common number => exact number.eq_littleEndian
  | implicit number => exact number.eq_littleEndian
  | qualified first second number =>
    rw [first.eq_littleEndian, second.eq_littleEndian, number.eq_littleEndian, ← List.append_assoc]
    rfl

/-- A number in the short form fits there. -/
theorem isLong_of_isWord {long : Bool} {n : UInt32} {bytes : List UInt8}
    (h : IsWord (TagForm.numberWidth long) n.toNat bytes) (hlong : isLong n = true) :
    long = true := by
  cases long with
  | true => rfl
  | false =>
    have hlt : n.toNat < 65536 := h.lt
    have hgt : 65535 < n.toNat := of_decide_eq_true hlong
    omega

theorem Tag.Image.isLong_of_long {form : TagForm} {tag : Tag} {bytes : List UInt8}
    (h : Tag.Image form tag bytes) (hlong : tag.long = true) : form.isLong = true := by
  cases h with
  | anonymous | context => cases hlong
  | common number => exact isLong_of_isWord number hlong
  | implicit number => exact isLong_of_isWord number hlong
  | qualified _ _ number => exact isLong_of_isWord number hlong

theorem Tag.Image.form_eq {form : TagForm} {tag : Tag} {bytes : List UInt8}
    (h : Tag.Image form tag bytes) (hlong : form.isLong = tag.long) : form = tag.form := by
  cases h with
  | anonymous | context => rfl
  | common => exact congrArg TagForm.common hlong
  | implicit => exact congrArg TagForm.implicit hlong
  | qualified => exact congrArg TagForm.qualified hlong

theorem numberWidth_eq {long needed : Bool} (h : needed = true → long = true) :
    TagForm.numberWidth long =
      TagForm.numberWidth needed + 2 * (long && !needed).toNat := by
  cases needed with
  | true => rw [h rfl]; rfl
  | false => cases long <;> rfl

/-- A tag in the long form without need takes two bytes more than it needs. -/
theorem Tag.Image.length_eq {form : TagForm} {tag : Tag} {bytes : List UInt8}
    (h : Tag.Image form tag bytes) :
    bytes.length = (tag.bytes tag.long).length + 2 * [(form, tag)].countP isPadded := by
  have hwidth := numberWidth_eq h.isLong_of_long
  have hcount : [(form, tag)].countP isPadded = (form.isLong && !tag.long).toNat := by
    rw [List.countP_singleton, isPadded]
    cases (form.isLong && !tag.long) <;> rfl
  rw [h.eq_bytes, hcount]
  cases h with
  | anonymous | context => rfl
  | common | implicit =>
    rw [Tag.bytes, Tag.bytes, length_littleEndian, length_littleEndian]
    exact hwidth
  | qualified =>
    simp only [Tag.bytes, List.length_append, length_littleEndian]
    omega

theorem Tag.Image.eq_of_not_isPadded {form : TagForm} {tag : Tag} {bytes : List UInt8}
    (h : Tag.Image form tag bytes) (hnone : [(form, tag)].countP isPadded = 0) :
    form = tag.form ∧ bytes = tag.bytes tag.long := by
  have hlong : form.isLong = tag.long := by
    have hneeded := h.isLong_of_long
    rw [List.countP_eq_zero] at hnone
    have hpadded := hnone _ (List.mem_singleton_self _)
    unfold isPadded at hpadded
    cases hform : form.isLong <;> cases htag : tag.long <;> simp_all
  exact ⟨h.form_eq hlong, hlong ▸ h.eq_bytes⟩

mutual

/-- The bytes are an image of the element in which its tags, from left to right, stand in the forms
listed. -/
inductive Element.Written : Element → List (TagForm × Tag) → List UInt8 → Prop
  | leaf {tag : Tag} {form : TagForm} {s : Scalar} {us vs : List UInt8}
      (head : Tag.Image form tag us) (payload : Scalar.Image s vs) :
      Written (.leaf tag s) [(form, tag)] (control form (.scalar s.form) :: us ++ vs)
  | node {tag : Tag} {form : TagForm} {shape : Shape} {children : List Element}
      {tags : List (TagForm × Tag)} {us vs : List UInt8} (head : Tag.Image form tag us)
      (body : Element.AllWritten children tags vs) :
      Written (.node tag shape children) ((form, tag) :: tags)
        (control form (.container shape) :: us ++ (vs ++ [endMark]))

inductive Element.AllWritten : List Element → List (TagForm × Tag) → List UInt8 → Prop
  | nil : AllWritten [] [] []
  | cons {e : Element} {es : List Element} {tags others : List (TagForm × Tag)}
      {us vs : List UInt8} (first : Element.Written e tags us)
      (rest : AllWritten es others vs) : AllWritten (e :: es) (tags ++ others) (us ++ vs)

end

namespace Element

-- An image is taken apart along the tree; the tags of children follow that of their container.
mutual

theorem exists_written (e : Element) {bytes : List UInt8} (h : Image e bytes) :
    ∃ tags, Written e tags bytes := by
  cases h with
  | leaf head payload =>
    obtain ⟨form, us, himage, rfl⟩ := head
    exact ⟨_, .leaf himage payload⟩
  | node head body =>
    obtain ⟨form, us, himage, rfl⟩ := head
    obtain ⟨tags, hbody⟩ := exists_allWritten _ body
    exact ⟨_, .node himage hbody⟩

theorem exists_allWritten (es : List Element) {bytes : List UInt8} (h : Images es bytes) :
    ∃ tags, AllWritten es tags bytes := by
  cases h with
  | nil => exact ⟨[], .nil⟩
  | cons first rest =>
    obtain ⟨tags, hfirst⟩ := exists_written _ first
    obtain ⟨others, hrest⟩ := exists_allWritten _ rest
    exact ⟨_, .cons hfirst hrest⟩

end

theorem countP_cons_eq (tag : TagForm × Tag) (tags : List (TagForm × Tag)) :
    (tag :: tags).countP isPadded = [tag].countP isPadded + tags.countP isPadded :=
  @List.countP_append _ isPadded [tag] tags

mutual

theorem Written.length_eq {e : Element} {tags : List (TagForm × Tag)} {bytes : List UInt8}
    (h : Written e tags bytes) : bytes.length = e.encode.length + 2 * tags.countP isPadded := by
  cases h with
  | leaf head payload =>
    have hhead := head.length_eq
    rw [encode, Element.head, payload.eq_payload]
    simp only [List.length_append, List.length_cons]
    omega
  | node head body =>
    have hhead := head.length_eq
    have hbody := body.length_eq
    rw [encode, Element.head, countP_cons_eq]
    simp only [List.length_append, List.length_cons]
    omega

theorem AllWritten.length_eq {es : List Element} {tags : List (TagForm × Tag)}
    {bytes : List UInt8} (h : AllWritten es tags bytes) :
    bytes.length = (encodeAll es).length + 2 * tags.countP isPadded := by
  cases h with
  | nil => rfl
  | cons first rest =>
    have hfirst := first.length_eq
    have hrest := rest.length_eq
    rw [encodeAll, List.countP_append, List.length_append, List.length_append]
    omega

end

mutual

theorem Written.eq_encode {e : Element} {tags : List (TagForm × Tag)} {bytes : List UInt8}
    (h : Written e tags bytes) (hnone : tags.countP isPadded = 0) : bytes = e.encode := by
  cases h with
  | leaf head payload =>
    obtain ⟨rfl, hbytes⟩ := head.eq_of_not_isPadded hnone
    rw [encode, Element.head, payload.eq_payload, hbytes]
  | node head body =>
    rw [countP_cons_eq, Nat.add_eq_zero_iff] at hnone
    obtain ⟨rfl, hbytes⟩ := head.eq_of_not_isPadded hnone.1
    rw [encode, Element.head, body.eq_encodeAll hnone.2, hbytes]

theorem AllWritten.eq_encodeAll {es : List Element} {tags : List (TagForm × Tag)}
    {bytes : List UInt8} (h : AllWritten es tags bytes) (hnone : tags.countP isPadded = 0) :
    bytes = encodeAll es := by
  cases h with
  | nil => rfl
  | cons first rest =>
    rw [List.countP_append, Nat.add_eq_zero_iff] at hnone
    rw [encodeAll, first.eq_encode hnone.1, rest.eq_encodeAll hnone.2]

end

theorem Written.encode_eq_iff {e : Element} {tags : List (TagForm × Tag)} {bytes : List UInt8}
    (h : Written e tags bytes) : e.encode = bytes ↔ tags.countP isPadded = 0 := by
  constructor
  · rintro rfl
    have hlen := h.length_eq
    omega
  · intro hnone
    exact (h.eq_encode hnone).symm

theorem control_inj {form form' : TagForm} {f : Form} (h : control form f = control form' f) :
    form = form' := by
  have hn := congrArg UInt8.toNat h
  rw [toNat_control, toNat_control] at hn
  have hcode : form.code = form'.code := by omega
  rw [← TagForm.ofCode_code form, hcode, TagForm.ofCode_code]

/-- One tag behind a control byte of the same kind is read in one way, whatever follows. -/
theorem head_unique {tag : Tag} {form form' : TagForm} {f : Form} {us vs us' vs' : List UInt8}
    (h : Tag.Image form tag us) (h' : Tag.Image form' tag us')
    (heq : control form f :: us ++ vs = control form' f :: us' ++ vs') :
    form = form' ∧ us = us' ∧ vs = vs' := by
  rw [List.cons_append, List.cons_append, List.cons.injEq] at heq
  obtain rfl := control_inj heq.1
  have hus : us = us' := h.eq_bytes.trans h'.eq_bytes.symm
  subst hus
  exact ⟨rfl, rfl, List.append_cancel_left heq.2⟩

mutual

theorem Written.unique {e : Element} {tags tags' : List (TagForm × Tag)}
    {bytes bytes' rest rest' : List UInt8} (h : Written e tags bytes)
    (h' : Written e tags' bytes') (heq : bytes ++ rest = bytes' ++ rest') :
    tags = tags' ∧ rest = rest' := by
  cases h with
  | leaf head payload =>
    cases h' with
    | leaf head' payload' =>
      rw [List.append_assoc, List.append_assoc] at heq
      obtain ⟨rfl, -, hrest⟩ := head_unique head head' heq
      rw [payload.eq_payload, payload'.eq_payload] at hrest
      exact ⟨rfl, List.append_cancel_left hrest⟩
  | node head body =>
    cases h' with
    | node head' body' =>
      simp only [List.append_assoc] at heq
      obtain ⟨rfl, -, hrest⟩ := head_unique head head' heq
      obtain ⟨rfl, hend⟩ := body.unique body' hrest
      exact ⟨rfl, List.append_cancel_left hend⟩

theorem AllWritten.unique {es : List Element} {tags tags' : List (TagForm × Tag)}
    {bytes bytes' rest rest' : List UInt8} (h : AllWritten es tags bytes)
    (h' : AllWritten es tags' bytes') (heq : bytes ++ rest = bytes' ++ rest') :
    tags = tags' ∧ rest = rest' := by
  cases h with
  | nil =>
    cases h'
    exact ⟨rfl, heq⟩
  | cons first others =>
    cases h' with
    | cons first' others' =>
      rw [List.append_assoc, List.append_assoc] at heq
      obtain ⟨rfl, hrest⟩ := first.unique first' heq
      obtain ⟨rfl, hend⟩ := others.unique others' hrest
      exact ⟨rfl, hend⟩

end

mutual

theorem Image.isShort {e : Element} {bytes : List UInt8} (h : Image e bytes) : e.IsShort := by
  cases h with
  | leaf head payload =>
    intro s hs
    rw [List.mem_singleton.mp hs]
    exact payload.isShort
  | node head body => exact body.areShort

theorem Images.areShort {es : List Element} {bytes : List UInt8} (h : Images es bytes) :
    AreShort es := by
  cases h with
  | nil =>
    intro s hs
    cases hs
  | cons first rest => exact areShort_cons_iff.mpr ⟨first.isShort, rest.areShort⟩

end

end Element

/-- An envelope that was read comes back when it is written and read again. What is written is
shorter by two bytes for each tag of the buffer, however deep it stands, that has the long form
without need; it is the buffer itself if there is no such tag. -/
theorem reencode_of_decode {bytes : List UInt8} {e : Element}
    (h : Element.decode bytes = .ok e) :
    Element.decode e.encode = .ok e ∧
      ∃ tags, (e.Written tags bytes ∧ ∀ others, e.Written others bytes → others = tags) ∧
        bytes.length = e.encode.length + 2 * tags.countP isPadded ∧
        (e.encode = bytes ↔ tags.countP isPadded = 0) := by
  obtain ⟨himage, hdepth⟩ := (decode_eq_ok_iff_image bytes e).mp h
  obtain ⟨tags, hwritten⟩ := e.exists_written himage
  refine ⟨?_, tags, ⟨hwritten, ?_⟩, hwritten.length_eq, hwritten.encode_eq_iff⟩
  · rw [decode_eq_ok_iff_image]
    exact ⟨e.image_encode himage.isShort, hdepth⟩
  · intro others hothers
    have heq : bytes ++ [] = bytes ++ [] := rfl
    exact (hothers.unique hwritten heq).1

/-- A structure and a child under tags in the long form, both without need. -/
theorem reencode_of_decode_padded :
    let bytes : List UInt8 := [0x75, 5, 0, 0, 0, 0x24, 1, 7, 0xB4, 9, 0, 0, 0, 0x18]
    let e : Element := .node (.common 5) .struct
      [.leaf (.context 1) (.unsigned .one 7), .leaf (.implicit 9) .null]
    Element.decode bytes = .ok e ∧ Element.decode e.encode = .ok e ∧
      bytes.length = e.encode.length + 2 * 2 := by
  intro bytes e
  have h : Element.decode bytes = .ok e := by decide
  obtain ⟨hback, tags, ⟨-, hunique⟩, hlen, -⟩ := reencode_of_decode h
  have hroot : Tag.Image (.common true) (.common 5) [5, 0, 0, 0] := .common ⟨rfl, rfl⟩
  have hlast : Tag.Image (.implicit true) (.implicit 9) [9, 0, 0, 0] := .implicit ⟨rfl, rfl⟩
  have hseven : Scalar.Image (.unsigned .one 7) [7] := .unsigned ⟨rfl, rfl⟩
  have hwritten : e.Written [(.common true, .common 5), (.context, .context 1),
      (.implicit true, .implicit 9)] bytes :=
    .node hroot (.cons (.leaf (.context 1) hseven) (.cons (.leaf hlast .null) .nil))
  rw [← hunique _ hwritten] at hlen
  exact ⟨h, hback, hlen⟩

end DeviceTrial
