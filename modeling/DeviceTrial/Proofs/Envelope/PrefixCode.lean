import DeviceTrial.Proofs.Envelope.RoundTrip

/-!
Encodings form a prefix code.

Where reading stops does not depend on how deep containers may be nested, as long as there is room
for the element that stands there. So two encodings that start the same bytes are read as one and
the same element, also beyond the nesting that is read otherwise.
-/

namespace DeviceTrial

namespace Element

theorem encode_append_inj {e e' : Element} (short : e.IsShort) (short' : e'.IsShort)
    {us vs : List UInt8} (h : e.encode ++ us = e'.encode ++ vs) : e = e' ∧ us = vs := by
  -- one reading, with room for both
  let c := Cursor.ofBytes (e.encode ++ us)
  have hread : Cursor.element c.remaining (max e.nesting e'.nesting) c =
      .ok (e, ⟨c.offset + e.encode.length, us⟩) :=
    Cursor.element_encode (Nat.le_refl _) short (Nat.le_max_left ..) rfl
  have hread' : Cursor.element c.remaining (max e.nesting e'.nesting) c =
      .ok (e', ⟨c.offset + e'.encode.length, vs⟩) :=
    Cursor.element_encode (Nat.le_refl _) short' (Nat.le_max_right ..) h
  rw [hread] at hread'
  cases hread'
  exact ⟨rfl, rfl⟩

theorem encode_ne_nil (e : Element) : e.encode ≠ [] := by
  cases e <;> simp [encode, head]

theorem encode_prefix_iff {e e' : Element} (short : e.IsShort) (short' : e'.IsShort) :
    e.encode <+: e'.encode ↔ e = e' := by
  constructor
  · rintro ⟨us, h⟩
    have hinj : e.encode ++ us = e'.encode ++ [] := h.trans (List.append_nil _).symm
    exact (encode_append_inj short short' hinj).1
  · rintro rfl
    exact List.prefix_refl _

/-- Encodings one behind the other start others of that kind only if the elements do. -/
theorem encodeAll_prefix_iff {es es' : List Element} (short : AreShort es)
    (short' : AreShort es') : encodeAll es <+: encodeAll es' ↔ es <+: es' := by
  induction es generalizing es' with
  | nil => simp [encodeAll]
  | cons e es ih =>
    obtain ⟨first, others⟩ := areShort_cons_iff.mp short
    cases es' with
    | nil => simp [encodeAll, e.encode_ne_nil]
    | cons e' es' =>
      obtain ⟨first', others'⟩ := areShort_cons_iff.mp short'
      rw [List.cons_prefix_cons, ← ih others others']
      simp only [encodeAll]
      -- what starts with one encoding starts with no other, so the heads agree
      constructor
      · rintro ⟨us, h⟩
        rw [List.append_assoc] at h
        obtain ⟨rfl, hrest⟩ := encode_append_inj first first' h
        exact ⟨rfl, us, hrest⟩
      · rintro ⟨rfl, hrest⟩
        exact (List.prefix_append_right_inj e.encode).mpr hrest

/-- No encoding starts another one, however deep containers are nested. So an element is known from
its encoding, and elements from their encodings one behind the other: these start the encodings of
other elements just if the elements do. -/
theorem encode_prefixCode :
    (∀ e e' : Element, e.IsShort → e'.IsShort → (e.encode <+: e'.encode ↔ e = e')) ∧
      (∀ e e' : Element, e.IsShort → e'.IsShort → e.encode = e'.encode → e = e') ∧
      ∀ es es' : List Element, AreShort es → AreShort es' →
        (encodeAll es <+: encodeAll es' ↔ es <+: es') ∧
          (encodeAll es = encodeAll es' → es = es') := by
  refine ⟨fun e e' short short' => encode_prefix_iff short short', fun e e' short short' h => ?_,
    fun es es' short short' => ⟨encodeAll_prefix_iff short short', fun h => ?_⟩⟩
  · exact (encode_prefix_iff short short').mp (h ▸ List.prefix_refl _)
  · have hle := (encodeAll_prefix_iff short short').mp (h ▸ List.prefix_refl _)
    have hge := (encodeAll_prefix_iff short' short).mp (h ▸ List.prefix_refl _)
    exact hle.eq_of_length_le hge.length_le

/-- Forty containers in each other, around nothing and around the null value. They agree up to where
the innermost one is closed or goes on, and neither encoding starts the other. -/
theorem encode_prefixCode_deep :
    let deep (es : List Element) : Element :=
      (List.range 39).foldl (fun e _ => .list [e]) (.list es)
    (deep []).nesting = 40 ∧ (deep []).IsShort ∧ (deep [.null]).IsShort ∧
      ¬ (deep []).encode <+: (deep [.null]).encode ∧
      ¬ encodeAll [deep [.null]] <+: encodeAll [deep [], deep [.null]] := by
  intro deep
  have short : (deep []).IsShort := by unfold IsShort; decide
  have short' : (deep [.null]).IsShort := by unfold IsShort; decide
  have hne : deep [] ≠ deep [.null] := by decide +kernel
  obtain ⟨hone, -, hmany⟩ := encode_prefixCode
  refine ⟨by decide +kernel, short, short', mt (hone _ _ short short').mp hne, ?_⟩
  have hshort : AreShort [deep [.null]] := by unfold AreShort; decide
  have hshort' : AreShort [deep [], deep [.null]] := by unfold AreShort; decide
  refine mt (hmany _ _ hshort hshort').1.mp fun hprefix => ?_
  exact hne (List.cons_prefix_cons.mp hprefix).1.symm

end Element

end DeviceTrial
