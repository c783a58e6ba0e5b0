import DeviceTrial.Proofs.Envelope.Reading

namespace DeviceTrial

/-- What may be told of bytes that end too early at some place. -/
inductive EnvelopeFault.TellsEnd (stop : Nat) : EnvelopeFault → Prop
  | unexpectedEnd {offset : Nat} (before : offset ≤ stop) : TellsEnd stop (.unexpectedEnd offset)
  | unterminated : TellsEnd stop (.unterminated stop)

namespace Cursor

variable {α β : Type} {c : Cursor}

def stop (c : Cursor) : Nat := c.offset + c.remaining

/-- The bytes left are a start of the given ones, and some of these are missing. -/
def Lacks (c : Cursor) (bytes : List UInt8) : Prop := ∃ b missing, bytes = c.rest ++ b :: missing

theorem Lacks.remaining_lt {bytes : List UInt8} (h : c.Lacks bytes) :
    c.remaining < bytes.length := by
  obtain ⟨b, missing, rfl⟩ := h
  rw [List.length_append, List.length_cons, remaining]
  omega

theorem not_lacks_nil : ¬ c.Lacks [] := fun h => Nat.not_lt_zero _ h.remaining_lt

/-- Bytes are missing from the first of two parts, or the first one is there and bytes are missing
from the second one. -/
theorem Lacks.of_append {us vs : List UInt8} (h : c.Lacks (us ++ vs)) :
    c.Lacks us ∨ ∃ middle, c.Passes us middle ∧ middle.Lacks vs := by
  obtain ⟨b, missing, heq⟩ := h
  obtain ⟨more, hrest, rfl⟩ | ⟨more, rfl, hmore⟩ := List.append_eq_append_iff.mp heq
  · exact .inr ⟨⟨c.offset + us.length, more⟩, ⟨hrest, rfl⟩, b, missing, rfl⟩
  · cases more with
    | nil =>
      rw [List.append_nil] at heq ⊢
      exact .inr ⟨⟨c.offset + c.rest.length, []⟩, ⟨(List.append_nil _).symm, rfl⟩, b, missing,
        hmore.symm⟩
    | cons d more =>
      exact .inl ⟨d, more, rfl⟩

theorem Passes.stop_eq {middle : Cursor} {bytes : List UInt8} (h : c.Passes bytes middle) :
    middle.stop = c.stop := by
  have hlen := h.remaining_eq
  rw [stop, stop, h.2]
  omega

/-- Before the start of an image, from which bytes are missing, the reader tells that the bytes
have come to their end. -/
def Starves (bound : Nat) (read : Cursor → Except EnvelopeFault (α × Cursor))
    (image : α → List UInt8 → Prop) : Prop :=
  ∀ c : Cursor, c.remaining ≤ bound → ∀ a bytes, image a bytes → c.Lacks bytes →
    ∃ fault, read c = .error fault ∧ fault.TellsEnd c.stop

variable {bound : Nat} {read : Cursor → Except EnvelopeFault (α × Cursor)}
  {image : α → List UInt8 → Prop}

theorem Starves.mono {image' : α → List UInt8 → Prop} (h : Starves bound read image)
    (sub : ∀ a bytes, image' a bytes → image a bytes) : Starves bound read image' :=
  fun c hc a bytes himage => h c hc a bytes (sub a bytes himage)

theorem starves_nil : Starves bound read fun _ bytes => bytes = [] := by
  rintro c - a _ rfl hlacks
  exact (not_lacks_nil hlacks).elim

theorem Starves.bind {f : Cursor → α → Cursor → Except EnvelopeFault (β × Cursor)}
    {image' : α → β → List UInt8 → Prop} (reads : Reads bound read image)
    (h : Starves bound read image) (hf : ∀ c a, Starves bound (f c a) (image' a)) :
    Starves bound (fun c => read c >>= fun x => f c x.1 x.2) fun b bytes =>
      ∃ a us vs, image a us ∧ image' a b vs ∧ bytes = us ++ vs := by
  rintro c hc b _ ⟨a, us, vs, hus, hvs, rfl⟩ hlacks
  obtain hlacks | ⟨middle, pass, hlacks⟩ := hlacks.of_append
  · obtain ⟨fault, hread, htells⟩ := h c hc a us hus hlacks
    refine ⟨fault, ?_, htells⟩
    change read c >>= _ = _
    rw [hread]
    rfl
  · have hm : middle.remaining ≤ bound := by have := pass.remaining_eq; omega
    obtain ⟨fault, hrest, htells⟩ := hf c a middle hm b vs hvs hlacks
    rw [pass.stop_eq] at htells
    refine ⟨fault, ?_, htells⟩
    change read c >>= _ = _
    rw [(reads c hc a middle).mpr ⟨us, hus, pass⟩]
    exact hrest

/-- A reader that begins with another one, and reads nothing more, fails where that one does. -/
theorem Starves.first {read' : Cursor → Except EnvelopeFault (β × Cursor)}
    (h : Starves bound read image)
    (hfirst : ∀ c fault, read c = .error fault → read' c = .error fault) :
    Starves bound read' fun _ bytes => ∃ a, image a bytes := by
  rintro c hc b bytes ⟨a, ha⟩ hlacks
  obtain ⟨fault, hread, htells⟩ := h c hc a bytes ha hlacks
  exact ⟨fault, hfirst c fault hread, htells⟩

theorem Starves.map (h : Starves bound read image) (g : α → β) :
    Starves bound (fun c => read c >>= fun x => .ok (g x.1, x.2)) fun _ bytes =>
      ∃ a, image a bytes := by
  refine h.first fun c fault hread => ?_
  rw [hread]
  rfl

theorem starves_take (count : Nat) :
    Starves bound (fun c => c.take count) fun _ bytes => bytes.length = count := by
  rintro c - us bytes rfl hlacks
  refine ⟨.unexpectedEnd c.offset, if_neg fun hlen => ?_, .unexpectedEnd (Nat.le_add_right _ _)⟩
  have hlt := hlacks.remaining_lt
  rw [List.length_take, remaining] at *
  omega

theorem starves_word (count : Nat) :
    Starves bound (fun c => c.word count) fun n => IsWord count n :=
  ((starves_take count).map ofLittleEndian).mono fun _ bytes h => ⟨bytes, h.1⟩

theorem starves_sized (size : WordSize) :
    Starves bound (fun c => c.sized size) (IsSized size) := by
  refine ((starves_word size.bytes).bind (reads_word size.bytes) fun _ n => starves_take n).mono ?_
  rintro content _ ⟨us, hlength, rfl⟩
  exact ⟨content.length, us, content, hlength, rfl, rfl⟩

theorem starves_tag (form : TagForm) : Starves bound (fun c => c.tag form) (Tag.Image form) := by
  cases form with
  | anonymous =>
    refine starves_nil.mono fun t bytes h => ?_
    cases h
    rfl
  | context =>
    refine ((starves_word 1).map fun n => Tag.context (UInt8.ofNat n)).mono fun t bytes h => ?_
    cases h
    exact ⟨_, rfl, rfl⟩
  | common long =>
    refine ((starves_word _).map fun n => Tag.common (UInt32.ofNat n)).mono fun t bytes h => ?_
    cases h with
    | common number => exact ⟨_, number⟩
  | implicit long =>
    refine ((starves_word _).map fun n => Tag.implicit (UInt32.ofNat n)).mono fun t bytes h => ?_
    cases h with
    | implicit number => exact ⟨_, number⟩
  | qualified long =>
    refine ((starves_word 2).bind (reads_word 2) fun _ vendor =>
      (starves_word 2).bind (reads_word 2) fun _ profile => (starves_word _).map fun n =>
        Tag.qualified (UInt16.ofNat vendor) (UInt16.ofNat profile) (UInt32.ofNat n)).mono
      fun t bytes h => ?_
    cases h with
    | qualified first second number =>
      exact ⟨_, _, _, first, ⟨_, _, _, second, ⟨_, number⟩, rfl⟩, rfl⟩

theorem starves_scalar (form : ScalarForm) :
    Starves bound (fun c => c.scalar form) fun s bytes =>
      s.form = form ∧ Scalar.Image s bytes := by
  cases form with
  | bool | null =>
    refine starves_nil.mono ?_
    rintro s bytes ⟨hform, h⟩
    cases h <;> cases hform
    rfl
  | signed size | unsigned size | float size =>
    refine ((starves_word size.bytes).first fun c fault hread => ?_).mono ?_
    · change c.word size.bytes >>= _ = _
      rw [hread]
      rfl
    · rintro s bytes ⟨hform, h⟩
      cases h <;> cases hform
      exact ⟨_, ‹_›⟩
  -- a string is looked at when all of it has been taken
  | text size | bytes size =>
    refine ((starves_sized size).first fun c fault hread => ?_).mono ?_
    · change c.sized size >>= _ = _
      rw [hread]
      rfl
    · rintro s bytes ⟨hform, h⟩
      cases h <;> cases hform
      exact ⟨_, ‹_›⟩

theorem starves_tagged (offset control : Nat) : Starves bound (tagged offset control)
    fun (x : Tag × Form) bytes => UInt8.ofNat control ≠ endMark ∧
      Tag.Image (.ofCode (control / 32)) x.1 bytes ∧ x.2.code = control % 32 := by
  by_cases hend : UInt8.ofNat control = endMark
  · rintro c - x bytes ⟨hne, -⟩
    exact (hne hend).elim
  · refine ((starves_tag (.ofCode (control / 32))).first fun c fault hread => ?_).mono
      fun x bytes h => ⟨x.1, h.2.1⟩
    unfold tagged
    rw [if_neg hend, hread]
    rfl

theorem starves_head :
    Starves bound (fun c => c.head) fun (x : Tag × Form) bytes => IsHead x.1 x.2 bytes :=
  ((starves_word 1).bind (reads_word 1) fun c n => starves_tagged c.offset n).mono
    fun _ _ => isHead_iff.mp

theorem starves_body {inside : Cursor → Except EnvelopeFault (List Element × Cursor)}
    {images : List Element → List UInt8 → Prop} (h : Starves bound inside images) (tag : Tag)
    (form : Form) : Starves bound (body inside tag form) (BodyImage images tag form) := by
  cases form with
  | scalar form =>
    exact ((starves_scalar form).map (Element.leaf tag)).mono fun _ _ h => h.imp fun _ => And.left
  | container shape =>
    exact (h.map (Element.node tag shape)).mono fun _ _ h => h.imp fun _ => And.left

theorem starves_elementWith {inside : Cursor → Except EnvelopeFault (List Element × Cursor)}
    {images : List Element → List UInt8 → Prop} (h : Starves bound inside images) :
    Starves bound (elementWith inside) (OuterImage images) := by
  refine (starves_head.bind reads_head fun _ x => starves_body h x.1 x.2).mono ?_
  rintro e _ (⟨head, payload⟩ | ⟨head, hes⟩)
  · exact ⟨(_, _), _, _, head, ⟨_, ⟨rfl, payload⟩, rfl⟩, rfl⟩
  · exact ⟨(_, .container _), _, _, head, ⟨_, hes, rfl⟩, rfl⟩

/-- Where bytes are missing from children, any byte that is there belongs to a further child. -/
theorem Lacks.exists_child {room : Nat} {es : List Element} {bytes : List UInt8}
    (h : c.Lacks bytes) (himages : ClosedImages room es bytes) {b : UInt8} {rest : List UInt8}
    (hrest : c.rest = b :: rest) :
    b ≠ endMark ∧ ∃ e others us vs, es = e :: others ∧ BoundedImage room e us ∧
      ClosedImages room others vs ∧ bytes = us ++ vs := by
  obtain ⟨d, missing, heq⟩ := h
  rw [hrest] at heq
  cases es with
  | nil =>
    rw [closedImages_nil.mp himages] at heq
    simp at heq
  | cons e others =>
    obtain ⟨us, vs, hus, hvs, rfl⟩ := closedImages_cons.mp himages
    refine ⟨?_, e, others, us, vs, rfl, hus, hvs, rfl⟩
    obtain ⟨b', us, rfl, hne⟩ := hus.1.starts
    rw [List.cons_append, List.cons_append, List.cons.injEq] at heq
    rwa [← heq.1]

theorem starves_children_of_le {room fuel : Nat}
    {read : Cursor → Except EnvelopeFault (Element × Cursor)}
    (reads : Reads fuel read (BoundedImage room)) (h : Starves fuel read (BoundedImage room))
    {count : Nat} (hcount : count ≤ fuel) (found : List Element) :
    Starves count (children read count found) (ClosedImages room) := by
  -- on the count: the first child that is not there as a whole ends the reading
  induction count generalizing found with
  | zero =>
    intro c hc es bytes _ _
    refine ⟨_, rfl, ?_⟩
    rw [show c.offset = c.stop by rw [stop]; omega]
    exact .unterminated
  | succ count ih =>
    intro c hc es bytes himages hlacks
    cases hrest : c.rest with
    | nil =>
      refine ⟨.unterminated c.offset, by simp only [children, hrest], ?_⟩
      rw [show c.offset = c.stop by rw [stop, remaining, hrest]; rfl]
      exact .unterminated
    | cons b rest =>
      obtain ⟨hb, e, others, us, vs, rfl, hus, hvs, rfl⟩ := hlacks.exists_child himages hrest
      rw [children_of_ne hrest hb]
      obtain hlacks | ⟨middle, pass, hlacks⟩ := hlacks.of_append
      · obtain ⟨fault, hread, htells⟩ := h c (by omega) e us hus hlacks
        rw [hread]
        exact ⟨fault, rfl, htells⟩
      · have hm : middle.remaining ≤ count := hus.remaining_le pass hc
        rw [(reads c (by omega) e middle).mpr ⟨us, hus, pass⟩, ← pass.stop_eq]
        exact ih (by omega) (e :: found) middle hm others vs hvs hlacks

theorem starves_element (fuel room : Nat) :
    Starves fuel (element fuel room) (BoundedImage room) := by
  induction room with
  | zero =>
    -- there is no room for a container, so only leaves have images
    have hnone : Starves fuel (fun _ => .error (.tooDeep maxDepth)) fun (_ : List Element) _ =>
      False := fun _ _ _ _ h => h.elim
    refine (starves_elementWith hnone).mono fun e bytes h => ?_
    obtain ⟨himage, hdeep⟩ := h
    cases himage with
    | leaf head payload => exact .leaf head payload
    | node _ _ =>
      rw [Element.nesting] at hdeep
      omega
  | succ room ih =>
    have hchildren := starves_children_of_le (reads_element fuel room) ih (Nat.le_refl fuel) []
    exact (starves_elementWith hchildren).mono fun _ _ => outerImage_closedImages.mpr

end Cursor

/-- A buffer that is cut off anywhere fails to be read, and the only fault that is told is its end:
some piece of an element goes beyond it, or it stands where a container should go on. -/
theorem decode_take {bytes : List UInt8} {e : Element} (h : Element.decode bytes = .ok e) {n : Nat}
    (hn : n < bytes.length) :
    (∃ offset ≤ n, Element.decode (bytes.take n) = .error (.unexpectedEnd offset)) ∨
      Element.decode (bytes.take n) = .error (.unterminated n) := by
  let c := Cursor.ofBytes (bytes.take n)
  have hlen : (bytes.take n).length = n := List.length_take_of_le (Nat.le_of_lt hn)
  have hstop : c.stop = n := (Nat.zero_add _).trans hlen
  have hlacks : c.Lacks bytes := by
    refine ⟨bytes[n], bytes.drop (n + 1), ?_⟩
    rw [List.getElem_cons_drop]
    exact (List.take_append_drop n bytes).symm
  obtain ⟨fault, hread, htells⟩ := Cursor.starves_element c.remaining maxDepth c (Nat.le_refl _) e
    bytes ((decode_eq_ok_iff_image bytes e).mp h) hlacks
  have hdecode : Element.decode (bytes.take n) = .error fault := by
    change c.next >>= _ = _
    rw [Cursor.next, hread]
    rfl
  rw [hstop] at htells
  rw [hdecode]
  cases htells with
  | unexpectedEnd before => exact .inl ⟨_, before, rfl⟩
  | unterminated => exact .inr rfl

/-- A structure with a text. Cut off inside a character of the text it is not the text that is at
fault, but the string that is not there as a whole. -/
theorem decode_take_text :
    let bytes : List UInt8 := [0x15, 0x2C, 1, 2, 0xC3, 0xA9, 0x18]
    let e : Element := .node .anonymous .struct [.leaf (.context 1) (.text .one "é" (by decide))]
    Element.decode bytes = .ok e ∧
      (∀ n < 7, (∃ offset ≤ n, Element.decode (bytes.take n) = .error (.unexpectedEnd offset)) ∨
        Element.decode (bytes.take n) = .error (.unterminated n)) ∧
      Element.decode (bytes.take 5) = .error (.unexpectedEnd 4) ∧
      Element.decode (bytes.take 6) = .error (.unterminated 6) := by
  intro bytes e
  have h : Element.decode bytes = .ok e := by decide
  exact ⟨h, fun n hn => decode_take h hn, by decide, by decide⟩

end DeviceTrial
