import DeviceTrial.Proofs.Envelope.Scalars

namespace DeviceTrial

namespace Cursor

variable {bound : Nat}

theorem control_of_code {b : UInt8} {form : Form} (h : form.code = b.toNat % 32) :
    control (.ofCode (b.toNat / 32)) form = b := by
  have hb := b.toNat_lt
  apply UInt8.toNat_inj.mp
  rw [toNat_control, TagForm.code_ofCode _ (by omega), h]
  omega

theorem reads_form (tag : Tag) (code : Nat) (fault : EnvelopeFault) :
    Reads bound
      (fun c => match Form.ofCode? code with
        | none => .error fault
        | some form => .ok ((tag, form), c))
      fun x bytes => (x.1 = tag ∧ x.2.code = code) ∧ bytes = [] := by
  cases hform : Form.ofCode? code with
  | none =>
    refine (reads_error fun _ => fault).congr fun x bytes => ?_
    constructor
    · exact False.elim
    · rintro ⟨⟨-, h⟩, -⟩
      rw [Form.ofCode?_eq_some_iff.mpr h] at hform
      cases hform
  | some form =>
    refine (reads_pure (tag, form)).congr fun x bytes => ?_
    obtain ⟨tag', form'⟩ := x
    rw [Prod.mk.injEq, ← @Form.ofCode?_eq_some_iff _ form', hform, Option.some.injEq,
      @eq_comm _ form]

theorem reads_tagged (offset control : Nat) : Reads bound (tagged offset control)
    fun (x : Tag × Form) bytes => UInt8.ofNat control ≠ endMark ∧
      Tag.Image (.ofCode (control / 32)) x.1 bytes ∧ x.2.code = control % 32 := by
  unfold tagged
  by_cases hend : UInt8.ofNat control = endMark
  · simp only [hend]
    refine (reads_error fun _ => .strayEndMark offset).congr fun x bytes => ?_
    simp
  · simp only [hend]
    refine ((reads_tag _).check fun _ tag =>
      reads_form tag (control % 32) (.unsupportedControl (UInt8.ofNat control) offset)).congr
      fun x bytes => ?_
    constructor
    · rintro ⟨tag, htag, rfl, hcode⟩
      exact ⟨hend, htag, hcode⟩
    · rintro ⟨-, htag, hcode⟩
      exact ⟨x.1, htag, rfl, hcode⟩

/-- A head is a control byte that is not the end mark, and the tag that it announces. -/
theorem isHead_iff {tag : Tag} {form : Form} {bytes : List UInt8} :
    IsHead tag form bytes ↔ ∃ n us vs, IsWord 1 n us ∧
      (UInt8.ofNat n ≠ endMark ∧ Tag.Image (.ofCode (n / 32)) tag vs ∧ form.code = n % 32) ∧
        bytes = us ++ vs := by
  constructor
  · rintro ⟨tagForm, us, ht, rfl⟩
    have hn := toNat_control tagForm form
    have htag := tagForm.code_lt
    have hcode := form.code_lt
    refine ⟨(control tagForm form).toNat, [control tagForm form], us,
      ⟨rfl, by simp [ofLittleEndian]⟩, ⟨?_, ?_, ?_⟩, rfl⟩
    · rw [UInt8.ofNat_toNat]
      exact control_ne_endMark tagForm form
    · have hdiv : (control tagForm form).toNat / 32 = tagForm.code := by omega
      rw [hdiv, TagForm.ofCode_code]
      exact ht
    · omega
  · rintro ⟨n, us, vs, ⟨hlen, rfl⟩, ⟨-, ht, hcode⟩, rfl⟩
    obtain ⟨b, rfl⟩ := List.length_eq_one_iff.mp hlen
    have hb : ofLittleEndian [b] = b.toNat := by simp [ofLittleEndian]
    rw [hb] at ht hcode
    refine ⟨_, vs, ht, ?_⟩
    rw [control_of_code hcode]
    rfl

theorem reads_head :
    Reads bound (fun c => c.head) fun (x : Tag × Form) bytes => IsHead x.1 x.2 bytes :=
  ((reads_word 1).bind fun c n => reads_tagged c.offset n).congr fun _ _ => isHead_iff.symm

/-- The images of elements whose children, if they are containers, have the images given. -/
inductive OuterImage (inside : List Element → List UInt8 → Prop) : Element → List UInt8 → Prop
  | leaf {tag : Tag} {s : Scalar} {us vs : List UInt8} (head : IsHead tag (.scalar s.form) us)
      (payload : Scalar.Image s vs) : OuterImage inside (.leaf tag s) (us ++ vs)
  | node {tag : Tag} {shape : Shape} {children : List Element} {us vs : List UInt8}
      (head : IsHead tag (.container shape) us) (body : inside children vs) :
      OuterImage inside (.node tag shape children) (us ++ vs)

def BodyImage (inside : List Element → List UInt8 → Prop) (tag : Tag) :
    Form → Element → List UInt8 → Prop
  | .scalar form, e, bytes => ∃ s, (s.form = form ∧ Scalar.Image s bytes) ∧ e = .leaf tag s
  | .container shape, e, bytes => ∃ es, inside es bytes ∧ e = .node tag shape es

theorem reads_body {read : Cursor → Except EnvelopeFault (List Element × Cursor)}
    {inside : List Element → List UInt8 → Prop} (h : Reads bound read inside) (tag : Tag)
    (form : Form) : Reads bound (body read tag form) (BodyImage inside tag form) := by
  cases form with
  | scalar form => exact (reads_scalar form).map (Element.leaf tag)
  | container shape => exact h.map (Element.node tag shape)

theorem reads_elementWith {read : Cursor → Except EnvelopeFault (List Element × Cursor)}
    {inside : List Element → List UInt8 → Prop} (h : Reads bound read inside) :
    Reads bound (elementWith read) (OuterImage inside) := by
  refine (reads_head.bind fun _ x => reads_body h x.1 x.2).congr fun e bytes => ?_
  constructor
  · rintro ⟨⟨tag, form⟩, us, vs, head, hrest, rfl⟩
    cases form with
    | scalar form =>
      obtain ⟨s, ⟨rfl, payload⟩, rfl⟩ := hrest
      exact .leaf head payload
    | container shape =>
      obtain ⟨es, hes, rfl⟩ := hrest
      exact .node head hes
  · intro h
    cases h with
    | leaf head payload => exact ⟨(_, _), _, _, head, ⟨_, ⟨rfl, payload⟩, rfl⟩, rfl⟩
    | node head hes => exact ⟨(_, .container _), _, _, head, ⟨_, hes, rfl⟩, rfl⟩

def ClosedImages (room : Nat) (es : List Element) (bytes : List UInt8) : Prop :=
  ∃ us, Element.Images es us ∧ Element.deepest es ≤ room ∧ bytes = us ++ [endMark]

def BoundedImage (room : Nat) (e : Element) (bytes : List UInt8) : Prop :=
  Element.Image e bytes ∧ e.nesting ≤ room

theorem outerImage_closedImages {room : Nat} {e : Element} {bytes : List UInt8} :
    OuterImage (ClosedImages room) e bytes ↔ BoundedImage (room + 1) e bytes := by
  constructor
  · intro h
    cases h with
    | leaf head payload => exact ⟨.leaf head payload, Nat.zero_le _⟩
    | node head hbody =>
      obtain ⟨us, himages, hdeep, rfl⟩ := hbody
      refine ⟨.node head himages, ?_⟩
      rw [Element.nesting]
      omega
  · rintro ⟨himage, hdeep⟩
    cases himage with
    | leaf head payload => exact .leaf head payload
    | node head himages =>
      rw [Element.nesting] at hdeep
      exact .node head ⟨_, himages, by omega, rfl⟩

theorem closedImages_nil {room : Nat} {bytes : List UInt8} :
    ClosedImages room [] bytes ↔ bytes = [endMark] := by
  constructor
  · rintro ⟨us, himages, -, rfl⟩
    cases himages
    rfl
  · rintro rfl
    exact ⟨[], .nil, Nat.zero_le _, rfl⟩

theorem closedImages_cons {room : Nat} {e : Element} {es : List Element} {bytes : List UInt8} :
    ClosedImages room (e :: es) bytes ↔
      ∃ us vs, BoundedImage room e us ∧ ClosedImages room es vs ∧ bytes = us ++ vs := by
  constructor
  · rintro ⟨_, himages, hdeep, rfl⟩
    cases himages with
    | cons first rest =>
      rw [Element.deepest, Nat.max_le] at hdeep
      exact ⟨_, _, ⟨first, hdeep.1⟩, ⟨_, rest, hdeep.2, rfl⟩, List.append_assoc ..⟩
  · rintro ⟨us, _, ⟨first, hdeep⟩, ⟨vs, rest, hdeep', rfl⟩, rfl⟩
    refine ⟨us ++ vs, .cons first rest, ?_, (List.append_assoc ..).symm⟩
    rw [Element.deepest, Nat.max_le]
    exact ⟨hdeep, hdeep'⟩

theorem passes_closedImages_endMark {room : Nat} {c next : Cursor} {rest : List UInt8}
    (hrest : c.rest = endMark :: rest) (es : List Element) :
    (∃ bytes, ClosedImages room es bytes ∧ c.Passes bytes next) ↔
      es = [] ∧ next = ⟨c.offset + 1, rest⟩ := by
  have hpass : c.Passes [endMark] next ↔ next = ⟨c.offset + 1, rest⟩ := by
    obtain ⟨offset', rest'⟩ := next
    simp only [Passes, hrest, List.singleton_append, List.cons.injEq, true_and,
      List.length_singleton, mk.injEq, eq_comm (a := rest), and_comm]
  cases es with
  | nil => simp [closedImages_nil, hpass]
  | cons e es =>
    -- an image never starts with the end mark
    refine iff_of_false ?_ (by simp)
    rintro ⟨bytes, hbytes, pass⟩
    obtain ⟨us, vs, ⟨himage, -⟩, -, rfl⟩ := closedImages_cons.mp hbytes
    obtain ⟨b, us, rfl, hb⟩ := himage.starts
    have heq := hrest.symm.trans pass.1
    simp only [List.cons_append, List.cons.injEq] at heq
    exact hb heq.1.symm

theorem passes_closedImages_of_ne {room : Nat} {c next : Cursor} {b : UInt8} {rest : List UInt8}
    (hrest : c.rest = b :: rest) (hb : b ≠ endMark) (es : List Element) :
    (∃ bytes, ClosedImages room es bytes ∧ c.Passes bytes next) ↔
      ∃ e others us middle, es = e :: others ∧ BoundedImage room e us ∧ c.Passes us middle ∧
        ∃ vs, ClosedImages room others vs ∧ middle.Passes vs next := by
  constructor
  · rintro ⟨bytes, hbytes, pass⟩
    cases es with
    | nil =>
      rw [closedImages_nil] at hbytes
      subst hbytes
      have heq := hrest.symm.trans pass.1
      simp only [List.cons_append, List.cons.injEq] at heq
      exact absurd heq.1 hb
    | cons e others =>
      obtain ⟨us, vs, hus, hvs, rfl⟩ := closedImages_cons.mp hbytes
      obtain ⟨middle, pass, pass'⟩ := passes_append_iff.mp pass
      exact ⟨e, others, us, middle, rfl, hus, pass, vs, hvs, pass'⟩
  · rintro ⟨e, others, us, middle, rfl, hus, pass, vs, hvs, pass'⟩
    exact ⟨us ++ vs, closedImages_cons.mpr ⟨us, vs, hus, hvs, rfl⟩,
      passes_append_iff.mpr ⟨middle, pass, pass'⟩⟩

theorem not_passes_closedImages {room : Nat} {c next : Cursor} (hrest : c.rest = [])
    (es : List Element) : ¬ ∃ bytes, ClosedImages room es bytes ∧ c.Passes bytes next := by
  rintro ⟨_, ⟨us, -, -, rfl⟩, heq, -⟩
  rw [hrest] at heq
  simp at heq

theorem BoundedImage.remaining_le {room count : Nat} {e : Element} {bytes : List UInt8}
    {c middle : Cursor} (h : BoundedImage room e bytes) (pass : c.Passes bytes middle)
    (hc : c.remaining ≤ count + 1) : middle.remaining ≤ count := by
  obtain ⟨b, us, rfl, -⟩ := h.1.starts
  have hlen := pass.remaining_eq
  rw [List.length_cons] at hlen
  omega

theorem children_of_ne {read : Cursor → Except EnvelopeFault (Element × Cursor)} {count : Nat}
    {found : List Element} {c : Cursor} {b : UInt8} {rest : List UInt8} (hrest : c.rest = b :: rest)
    (hb : b ≠ endMark) :
    children read (count + 1) found c =
      read c >>= fun x => children read count (x.1 :: found) x.2 := by
  simp only [children, hrest, if_neg hb]
  cases read c <;> rfl

/-- Every child takes a byte at least, so the bytes left bound the count of children still to
come. -/
theorem children_eq_ok_iff {room fuel : Nat}
    {read : Cursor → Except EnvelopeFault (Element × Cursor)}
    (h : Reads fuel read (BoundedImage room)) {count : Nat} (hcount : count ≤ fuel)
    (found : List Element) (c : Cursor) (hc : c.remaining ≤ count) (es : List Element)
    (next : Cursor) :
    children read count found c = .ok (es, next) ↔
      ∃ new, es = found.reverse ++ new ∧ ∃ bytes, ClosedImages room new bytes ∧
        c.Passes bytes next := by
  -- on the count: without bytes left there is no child, and each child leaves fewer bytes
  induction count generalizing found c with
  | zero =>
    have hnil : c.rest = [] := List.length_eq_zero_iff.mp (Nat.le_zero.mp hc)
    simp [children, not_passes_closedImages hnil]
  | succ count ih =>
    cases hrest : c.rest with
    | nil => simp [children, hrest, not_passes_closedImages hrest]
    | cons b rest =>
      by_cases hb : b = endMark
      · subst hb
        simp only [children, hrest, if_true, passes_closedImages_endMark hrest, Except.ok.injEq,
          Prod.mk.injEq]
        constructor
        · rintro ⟨rfl, rfl⟩
          exact ⟨[], (List.append_nil _).symm, rfl, rfl⟩
        · rintro ⟨_, rfl, rfl, rfl⟩
          exact ⟨(List.append_nil _).symm, rfl⟩
      · rw [children_of_ne hrest hb, bind_eq_ok_iff]
        simp only [passes_closedImages_of_ne hrest hb]
        constructor
        · rintro ⟨⟨e, middle⟩, hread, hchildren⟩
          obtain ⟨us, hus, pass⟩ := (h c (by omega) e middle).mp hread
          have hm : middle.remaining ≤ count := hus.remaining_le pass hc
          obtain ⟨new, rfl, hnew⟩ := (ih (by omega) (e :: found) middle hm).mp hchildren
          refine ⟨e :: new, ?_, e, new, us, middle, rfl, hus, pass, hnew⟩
          simp
        · rintro ⟨_, rfl, e, new, us, middle, rfl, hus, pass, hnew⟩
          have hm : middle.remaining ≤ count := hus.remaining_le pass hc
          refine ⟨(e, middle), (h c (by omega) e middle).mpr ⟨us, hus, pass⟩, ?_⟩
          exact (ih (by omega) (e :: found) middle hm).mpr ⟨new, by simp, hnew⟩

theorem reads_children {room fuel : Nat}
    {read : Cursor → Except EnvelopeFault (Element × Cursor)}
    (h : Reads fuel read (BoundedImage room)) :
    Reads fuel (children read fuel []) (ClosedImages room) := by
  intro c hc es next
  rw [children_eq_ok_iff h (Nat.le_refl fuel) [] c hc es next]
  simp

theorem reads_element (fuel room : Nat) :
    Reads fuel (element fuel room) (BoundedImage room) := by
  -- on the room, so that the readers of children are known when a container is read
  induction room with
  | zero =>
    refine (reads_elementWith (reads_error fun _ => .tooDeep maxDepth)).congr fun e bytes => ?_
    constructor
    · intro h
      cases h with
      | leaf head payload => exact ⟨.leaf head payload, Nat.le_refl 0⟩
      | node _ hbody => exact hbody.elim
    · rintro ⟨himage, hdeep⟩
      cases himage with
      | leaf head payload => exact .leaf head payload
      | node _ _ =>
        rw [Element.nesting] at hdeep
        omega
  | succ room ih =>
    exact (reads_elementWith (reads_children ih)).congr fun e bytes => outerImage_closedImages

/-- The next element of a buffer is read where an image of it stands that nests no deeper than
allowed, whatever follows. -/
theorem next_eq_ok_iff (c : Cursor) (e : Element) (after : Cursor) :
    c.next = .ok (e, after) ↔ ∃ bytes, BoundedImage maxDepth e bytes ∧ c.Passes bytes after :=
  reads_element c.remaining maxDepth c (Nat.le_refl _) e after

end Cursor

theorem decode_eq_ok_iff_next {bytes : List UInt8} {e : Element} :
    Element.decode bytes = .ok e ↔
      ∃ after : Cursor, (Cursor.ofBytes bytes).next = .ok (e, after) ∧ after.rest = [] := by
  unfold Element.decode
  rw [bind_eq_ok_iff]
  constructor
  · rintro ⟨⟨e', after⟩, hnext, h⟩
    by_cases hempty : after.isEmpty
    · simp only [hempty, if_true] at h
      cases h
      exact ⟨after, hnext, List.isEmpty_iff.mp hempty⟩
    · simp only [hempty] at h
      cases h
  · rintro ⟨after, hnext, hrest⟩
    refine ⟨(e, after), hnext, ?_⟩
    have hempty : after.isEmpty := List.isEmpty_iff.mpr hrest
    simp only [hempty, if_true]
    rfl

/-- A buffer is read as an envelope exactly if it is an image of it, as a whole, and containers nest
at most 32 deep. -/
theorem decode_eq_ok_iff_image (bytes : List UInt8) (e : Element) :
    Element.decode bytes = .ok e ↔ Element.Image e bytes ∧ e.nesting ≤ 32 := by
  rw [decode_eq_ok_iff_next]
  constructor
  · rintro ⟨after, hnext, hempty⟩
    obtain ⟨us, himage, hrest, -⟩ := (Cursor.next_eq_ok_iff _ _ _).mp hnext
    rw [hempty, List.append_nil] at hrest
    rw [show bytes = us from hrest]
    exact himage
  · intro himage
    refine ⟨⟨bytes.length, []⟩, (Cursor.next_eq_ok_iff _ _ _).mpr ⟨bytes, himage, ?_⟩, rfl⟩
    exact ⟨(List.append_nil bytes).symm, (Nat.zero_add bytes.length).symm⟩

end DeviceTrial
