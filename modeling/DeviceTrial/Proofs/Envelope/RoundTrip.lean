import DeviceTrial.Envelope.Writer
import DeviceTrial.Proofs.Envelope.Reading

namespace DeviceTrial

def Scalar.length : Scalar → Nat
  | .text _ v _ => v.utf8ByteSize
  | .bytes _ v _ => v.length
  | _ => 0

namespace Element

mutual

/-- The scalars of all leaves, from left to right. -/
def scalars : Element → List Scalar
  | leaf _ s => [s]
  | node _ _ children => scalarsOfAll children

def scalarsOfAll : List Element → List Scalar
  | [] => []
  | e :: es => scalars e ++ scalarsOfAll es

end

/-- Every string is shorter than a length field of eight bytes can tell. -/
def IsShort (e : Element) : Prop := ∀ s ∈ e.scalars, s.length < WordSize.eight.words

def AreShort (es : List Element) : Prop := ∀ s ∈ scalarsOfAll es, s.length < WordSize.eight.words

theorem areShort_cons_iff {e : Element} {es : List Element} :
    AreShort (e :: es) ↔ e.IsShort ∧ AreShort es :=
  List.forall_mem_append

end Element

theorem WordSize.lt_pow_of_holds {size : WordSize} {n : Nat} (h : size.holds n = true)
    (short : n < WordSize.eight.words) : n < Nat.pow 256 size.bytes := by
  cases size with
  | one | two | four => exact of_decide_eq_true h
  | eight => exact short

theorem Tag.image_bytes (t : Tag) : Tag.Image t.form t (t.bytes t.long) := by
  have hnumber (n : UInt32) : IsWord (TagForm.numberWidth (isLong n)) n.toNat
      (littleEndian (TagForm.numberWidth (isLong n)) n.toNat) := by
    apply isWord_littleEndian
    by_cases h : 65535 < n.toNat
    · rw [show isLong n = true from decide_eq_true h]
      exact n.toNat_lt
    · rw [show isLong n = false from decide_eq_false h]
      change n.toNat < 65536
      omega
  cases t with
  | anonymous => exact .anonymous
  | context n => exact .context n
  | common n => exact .common (hnumber n)
  | implicit n => exact .implicit (hnumber n)
  | qualified vendor profile n =>
    rw [Tag.bytes, List.append_assoc]
    exact .qualified (isWord_littleEndian vendor.toNat_lt) (isWord_littleEndian profile.toNat_lt)
      (hnumber n)

theorem Scalar.image_payload (s : Scalar) (short : s.length < WordSize.eight.words) :
    Scalar.Image s s.payload := by
  cases s with
  | bool v => exact .bool v
  | null => exact .null
  | signed size v => exact .signed (isWord_bits size.pow_bytes v)
  | unsigned size v => exact .unsigned (isWord_bits size.pow_bytes v)
  | float size v => exact .float (isWord_bits size.pow_bytes v)
  | text size v fits =>
    refine .text ⟨_, ?_, rfl⟩
    rw [length_toUTF8]
    exact isWord_littleEndian (WordSize.lt_pow_of_holds fits short)
  | bytes size v fits =>
    exact .bytes ⟨_, isWord_littleEndian (WordSize.lt_pow_of_holds fits short), rfl⟩

namespace Element

theorem isHead_head (tag : Tag) (form : Form) : IsHead tag form (head tag form) :=
  ⟨tag.form, tag.bytes tag.long, tag.image_bytes, rfl⟩

mutual

theorem image_encode : (e : Element) → e.IsShort → Image e e.encode
  | leaf tag s, short => by
    rw [encode]
    exact .leaf (isHead_head tag _) (s.image_payload (short s (List.mem_singleton_self s)))
  | node tag shape children, short => by
    rw [encode]
    exact .node (isHead_head tag _) (images_encodeAll children short)

theorem images_encodeAll : (es : List Element) → AreShort es → Images es (encodeAll es)
  | [], _ => .nil
  | e :: es, short => by
    have ⟨first, rest⟩ := areShort_cons_iff.mp short
    rw [encodeAll]
    exact .cons (image_encode e first) (images_encodeAll es rest)

end

end Element

namespace Cursor

theorem elementWith_of_head {read : Cursor → Except EnvelopeFault (List Element × Cursor)}
    {c middle : Cursor} {us : List UInt8} {tag : Tag} {form : Form} (head : IsHead tag form us)
    (pass : c.Passes us middle) : elementWith read c = body read tag form middle := by
  have h : c.head = .ok ((tag, form), middle) :=
    (reads_head c (Nat.le_refl _) (tag, form) middle).mpr ⟨us, head, pass⟩
  rw [elementWith, h]
  rfl

/-- What was written is read back where it nests no deeper than allowed, whatever follows. -/
theorem element_encode {fuel room : Nat} {c : Cursor} (hc : c.remaining ≤ fuel) {e : Element}
    (short : e.IsShort) (shallow : e.nesting ≤ room) {rest : List UInt8}
    (hrest : c.rest = e.encode ++ rest) :
    element fuel room c = .ok (e, ⟨c.offset + e.encode.length, rest⟩) :=
  (reads_element fuel room c hc e _).mpr ⟨_, ⟨e.image_encode short, shallow⟩, hrest, rfl⟩

-- By recursion over the tree: the children before the first one that is too deep are read back, and
-- the reading of that one fails before any of its bytes could be at fault.
mutual

theorem element_encode_tooDeep {fuel : Nat} (room : Nat) (c : Cursor) (hc : c.remaining ≤ fuel)
    (rest : List UInt8) : (e : Element) → e.IsShort → room < e.nesting →
    c.rest = e.encode ++ rest → element fuel room c = .error (.tooDeep maxDepth)
  | .leaf .., _, deep, _ => absurd deep (Nat.not_lt_zero room)
  | .node tag shape children, short, deep, hrest => by
    obtain ⟨middle, pass, hmiddle⟩ : ∃ middle,
        c.Passes (Element.head tag (.container shape)) middle ∧
          middle.rest = Element.encodeAll children ++ endMark :: rest := by
      refine ⟨⟨_, Element.encodeAll children ++ endMark :: rest⟩, ⟨?_, rfl⟩, rfl⟩
      rw [hrest, Element.encode]
      simp only [List.append_assoc, List.singleton_append]
    have head := Element.isHead_head tag (.container shape)
    cases room with
    | zero =>
      rw [element, elementWith_of_head head pass]
      rfl
    | succ room =>
      have hm := pass.remaining_eq
      rw [Element.nesting] at deep
      have hchildren := children_encodeAll_tooDeep room fuel (Nat.le_refl fuel) middle (by omega)
        (endMark :: rest) [] children short (by omega) hmiddle
      rw [element, elementWith_of_head head pass, body, hchildren]
      rfl

theorem children_encodeAll_tooDeep {fuel : Nat} (room count : Nat) (hcount : count ≤ fuel)
    (c : Cursor) (hc : c.remaining ≤ count) (rest : List UInt8) (found : List Element) :
    (es : List Element) → Element.AreShort es → room < Element.deepest es →
    c.rest = Element.encodeAll es ++ rest →
    children (element fuel room) count found c = .error (.tooDeep maxDepth)
  | [], _, deep, _ => absurd deep (Nat.not_lt_zero room)
  | e :: es, short, deep, hrest => by
    have ⟨first, others⟩ := Element.areShort_cons_iff.mp short
    rw [Element.encodeAll, List.append_assoc] at hrest
    obtain ⟨b, us, hb, hne⟩ := (e.image_encode first).starts
    have hlen : c.remaining = e.encode.length + (Element.encodeAll es ++ rest).length := by
      rw [remaining, hrest, List.length_append]
    have hpos : 0 < e.encode.length := by
      rw [hb]
      exact Nat.succ_pos _
    obtain ⟨count, rfl⟩ : ∃ n, count = n + 1 := ⟨count - 1, by omega⟩
    rw [children_of_ne (by rw [hrest, hb, List.cons_append]) hne]
    -- the first child is read back, or it is the one that is too deep
    by_cases hfirst : e.nesting ≤ room
    · rw [element_encode (by omega) first hfirst hrest]
      rw [Element.deepest] at deep
      refine children_encodeAll_tooDeep room count (by omega) _ ?_ rest _ es others (by omega) rfl
      simp only [remaining] at hc hlen ⊢
      omega
    · rw [element_encode_tooDeep room c (by omega) (Element.encodeAll es ++ rest) e first (by omega)
        hrest]
      rfl

end

end Cursor

/-- Reading gives back what was written, or says that containers nest deeper than 32. -/
theorem decode_encode (e : Element) (short : e.IsShort) :
    Element.decode e.encode = if e.nesting ≤ 32 then .ok e else .error (.tooDeep 32) := by
  have hrest : (Cursor.ofBytes e.encode).rest = e.encode ++ [] := (List.append_nil _).symm
  by_cases h : e.nesting ≤ 32
  · rw [if_pos h, decode_eq_ok_iff_next]
    exact ⟨_, Cursor.element_encode (Nat.le_refl _) short h hrest, rfl⟩
  · have hnext : (Cursor.ofBytes e.encode).next = .error (.tooDeep 32) :=
      Cursor.element_encode_tooDeep 32 _ (Nat.le_refl _) [] e short (Nat.lt_of_not_le h) hrest
    rw [if_neg h, Element.decode, hnext]
    rfl

/-- A text under a wide tag comes back, and so does a float that is no number. One container more
than allowed does not. -/
theorem decode_encode_mixed :
    let e : Element := .node (.common 65536) .list
      [.text "on", .leaf (.context 3) (.float .single 0x7FC00001#32)]
    let deep : Element := (List.range 33).foldl (fun e _ => .list [e]) .null
    (e.IsShort ∧ Element.decode e.encode = .ok e) ∧
      deep.IsShort ∧ Element.decode deep.encode = .error (.tooDeep 32) := by
  intro e deep
  have short : e.IsShort := by unfold Element.IsShort; decide
  have deepShort : deep.IsShort := by unfold Element.IsShort; decide
  exact ⟨⟨short, (decode_encode e short).trans (if_pos (by decide))⟩,
    deepShort, (decode_encode deep deepShort).trans (if_neg (by decide +kernel))⟩

end DeviceTrial
