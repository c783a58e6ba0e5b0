import DeviceTrial.Proofs.Envelope.Canonical
import DeviceTrial.Proofs.Envelope.Content
import DeviceTrial.Proofs.Envelope.Stream

namespace DeviceTrial

/-- What a reading that started at a position of a buffer may tell when it fails. -/
inductive EnvelopeFault.Tells (buffer : List UInt8) (start : Nat) : EnvelopeFault → Prop
  | unexpectedEnd {offset : Nat} (hstart : start ≤ offset) (hstop : offset ≤ buffer.length) :
      Tells buffer start (.unexpectedEnd offset)
  | unsupportedControl {control : UInt8} {offset : Nat} (hstart : start ≤ offset)
      (found : buffer[offset]? = some control) :
      Tells buffer start (.unsupportedControl control offset)
  | strayEndMark {offset : Nat} (hstart : start ≤ offset)
      (found : buffer[offset]? = some endMark) : Tells buffer start (.strayEndMark offset)
  | unterminated {offset : Nat} (hstart : start ≤ offset) (hstop : offset ≤ buffer.length) :
      Tells buffer start (.unterminated offset)
  | invalidText {offset : Nat} (hstart : start ≤ offset) (hstop : offset ≤ buffer.length) :
      Tells buffer start (.invalidText offset)
  | tooDeep : Tells buffer start (.tooDeep maxDepth)

namespace Element

def length : Element → Nat
  | leaf _ s => s.length
  | node .. => 0

mutual

/-- An element and all elements inside it. -/
def parts : Element → List Element
  | leaf tag s => [leaf tag s]
  | node tag shape children => node tag shape children :: partsOfAll children

def partsOfAll : List Element → List Element
  | [] => []
  | e :: es => parts e ++ partsOfAll es

end

/-- The kind has the width, the content is of the kind, so that the element can be built from it,
and the length of a string can be written in its length field. -/
structure IsSound (e : Element) : Prop where
  supported : e.kind.supports e.width = true
  built : build e.kind e.width e.tag e.content = .ok e
  fits : e.length < Nat.pow 256 e.width

theorem isSound_of_isShort {e : Element} (h : e.length < WordSize.eight.words) : e.IsSound where
  supported := e.supports_kind
  built := e.build_content
  fits := by
    cases e with
    | node => exact Nat.one_pos
    | leaf tag s =>
      cases s with
      | bool | null => exact Nat.one_pos
      | signed size | unsigned size => exact Nat.pow_pos (by decide)
      | float size => exact Nat.pow_pos (by decide)
      | text size v fits => exact WordSize.lt_pow_of_holds fits h
      | bytes size v fits => exact WordSize.lt_pow_of_holds fits h

mutual

theorem length_lt_of_mem_parts (e : Element) (short : e.IsShort) {part : Element}
    (h : part ∈ e.parts) : part.length < WordSize.eight.words := by
  cases e with
  | leaf tag s =>
    rw [List.mem_singleton.mp h]
    exact short s (List.mem_singleton_self s)
  | node tag shape children =>
    rcases List.mem_cons.mp h with rfl | h
    · exact (by decide : 0 < WordSize.eight.words)
    · exact length_lt_of_mem_partsOfAll children short h

theorem length_lt_of_mem_partsOfAll (es : List Element) (short : AreShort es) {part : Element}
    (h : part ∈ partsOfAll es) : part.length < WordSize.eight.words := by
  cases es with
  | nil => cases h
  | cons e es =>
    have ⟨first, others⟩ := areShort_cons_iff.mp short
    rcases List.mem_append.mp h with h | h
    · exact length_lt_of_mem_parts e first h
    · exact length_lt_of_mem_partsOfAll es others h

end

end Element

namespace Cursor

variable {α β : Type} {buffer : List UInt8} {start : Nat}

/-- The cursor stands in a buffer, at a position or behind it. -/
structure In (buffer : List UInt8) (start : Nat) (c : Cursor) : Prop where
  start_le : start ≤ c.offset
  le_length : c.offset ≤ buffer.length
  rest_eq : c.rest = buffer.drop c.offset

/-- A reading either gives something good and stops in the buffer, or tells a fault of it. -/
def Safe (buffer : List UInt8) (start : Nat) (good : α → Prop) :
    Except EnvelopeFault (α × Cursor) → Prop
  | .ok (a, next) => good a ∧ next.In buffer start
  | .error fault => fault.Tells buffer start

theorem Safe.bind {good : α → Prop} {good' : β → Prop} {x : Except EnvelopeFault (α × Cursor)}
    {f : α × Cursor → Except EnvelopeFault (β × Cursor)} (h : Safe buffer start good x)
    (hf : ∀ a next, good a → next.In buffer start → Safe buffer start good' (f (a, next))) :
    Safe buffer start good' (x >>= f) := by
  cases x with
  | error fault => exact h
  | ok found => exact hf found.1 found.2 h.1 h.2

theorem Safe.mono {good good' : α → Prop} {x : Except EnvelopeFault (α × Cursor)}
    (h : Safe buffer start good x) (hgood : ∀ a, good a → good' a) : Safe buffer start good' x := by
  cases x with
  | error fault => exact h
  | ok found => exact ⟨hgood _ h.1, h.2⟩

variable {c : Cursor}

theorem In.advance (h : c.In buffer start) {count : Nat}
    (hcount : (c.rest.take count).length = count) :
    In buffer start ⟨c.offset + count, c.rest.drop count⟩ := by
  have hlen : count ≤ buffer.length - c.offset := by
    rw [List.length_take, h.rest_eq, List.length_drop] at hcount
    omega
  have hle := h.le_length
  refine ⟨Nat.le_add_right_of_le h.start_le, ?_, ?_⟩
  · change c.offset + count ≤ buffer.length
    omega
  · rw [h.rest_eq, List.drop_drop]

theorem safe_take (h : c.In buffer start) (count : Nat) :
    Safe buffer start (fun us => us = c.rest.take count ∧ us.length = count) (c.take count) := by
  unfold take
  by_cases hcount : (c.rest.take count).length = count
  · rw [if_pos hcount]
    exact ⟨⟨rfl, hcount⟩, h.advance hcount⟩
  · rw [if_neg hcount]
    exact .unexpectedEnd h.start_le h.le_length

theorem safe_word (h : c.In buffer start) (count : Nat) :
    Safe buffer start
      (fun n => ofLittleEndian (c.rest.take count) = n ∧ n < Nat.pow 256 count)
      (c.word count) := by
  refine (safe_take h count).bind fun us next hus hnext => ?_
  obtain ⟨rfl, hlen⟩ := hus
  refine ⟨⟨rfl, ?_⟩, hnext⟩
  have hlt := ofLittleEndian_lt (c.rest.take count)
  rwa [hlen] at hlt

theorem holds_of_lt_pow {size : WordSize} {n : Nat} (h : n < Nat.pow 256 size.bytes) :
    size.holds n = true := by
  cases size with
  | one | two | four => exact decide_eq_true h
  | eight => rfl

theorem safe_sized (h : c.In buffer start) (size : WordSize) :
    Safe buffer start (fun us => size.holds us.length = true) (c.sized size) := by
  refine (safe_word h size.bytes).bind fun n next hn hnext => ?_
  refine (safe_take hnext n).mono fun us hus => ?_
  rw [hus.2]
  exact holds_of_lt_pow hn.2

theorem safe_tag (h : c.In buffer start) (form : TagForm) :
    Safe buffer start (fun _ => True) (c.tag form) := by
  cases form with
  | anonymous => exact ⟨trivial, h⟩
  | context => exact (safe_word h 1).bind fun _ _ _ hnext => ⟨trivial, hnext⟩
  | common long | implicit long =>
    exact (safe_word h _).bind fun _ _ _ hnext => ⟨trivial, hnext⟩
  | qualified long =>
    refine (safe_word h 2).bind fun _ _ _ hvendor => ?_
    refine (safe_word hvendor 2).bind fun _ _ _ hprofile => ?_
    exact (safe_word hprofile _).bind fun _ _ _ hnext => ⟨trivial, hnext⟩

/-- A string that was taken fits its length field, so its element can be built. -/
theorem safe_scalar (h : c.In buffer start) (form : ScalarForm) :
    Safe buffer start (fun _ => True) (c.scalar form) := by
  cases form with
  | bool v => exact ⟨trivial, h⟩
  | null => exact ⟨trivial, h⟩
  | signed size | unsigned size =>
    exact (safe_word h _).bind fun _ _ _ hnext => ⟨trivial, hnext⟩
  | float size => exact (safe_word h _).bind fun _ _ _ hnext => ⟨trivial, hnext⟩
  | text size =>
    refine (safe_sized h size).bind fun us next hus hnext => ?_
    dsimp only
    cases hv : String.fromUTF8? (ByteArray.mk us.toArray) with
    | none => exact .invalidText h.start_le h.le_length
    | some v =>
      have hlen : us.length = v.utf8ByteSize := by
        rw [← (fromUTF8?_eq_some_iff us v).mp hv, length_toUTF8]
      have hfits : size.holds v.utf8ByteSize = true := hlen ▸ hus
      simp only [dif_pos hfits]
      exact ⟨trivial, hnext⟩
  | bytes size =>
    refine (safe_sized h size).bind fun us next hus hnext => ?_
    dsimp only
    rw [dif_pos hus]
    exact ⟨trivial, hnext⟩

theorem safe_tagged (h : c.In buffer start) {offset control : Nat} (hstart : start ≤ offset)
    (found : buffer[offset]? = some (UInt8.ofNat control)) :
    Safe buffer start (fun _ => True) (c.tagged offset control) := by
  unfold tagged
  by_cases hend : UInt8.ofNat control = endMark
  · simp only [hend]
    exact .strayEndMark hstart (hend ▸ found)
  · simp only [hend]
    refine (safe_tag h _).bind fun tag next _ hnext => ?_
    dsimp only
    cases Form.ofCode? (control % 32) with
    | none => exact .unsupportedControl hstart found
    | some form => exact ⟨trivial, hnext⟩

theorem safe_head (h : c.In buffer start) : Safe buffer start (fun _ => True) c.head := by
  have hfound {n : Nat} (hn : ofLittleEndian (c.rest.take 1) = n) (hpos : c.rest ≠ []) :
      buffer[c.offset]? = some (UInt8.ofNat n) := by
    obtain ⟨b, rest, hrest⟩ := List.exists_cons_of_ne_nil hpos
    have hdrop := congrArg List.head? (h.rest_eq.symm.trans hrest)
    rw [List.head?_drop] at hdrop
    rw [← hn, hrest, hdrop]
    simp [ofLittleEndian]
  cases hrest : c.rest with
  | nil =>
    unfold head word take
    rw [hrest]
    exact .unexpectedEnd h.start_le h.le_length
  | cons b rest =>
    refine (safe_word h 1).bind fun n next hn hnext => ?_
    exact safe_tagged hnext h.start_le (hfound hn.1 (hrest ▸ List.cons_ne_nil b rest))

theorem safe_children {read : Cursor → Except EnvelopeFault (Element × Cursor)}
    (hread : ∀ c : Cursor, c.In buffer start → Safe buffer start (fun _ => True) (read c))
    (fuel : Nat) (found : List Element) (h : c.In buffer start) :
    Safe buffer start (fun _ => True) (children read fuel found c) := by
  induction fuel generalizing found c with
  | zero => exact .unterminated h.start_le h.le_length
  | succ fuel ih =>
    cases hrest : c.rest with
    | nil =>
      rw [children, hrest]
      exact .unterminated h.start_le h.le_length
    | cons b rest =>
      -- the end mark is taken, or a child is read, which leaves a cursor in the same buffer
      by_cases hb : b = endMark
      · have hnext : In buffer start ⟨c.offset + 1, c.rest.drop 1⟩ := by
          apply h.advance
          rw [hrest]
          rfl
        rw [hrest] at hnext
        simp only [children, hrest, hb, if_true]
        exact ⟨trivial, hnext⟩
      · rw [children_of_ne hrest hb]
        exact (hread c h).bind fun e next _ hnext => ih _ hnext

theorem safe_elementWith {inside : Cursor → Except EnvelopeFault (List Element × Cursor)}
    (hinside : ∀ c : Cursor, c.In buffer start → Safe buffer start (fun _ => True) (inside c))
    (h : c.In buffer start) : Safe buffer start (fun _ => True) (elementWith inside c) := by
  refine (safe_head h).bind fun found next _ hnext => ?_
  obtain ⟨tag, form⟩ := found
  cases form with
  | scalar form => exact (safe_scalar hnext form).bind fun _ _ _ hafter => ⟨trivial, hafter⟩
  | container shape => exact (hinside next hnext).bind fun _ _ _ hafter => ⟨trivial, hafter⟩

theorem safe_element (fuel room : Nat) (h : c.In buffer start) :
    Safe buffer start (fun _ => True) (element fuel room c) := by
  induction room generalizing c with
  | zero => exact safe_elementWith (fun _ _ => .tooDeep) h
  | succ room ih =>
    exact safe_elementWith (fun _ hc => safe_children (fun _ hc => ih hc) fuel [] hc) h

theorem safe_next (h : c.In buffer start) : Safe buffer start (fun _ => True) c.next :=
  safe_element _ _ h

theorem In.step (h : c.In buffer start) : c.step.2.In buffer start := by
  have hnext := safe_next h
  cases hresult : c.next with
  | error fault => rwa [step_of_error hresult]
  | ok found =>
    rw [hresult] at hnext
    rw [step_of_ok hresult]
    exact hnext.2

theorem in_after (bytes : List UInt8) (requests : Nat) :
    ((Cursor.ofBytes bytes).after requests).In bytes 0 := by
  induction requests with
  | zero => exact ⟨Nat.le_refl 0, Nat.zero_le _, rfl⟩
  | succ requests ih => exact ih.step

theorem next_of_ok {next : Cursor} {e : Element} (h : c.next = .ok (e, next)) :
    c.offset < next.offset ∧ (∀ part ∈ e.parts, part.IsSound) ∧ e.nesting ≤ maxDepth := by
  obtain ⟨bytes, ⟨himage, hdepth⟩, -, hoffset⟩ := (next_eq_ok_iff c e next).mp h
  obtain ⟨b, us, rfl, -⟩ := himage.starts
  refine ⟨?_, fun part hpart => ?_, hdepth⟩
  · rw [hoffset, List.length_cons]
    omega
  · exact Element.isSound_of_isShort (e.length_lt_of_mem_parts himage.isShort hpart)

/-- After any number of requests the cursor stands in its buffer. One more request moves it on, not
beyond the end, and gives an element that is sound down to its leaves and nests no deeper than 32;
or it leaves the cursor and tells one of the faults of reading, at a place not before the cursor. -/
theorem step_safe (bytes : List UInt8) (requests : Nat) :
    let c := (Cursor.ofBytes bytes).after requests
    (c.offset ≤ bytes.length ∧ c.remaining = bytes.length - c.offset) ∧
      match c.step with
      | (.ok e, next) => (c.offset < next.offset ∧ next.offset ≤ bytes.length) ∧
          (∀ part ∈ e.parts, part.IsSound) ∧ e.nesting ≤ 32
      | (.error fault, next) => next = c ∧ fault.Tells bytes c.offset := by
  intro c
  have hin : c.In bytes 0 := in_after bytes requests
  have hhere : c.In bytes c.offset := ⟨Nat.le_refl _, hin.le_length, hin.rest_eq⟩
  refine ⟨⟨hin.le_length, ?_⟩, ?_⟩
  · rw [remaining, hin.rest_eq, List.length_drop]
  · have hsafe := safe_next hhere
    cases hresult : c.next with
    | error fault =>
      rw [hresult] at hsafe
      rw [step_of_error hresult]
      exact ⟨rfl, hsafe⟩
    | ok found =>
      rw [hresult] at hsafe
      rw [step_of_ok hresult]
      obtain ⟨hmoves, hsound⟩ := next_of_ok hresult
      exact ⟨⟨hmoves, hsafe.2.le_length⟩, hsound⟩

end Cursor

end DeviceTrial
