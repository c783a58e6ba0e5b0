import DeviceTrial.Proofs.Envelope.RoundTrip

namespace DeviceTrial

namespace Cursor

def on (buffer : List UInt8) (position : Nat) : Cursor := ⟨position, buffer.drop position⟩

/-- The answer to a request for the next element, and where the cursor stands then. A request that
fails leaves it where it was. -/
def step (c : Cursor) : Except EnvelopeFault Element × Cursor :=
  match c.next with
  | .ok (e, after) => (.ok e, after)
  | .error fault => (.error fault, c)

/-- The cursor after so many requests. -/
def after (c : Cursor) : Nat → Cursor
  | 0 => c
  | requests + 1 => (c.after requests).step.2

theorem step_of_ok {c next : Cursor} {e : Element} (h : c.next = .ok (e, next)) :
    c.step = (.ok e, next) := by
  rw [step, h]

theorem step_of_error {c : Cursor} {fault : EnvelopeFault} (h : c.next = .error fault) :
    c.step = (.error fault, c) := by
  rw [step, h]

theorem next_of_step {c next : Cursor} {e : Element} (h : c.step = (.ok e, next)) :
    c.next = .ok (e, next) := by
  unfold step at h
  split at h
  · cases h
    assumption
  · cases h

variable {buffer bytes : List UInt8} {p : Nat}

theorem passes_on_iff {next : Cursor} :
    (on buffer p).Passes bytes next ↔
      buffer.extract p (p + bytes.length) = bytes ∧ next = on buffer (p + bytes.length) := by
  have hextract : buffer.extract p (p + bytes.length) = (buffer.drop p).take bytes.length := by
    rw [List.extract, Nat.add_sub_cancel_left]
  obtain ⟨offset, rest⟩ := next
  rw [hextract]
  unfold Passes on
  rw [mk.injEq, ← List.drop_drop]
  constructor
  · rintro ⟨hrest, hoffset⟩
    change buffer.drop p = bytes ++ rest at hrest
    rw [hrest, List.take_left, List.drop_left]
    exact ⟨rfl, hoffset, rfl⟩
  · rintro ⟨htake, hoffset, hdrop⟩
    refine ⟨?_, hoffset⟩
    change buffer.drop p = bytes ++ rest
    rw [hdrop]
    exact ((congrArg (· ++ _) htake).symm.trans (List.take_append_drop ..)).symm

theorem next_on_eq_ok_iff {e : Element} {next : Cursor} :
    (on buffer p).next = .ok (e, next) ↔
      ∃ q, BoundedImage maxDepth e (buffer.extract p q) ∧ q = p + (buffer.extract p q).length ∧
        next = on buffer q := by
  rw [next_eq_ok_iff]
  constructor
  · rintro ⟨bytes, himage, pass⟩
    obtain ⟨hbytes, rfl⟩ := passes_on_iff.mp pass
    refine ⟨p + bytes.length, ?_, ?_, rfl⟩
    · rwa [hbytes]
    · rw [hbytes]
  · rintro ⟨q, himage, hq, rfl⟩
    refine ⟨_, himage, passes_on_iff.mpr ⟨?_, ?_⟩⟩
    · rw [← hq]
    · rw [← hq]

theorem next_on_length :
    (on buffer buffer.length).next = .error (.unexpectedEnd buffer.length) := by
  unfold on
  rw [List.drop_length]
  rfl

end Cursor

namespace Element

def appendAll (buffer : List UInt8) (es : List Element) : List UInt8 :=
  es.foldl (fun buffer e => buffer ++ e.encode) buffer

theorem appendAll_eq (buffer : List UInt8) (es : List Element) :
    appendAll buffer es = buffer ++ encodeAll es := by
  induction es generalizing buffer with
  | nil => exact (List.append_nil buffer).symm
  | cons e es ih => exact (ih _).trans (List.append_assoc ..)

theorem appendAll_append (buffer : List UInt8) (es fs : List Element) :
    appendAll buffer (es ++ fs) = appendAll (appendAll buffer es) fs :=
  List.foldl_append ..

end Element

namespace Cursor

/-- An element that was appended to a buffer is read there, whatever was appended behind it. -/
theorem step_on_appendAll {e : Element} (short : e.IsShort) (shallow : e.nesting ≤ maxDepth)
    (before : List UInt8) (es : List Element) :
    (on (Element.appendAll before (e :: es)) before.length).step =
      (.ok e, on (Element.appendAll before (e :: es)) (before ++ e.encode).length) := by
  have hbuffer : Element.appendAll before (e :: es) =
      before ++ (e.encode ++ Element.encodeAll es) := Element.appendAll_eq ..
  have hrest : (on (Element.appendAll before (e :: es)) before.length).rest =
      e.encode ++ Element.encodeAll es := by
    rw [on, hbuffer, List.drop_left]
  refine step_of_ok ((element_encode (Nat.le_refl _) short shallow hrest).trans ?_)
  unfold on
  rw [hbuffer, ← List.append_assoc, List.drop_left, List.length_append]

theorem step_after_on_appendAll {es : List Element}
    (h : ∀ e ∈ es, e.IsShort ∧ e.nesting ≤ maxDepth) (before : List UInt8) {i : Nat}
    (hi : i < es.length)
    (hafter : (on (Element.appendAll before es) before.length).after i =
      on (Element.appendAll before es) (Element.appendAll before (es.take i)).length) :
    ((on (Element.appendAll before es) before.length).after i).step =
      (.ok es[i], on (Element.appendAll before es)
        (Element.appendAll before (es.take (i + 1))).length) := by
  have hmem : es[i] ∈ es := List.getElem_mem hi
  -- what has been read is the start of the buffer, and the next element stands behind it
  have hsplit : es = es.take i ++ es[i] :: es.drop (i + 1) := by
    rw [List.getElem_cons_drop, List.take_append_drop]
  have hbuffer : Element.appendAll before es =
      Element.appendAll (Element.appendAll before (es.take i)) (es[i] :: es.drop (i + 1)) := by
    rw [← Element.appendAll_append, ← hsplit]
  rw [hafter, List.take_succ_eq_append_getElem hi, Element.appendAll_append, hbuffer]
  exact step_on_appendAll (h _ hmem).1 (h _ hmem).2 ..

theorem after_on_appendAll {es : List Element}
    (h : ∀ e ∈ es, e.IsShort ∧ e.nesting ≤ maxDepth) (before : List UInt8) {i : Nat}
    (hi : i ≤ es.length) :
    (on (Element.appendAll before es) before.length).after i =
      on (Element.appendAll before es) (Element.appendAll before (es.take i)).length := by
  induction i with
  | zero => rfl
  | succ i ih => rw [after, step_after_on_appendAll h before hi (ih (Nat.le_of_lt hi))]

/-- An element that is read between two positions of a buffer is read there in every buffer with the
same bytes between them. Elements that were appended to a buffer are read from there in their order,
each from where the one before it ends, and after the last one the buffer has come to its end. -/
theorem step_delimited :
    (∀ buffer p e next, (on buffer p).step = (.ok e, next) →
      ∃ q, next = on buffer q ∧ ∀ other : List UInt8, other.extract p q = buffer.extract p q →
        (on other p).step = (.ok e, on other q)) ∧
    ∀ before es, (∀ e ∈ es, e.IsShort ∧ e.nesting ≤ 32) →
      let buffer := Element.appendAll before es
      let c := on buffer before.length
      (∀ i (hi : i < es.length), (c.after i).step =
        (.ok es[i], on buffer (Element.appendAll before (es.take (i + 1))).length)) ∧
      (c.after es.length).step = (.error (.unexpectedEnd buffer.length), on buffer buffer.length)
    := by
  constructor
  · intro buffer p e next h
    obtain ⟨q, himage, hq, rfl⟩ := next_on_eq_ok_iff.mp (next_of_step h)
    refine ⟨q, rfl, fun other hother => step_of_ok (next_on_eq_ok_iff.mpr ⟨q, ?_, ?_, rfl⟩)⟩
    · rwa [hother]
    · rwa [hother]
  · intro before es h
    refine ⟨fun i hi => ?_, ?_⟩
    · exact step_after_on_appendAll h before hi (after_on_appendAll h before (Nat.le_of_lt hi))
    · rw [after_on_appendAll h before (Nat.le_refl _), List.take_length]
      exact step_of_error next_on_length

/-- Two elements behind a byte that was read before them; the bytes behind the first one are no part
of it. -/
theorem step_delimited_pair :
    let es : List Element := [.bytes [7, 9], .struct [.bool true]]
    let buffer := Element.appendAll [0xFF] es
    ((on buffer 1).step = (.ok (.bytes [7, 9]), on buffer 5) ∧
      ((on buffer 1).after 1).step = (.ok (.struct [.bool true]), on buffer 8) ∧
      ((on buffer 1).after 2).step = (.error (.unexpectedEnd 8), on buffer 8)) ∧
      (on [0, 0x10, 2, 7, 9, 0x18] 1).step =
        (.ok (.bytes [7, 9]), on [0, 0x10, 2, 7, 9, 0x18] 5) := by
  intro es buffer
  have hes : ∀ e ∈ es, e.IsShort ∧ e.nesting ≤ 32 := by
    unfold Element.IsShort
    decide
  obtain ⟨hread, hend⟩ := step_delimited.2 [0xFF] es hes
  have hfirst : (on buffer 1).step = (.ok (.bytes [7, 9]), on buffer 5) := hread 0 (by decide)
  obtain ⟨q, hq, hother⟩ := step_delimited.1 buffer 1 _ _ hfirst
  obtain rfl : 5 = q := congrArg offset hq
  exact ⟨⟨hfirst, hread 1 (by decide), hend⟩, hother _ rfl⟩

end Cursor

end DeviceTrial
