import DeviceTrial.Envelope.Reader
import DeviceTrial.Proofs.Envelope.Image
import DeviceTrial.Proofs.Fallible

namespace DeviceTrial

namespace Cursor

variable {α β : Type}

/-- The second cursor stands behind the first by the given bytes. -/
def Passes (c : Cursor) (bytes : List UInt8) (next : Cursor) : Prop :=
  c.rest = bytes ++ next.rest ∧ next.offset = c.offset + bytes.length

theorem passes_nil_iff {c next : Cursor} : c.Passes [] next ↔ next = c := by
  obtain ⟨offset, rest⟩ := c
  obtain ⟨offset', rest'⟩ := next
  constructor
  · rintro ⟨h, h'⟩
    simp only [List.nil_append, List.length_nil, Nat.add_zero] at h h'
    rw [h, h']
  · rintro h
    injection h with h h'
    subst h h'
    exact ⟨rfl, rfl⟩

theorem passes_append_iff {c next : Cursor} {us vs : List UInt8} :
    c.Passes (us ++ vs) next ↔ ∃ middle : Cursor, c.Passes us middle ∧ middle.Passes vs next := by
  constructor
  · rintro ⟨h, h'⟩
    refine ⟨⟨c.offset + us.length, vs ++ next.rest⟩, ⟨?_, rfl⟩, rfl, ?_⟩
    · rw [h, List.append_assoc]
    · rw [h', List.length_append, Nat.add_assoc]
  · rintro ⟨middle, ⟨h, h'⟩, ⟨h₂, h₂'⟩⟩
    refine ⟨?_, ?_⟩
    · rw [h, h₂, List.append_assoc]
    · rw [h₂', h', List.length_append]
      omega

theorem Passes.remaining_eq {c next : Cursor} {bytes : List UInt8} (h : c.Passes bytes next) :
    c.remaining = bytes.length + next.remaining := by
  simp only [remaining, h.1, List.length_append]

/-- From every cursor with at most `bound` bytes left, the reader takes an image of what it gives,
and takes every image that stands there. -/
def Reads (bound : Nat) (read : Cursor → Except EnvelopeFault (α × Cursor))
    (image : α → List UInt8 → Prop) : Prop :=
  ∀ c : Cursor, c.remaining ≤ bound → ∀ a next,
    read c = .ok (a, next) ↔ ∃ bytes, image a bytes ∧ c.Passes bytes next

variable {bound : Nat} {read : Cursor → Except EnvelopeFault (α × Cursor)}
  {image : α → List UInt8 → Prop}

theorem Reads.congr {image' : α → List UInt8 → Prop} (h : Reads bound read image)
    (same : ∀ a bytes, image a bytes ↔ image' a bytes) : Reads bound read image' := by
  intro c hc a next
  rw [h c hc a next]
  simp only [same]

theorem reads_pure (a : α) :
    Reads bound (fun c => .ok (a, c)) fun b bytes => b = a ∧ bytes = [] := by
  intro c _ b next
  constructor
  · intro h
    injection h with h
    injection h with h h'
    exact ⟨[], ⟨h.symm, rfl⟩, passes_nil_iff.mpr h'.symm⟩
  · rintro ⟨bytes, ⟨rfl, rfl⟩, h⟩
    rw [passes_nil_iff.mp h]

theorem reads_error (fault : Cursor → EnvelopeFault) :
    Reads bound (fun c => .error (fault c)) fun (_ : α) _ => False := by
  intro c _ a next
  simp

/-- What follows the first reader may look at where the first one started. -/
theorem Reads.bind {f : Cursor → α → Cursor → Except EnvelopeFault (β × Cursor)}
    {image' : α → β → List UInt8 → Prop} (h : Reads bound read image)
    (hf : ∀ c a, Reads bound (f c a) (image' a)) :
    Reads bound (fun c => read c >>= fun x => f c x.1 x.2) fun b bytes =>
      ∃ a us vs, image a us ∧ image' a b vs ∧ bytes = us ++ vs := by
  intro c hc b next
  rw [bind_eq_ok_iff]
  constructor
  · rintro ⟨⟨a, middle⟩, hread, hrest⟩
    obtain ⟨us, hus, pass⟩ := (h c hc a middle).mp hread
    have hm : middle.remaining ≤ bound := by have := pass.remaining_eq; omega
    obtain ⟨vs, hvs, pass'⟩ := (hf c a middle hm b next).mp hrest
    exact ⟨us ++ vs, ⟨a, us, vs, hus, hvs, rfl⟩, passes_append_iff.mpr ⟨middle, pass, pass'⟩⟩
  · rintro ⟨bytes, ⟨a, us, vs, hus, hvs, rfl⟩, pass⟩
    obtain ⟨middle, pass, pass'⟩ := passes_append_iff.mp pass
    have hm : middle.remaining ≤ bound := by have := pass.remaining_eq; omega
    exact ⟨(a, middle), (h c hc a middle).mpr ⟨us, hus, pass⟩,
      (hf c a middle hm b next).mpr ⟨vs, hvs, pass'⟩⟩

theorem Reads.check {f : Cursor → α → Cursor → Except EnvelopeFault (β × Cursor)}
    {given : α → β → Prop} (h : Reads bound read image)
    (hf : ∀ c a, Reads bound (f c a) fun b bytes => given a b ∧ bytes = []) :
    Reads bound (fun c => read c >>= fun x => f c x.1 x.2) fun b bytes =>
      ∃ a, image a bytes ∧ given a b := by
  refine (h.bind hf).congr fun b bytes => ?_
  constructor
  · rintro ⟨a, us, vs, hus, ⟨hgiven, rfl⟩, rfl⟩
    rw [List.append_nil]
    exact ⟨a, hus, hgiven⟩
  · rintro ⟨a, ha, hgiven⟩
    exact ⟨a, bytes, [], ha, ⟨hgiven, rfl⟩, (List.append_nil bytes).symm⟩

theorem Reads.map (h : Reads bound read image) (g : α → β) :
    Reads bound (fun c => read c >>= fun x => .ok (g x.1, x.2)) fun b bytes =>
      ∃ a, image a bytes ∧ b = g a :=
  h.check fun _ a => reads_pure (g a)

theorem reads_take (count : Nat) :
    Reads bound (fun c => c.take count) fun us bytes => bytes.length = count ∧ us = bytes := by
  intro c _ us next
  dsimp only [take]
  by_cases h : (c.rest.take count).length = count
  · rw [if_pos h]
    constructor
    · intro heq
      injection heq with heq
      injection heq with hus hnext
      refine ⟨c.rest.take count, ⟨h, hus.symm⟩, ?_, ?_⟩
      · rw [← hnext, List.take_append_drop]
      · rw [← hnext, h]
    · rintro ⟨bytes, ⟨hlen, rfl⟩, hrest, hoffset⟩
      have htake : c.rest.take count = us := by rw [hrest, ← hlen, List.take_left]
      have hdrop : c.rest.drop count = next.rest := by rw [hrest, ← hlen, List.drop_left]
      rw [htake, hdrop, ← hlen, ← hoffset]
  · rw [if_neg h]
    constructor
    · intro heq
      cases heq
    · rintro ⟨bytes, ⟨hlen, rfl⟩, hrest, _⟩
      exact absurd (by rw [hrest, ← hlen, List.take_left]) h

theorem reads_word (count : Nat) : Reads bound (fun c => c.word count) fun n => IsWord count n := by
  refine ((reads_take count).map ofLittleEndian).congr fun n bytes => ?_
  constructor
  · rintro ⟨us, ⟨hlen, rfl⟩, rfl⟩
    exact ⟨hlen, rfl⟩
  · rintro ⟨hlen, rfl⟩
    exact ⟨bytes, ⟨hlen, rfl⟩, rfl⟩

theorem reads_sized (size : WordSize) : Reads bound (fun c => c.sized size) (IsSized size) := by
  refine ((reads_word size.bytes).bind fun _ n => reads_take n).congr fun content bytes => ?_
  constructor
  · rintro ⟨n, us, vs, hn, ⟨hlen, rfl⟩, rfl⟩
    exact ⟨us, by rwa [hlen], rfl⟩
  · rintro ⟨us, hn, rfl⟩
    exact ⟨content.length, us, content, hn, ⟨rfl, rfl⟩, rfl⟩

end Cursor

end DeviceTrial
