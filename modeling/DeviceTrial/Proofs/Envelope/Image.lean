import DeviceTrial.Envelope.Form

/-!
The wire grammar of envelopes: which bytes are an image of an element.

The grammar is a relation and says nothing about how bytes are read or written. An element has
several images, since a profile tag may stand in its short or in its long form.
-/

namespace DeviceTrial

theorem WordSize.pow_bytes (size : WordSize) : Nat.pow 256 size.bytes = Nat.pow 2 size.bits := by
  cases size <;> rfl

theorem FloatSize.pow_bytes (size : FloatSize) : Nat.pow 256 size.bytes = Nat.pow 2 size.bits := by
  cases size <;> rfl

/-- A natural as a word of the given count of bytes, the lowest byte first. -/
def IsWord (count n : Nat) (bytes : List UInt8) : Prop :=
  bytes.length = count ∧ ofLittleEndian bytes = n

theorem IsWord.lt {count n : Nat} {bytes : List UInt8} (h : IsWord count n bytes) :
    n < Nat.pow 256 count := by
  rw [← h.1, ← h.2]
  exact ofLittleEndian_lt bytes

theorem isWord_littleEndian {count n : Nat} (h : n < Nat.pow 256 count) :
    IsWord count n (littleEndian count n) := by
  refine ⟨length_littleEndian count n, ?_⟩
  rw [ofLittleEndian_littleEndian]
  exact Nat.mod_eq_of_lt h

theorem isWord_bits {count bits : Nat} (same : Nat.pow 256 count = Nat.pow 2 bits)
    (v : BitVec bits) : IsWord count v.toNat (littleEndian count v.toNat) :=
  isWord_littleEndian (Nat.lt_of_lt_of_eq v.isLt same.symm)

/-- The content of a string behind its length. -/
def IsSized (size : WordSize) (content bytes : List UInt8) : Prop :=
  ∃ length, IsWord size.bytes content.length length ∧ bytes = length ++ content

inductive Tag.Image : TagForm → Tag → List UInt8 → Prop
  | anonymous : Image .anonymous .anonymous []
  | context (n : UInt8) : Image .context (.context n) [n]
  | common {long : Bool} {n : UInt32} {bytes : List UInt8}
      (number : IsWord (TagForm.numberWidth long) n.toNat bytes) :
      Image (.common long) (.common n) bytes
  | implicit {long : Bool} {n : UInt32} {bytes : List UInt8}
      (number : IsWord (TagForm.numberWidth long) n.toNat bytes) :
      Image (.implicit long) (.implicit n) bytes
  | qualified {long : Bool} {vendor profile : UInt16} {n : UInt32} {us vs ws : List UInt8}
      (first : IsWord 2 vendor.toNat us) (second : IsWord 2 profile.toNat vs)
      (number : IsWord (TagForm.numberWidth long) n.toNat ws) :
      Image (.qualified long) (.qualified vendor profile n) (us ++ (vs ++ ws))

/-- The bytes behind the tag of a leaf. -/
inductive Scalar.Image : Scalar → List UInt8 → Prop
  | bool (v : Bool) : Image (.bool v) []
  | null : Image .null []
  | signed {size : WordSize} {v : BitVec size.bits} {bytes : List UInt8}
      (word : IsWord size.bytes v.toNat bytes) : Image (.signed size v) bytes
  | unsigned {size : WordSize} {v : BitVec size.bits} {bytes : List UInt8}
      (word : IsWord size.bytes v.toNat bytes) : Image (.unsigned size v) bytes
  | float {size : FloatSize} {v : BitVec size.bits} {bytes : List UInt8}
      (word : IsWord size.bytes v.toNat bytes) : Image (.float size v) bytes
  | text {size : WordSize} {v : String} {fits : size.holds v.utf8ByteSize = true}
      {bytes : List UInt8} (sized : IsSized size v.toUTF8.toList bytes) :
      Image (.text size v fits) bytes
  | bytes {size : WordSize} {v : List UInt8} {fits : size.holds v.length = true}
      {bytes : List UInt8} (sized : IsSized size v bytes) : Image (.bytes size v fits) bytes

/-- The control byte and the tag of an element, in any form that the tag has. -/
def IsHead (tag : Tag) (form : Form) (bytes : List UInt8) : Prop :=
  ∃ tagForm us, Tag.Image tagForm tag us ∧ bytes = control tagForm form :: us

mutual

/-- The bytes are an image of the element. -/
inductive Element.Image : Element → List UInt8 → Prop
  | leaf {tag : Tag} {s : Scalar} {us vs : List UInt8} (head : IsHead tag (.scalar s.form) us)
      (payload : Scalar.Image s vs) : Image (.leaf tag s) (us ++ vs)
  | node {tag : Tag} {shape : Shape} {children : List Element} {us vs : List UInt8}
      (head : IsHead tag (.container shape) us) (body : Element.Images children vs) :
      Image (.node tag shape children) (us ++ (vs ++ [endMark]))

inductive Element.Images : List Element → List UInt8 → Prop
  | nil : Images [] []
  | cons {e : Element} {es : List Element} {us vs : List UInt8} (first : Element.Image e us)
      (rest : Images es vs) : Images (e :: es) (us ++ vs)

end

theorem Element.Image.starts {e : Element} {bytes : List UInt8} (h : Element.Image e bytes) :
    ∃ b us, bytes = b :: us ∧ b ≠ endMark := by
  cases h with
  | leaf head =>
    obtain ⟨form, us, -, rfl⟩ := head
    exact ⟨_, _, rfl, control_ne_endMark form _⟩
  | node head =>
    obtain ⟨form, us, -, rfl⟩ := head
    exact ⟨_, _, rfl, control_ne_endMark form _⟩

end DeviceTrial
