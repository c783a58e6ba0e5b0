import DeviceTrial.Envelope.Fault
import DeviceTrial.Envelope.Form

namespace DeviceTrial

/-- The deepest nesting of containers that is read. -/
def maxDepth : Nat := 32

/-- Stands before the bytes still to be read, and knows how many lie behind it. -/
structure Cursor where
  offset : Nat
  rest : List UInt8
  deriving DecidableEq, Repr

namespace Cursor

def ofBytes (bytes : List UInt8) : Cursor := ⟨0, bytes⟩

def remaining (c : Cursor) : Nat := c.rest.length

def isEmpty (c : Cursor) : Bool := c.rest.isEmpty

def take (c : Cursor) (count : Nat) : Except EnvelopeFault (List UInt8 × Cursor) :=
  let bytes := c.rest.take count
  if bytes.length = count then .ok (bytes, ⟨c.offset + count, c.rest.drop count⟩)
  else .error (.unexpectedEnd c.offset)

def word (c : Cursor) (count : Nat) : Except EnvelopeFault (Nat × Cursor) := do
  let (bytes, c) ← c.take count
  return (ofLittleEndian bytes, c)

/-- A length field and as many bytes as it says. -/
def sized (c : Cursor) (size : WordSize) : Except EnvelopeFault (List UInt8 × Cursor) := do
  let (length, c) ← c.word size.bytes
  c.take length

def tag (c : Cursor) (form : TagForm) : Except EnvelopeFault (Tag × Cursor) :=
  match form with
  | .anonymous => .ok (.anonymous, c)
  | .context => do
    let (n, c) ← c.word 1
    return (.context (UInt8.ofNat n), c)
  | .common long => do
    let (n, c) ← c.word (TagForm.numberWidth long)
    return (.common (UInt32.ofNat n), c)
  | .implicit long => do
    let (n, c) ← c.word (TagForm.numberWidth long)
    return (.implicit (UInt32.ofNat n), c)
  | .qualified long => do
    let (vendor, c) ← c.word 2
    let (profile, c) ← c.word 2
    let (n, c) ← c.word (TagForm.numberWidth long)
    return (.qualified (UInt16.ofNat vendor) (UInt16.ofNat profile) (UInt32.ofNat n), c)

def scalar (c : Cursor) (form : ScalarForm) : Except EnvelopeFault (Scalar × Cursor) :=
  match form with
  | .bool v => .ok (.bool v, c)
  | .null => .ok (.null, c)
  | .signed size => do
    let (n, c) ← c.word size.bytes
    return (.signed size (BitVec.ofNat _ n), c)
  | .unsigned size => do
    let (n, c) ← c.word size.bytes
    return (.unsigned size (BitVec.ofNat _ n), c)
  | .float size => do
    let (n, c) ← c.word size.bytes
    return (.float size (BitVec.ofNat _ n), c)
  | .text size => do
    let (bytes, next) ← c.sized size
    match String.fromUTF8? (ByteArray.mk bytes.toArray) with
    | none => .error (.invalidText c.offset)
    | some v =>
      if h : size.holds v.utf8ByteSize = true then return (.text size v h, next)
      else .error (.typeMismatch .text size.bytes)
  | .bytes size => do
    let (v, next) ← c.sized size
    if h : size.holds v.length = true then return (.bytes size v h, next)
    else .error (.typeMismatch .bytes size.bytes)

/-- Reads children up to the end mark. No container holds more than `fuel` of them. -/
def children (read : Cursor → Except EnvelopeFault (Element × Cursor)) :
    (fuel : Nat) → List Element → Cursor → Except EnvelopeFault (List Element × Cursor)
  | 0, _, c => .error (.unterminated c.offset)
  | fuel + 1, found, c =>
    match c.rest with
    | [] => .error (.unterminated c.offset)
    | b :: rest =>
      if b = endMark then .ok (found.reverse, ⟨c.offset + 1, rest⟩)
      else match read c with
        | .error fault => .error fault
        | .ok (e, c) => children read fuel (e :: found) c

/-- The tag behind a control byte that stands at the given offset. -/
def tagged (offset control : Nat) (c : Cursor) : Except EnvelopeFault ((Tag × Form) × Cursor) := do
  -- under a tag the code of the end mark stands for nothing, and is unsupported
  if UInt8.ofNat control = endMark then throw (.strayEndMark offset)
  let (tag, next) ← c.tag (.ofCode (control / 32))
  match Form.ofCode? (control % 32) with
  | none => throw (.unsupportedControl (UInt8.ofNat control) offset)
  | some form => return ((tag, form), next)

def head (c : Cursor) : Except EnvelopeFault ((Tag × Form) × Cursor) := do
  let (control, next) ← c.word 1
  next.tagged c.offset control

/-- What follows the head of an element. Children, if it is a container, are read as given. -/
def body (inside : Cursor → Except EnvelopeFault (List Element × Cursor)) (tag : Tag) (form : Form)
    (c : Cursor) : Except EnvelopeFault (Element × Cursor) :=
  match form with
  | .scalar form => do
    let (s, next) ← c.scalar form
    return (.leaf tag s, next)
  | .container shape => do
    let (es, next) ← inside c
    return (.node tag shape es, next)

/-- Reads an element whose children, if it is a container, are read as given. -/
def elementWith (inside : Cursor → Except EnvelopeFault (List Element × Cursor)) (c : Cursor) :
    Except EnvelopeFault (Element × Cursor) := do
  let ((tag, form), next) ← c.head
  body inside tag form next

/-- Reads an element under which containers may be nested `room` deep. -/
def element (fuel : Nat) : (room : Nat) → Cursor → Except EnvelopeFault (Element × Cursor)
  | 0 => elementWith fun _ => .error (.tooDeep maxDepth)
  | room + 1 => elementWith (children (element fuel room) fuel [])

/-- The next element. The bytes left bound the count of children of every container. -/
def next (c : Cursor) : Except EnvelopeFault (Element × Cursor) := element c.remaining maxDepth c

end Cursor

/-- Reads bytes that hold exactly one element. -/
def Element.decode (bytes : List UInt8) : Except EnvelopeFault Element := do
  let (e, c) ← (Cursor.ofBytes bytes).next
  if c.isEmpty then return e else throw (.trailing c.remaining)

end DeviceTrial
