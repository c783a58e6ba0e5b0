import DeviceTrial.Envelope.Fault

namespace DeviceTrial

/-- What an element is to hold, before its kind has been checked. -/
inductive Content where
  | bool (v : Bool)
  | signed (size : WordSize) (v : BitVec size.bits)
  | unsigned (size : WordSize) (v : BitVec size.bits)
  | float (size : FloatSize) (v : BitVec size.bits)
  | text (v : String)
  | bytes (v : List UInt8)
  | null
  | children (es : List Element)

namespace Element

/-- A string under a length field of the given width, if there is one and the length fits. -/
def sized? (width length : Nat) (make : (size : WordSize) → size.holds length = true → Scalar) :
    Option Scalar :=
  (WordSize.ofBytes? width).bind fun size =>
    if h : size.holds length = true then some (make size h) else none

def scalar? (kind : Kind) (width : Nat) (content : Content) : Option Scalar :=
  match kind, content with
  | .boolean, .bool v => some (.bool v)
  | .signed, .signed size v => if size.bytes = width then some (.signed size v) else none
  | .unsigned, .unsigned size v => if size.bytes = width then some (.unsigned size v) else none
  | .float, .float size v => if size.bytes = width then some (.float size v) else none
  | .text, .text v => sized? width v.utf8ByteSize fun size h => .text size v h
  | .bytes, .bytes v => sized? width v.length fun size h => .bytes size v h
  | .null, .null => some .null
  | _, _ => none

def build (kind : Kind) (width : Nat) (tag : Tag) (content : Content) :
    Except EnvelopeFault Element :=
  if !kind.supports width then .error (.unsupportedType kind width)
  else match kind.shape?, content with
    | some shape, .children es => .ok (.node tag shape es)
    | _, _ => match scalar? kind width content with
      | some s => .ok (.leaf tag s)
      | none => .error (.typeMismatch kind width)

def push (e child : Element) : Except EnvelopeFault Element :=
  match e with
  | node t shape children => .ok (node t shape (children ++ [child]))
  | leaf _ s => .error (.notContainer s.kind)

end Element

end DeviceTrial
