import DeviceTrial.Envelope.Build

namespace DeviceTrial

/-- A value that is no list of children. Numbers are integers or floats of double size. -/
inductive Literal where
  | null
  | bool (v : Bool)
  | integer (v : Int)
  | float (v : BitVec 64)
  | text (v : String)
  deriving DecidableEq, Repr

inductive Description where
  | leaf (kind : Kind) (width : UInt8) (tag : Tag) (value : Literal)
  | node (kind : Kind) (width : UInt8) (tag : Tag) (children : List Description)

def WordSize.ofInt? (size : WordSize) (v : Int) : Option (BitVec size.bits) :=
  let bound : Nat := size.words / 2
  if -bound ≤ v ∧ v < bound then some (BitVec.ofInt _ v) else none

def WordSize.ofNat? (size : WordSize) (v : Int) : Option (BitVec size.bits) :=
  if 0 ≤ v ∧ v < size.words then some (BitVec.ofInt _ v) else none

def FloatSize.ofInt (size : FloatSize) (v : Int) : BitVec size.bits :=
  size.signed (decide (v < 0)) (size.round v.natAbs 1)

namespace Literal

/-- A number, for a float of double size. Null stands for what is no number. -/
def float? : Literal → Option (BitVec 64)
  | null => some FloatSize.double.noNumber
  | integer v => some (FloatSize.double.ofInt v)
  | float v => some v
  | _ => none

def integer? : Literal → Option Int
  | integer v => some v
  | _ => none

def floatSize? (width : Nat) : Option FloatSize :=
  if width = 4 then some .single else if width = 8 then some .double else none

/-- Content of a sized integer: the value has to lie in the widest type first, then the width has to
exist. -/
def sizedInteger (kind : Kind) (width : Nat) (value : Literal)
    (read : (size : WordSize) → Int → Option (BitVec size.bits))
    (make : (size : WordSize) → BitVec size.bits → Content) :
    Except EnvelopeFault Content :=
  match value.integer? with
  | none => .error (.typeMismatch kind width)
  | some v =>
    if (read .eight v).isNone then .error (.typeMismatch kind width)
    else match WordSize.ofBytes? width with
      | none => .error (.unsupportedType kind width)
      | some size => match read size v with
        | some w => .ok (make size w)
        | none => .error (.malformed (.outOfRange kind width))

def content (kind : Kind) (width : Nat) (value : Literal) : Except EnvelopeFault Content :=
  match kind, value with
  | .boolean, bool v => .ok (.bool v)
  | .signed, value => sizedInteger kind width value WordSize.ofInt? .signed
  | .unsigned, value => sizedInteger kind width value WordSize.ofNat? .unsigned
  | .float, value =>
    match value.float? with
    | none => .error (.typeMismatch kind width)
    | some v => match floatSize? width with
      | none => .error (.unsupportedType kind width)
      | some size => .ok (.float size (FloatSize.double.convert size v))
  | .text, text v => .ok (.text v)
  | .bytes, text v =>
    match Hex.decode v with
    | .ok bytes => .ok (.bytes bytes)
    | .error fault => .error (.malformed (.notHex v fault))
  | .null, null => .ok .null
  | _, _ => .error (.typeMismatch kind width)

end Literal

namespace Description

mutual
/-- The element that a description denotes. -/
def element : Description → Except EnvelopeFault Element
  | leaf kind width tag value =>
    do Element.build kind width.toNat tag (← value.content kind width.toNat)
  | node kind width tag children =>
    if kind.isContainer then do Element.build kind width.toNat tag (.children (← elements children))
    else .error (.typeMismatch kind width.toNat)

def elements : List Description → Except EnvelopeFault (List Element)
  | [] => .ok []
  | d :: ds => do return (← element d) :: (← elements ds)
end

end Description

def Scalar.literal : Scalar → Literal
  | .bool v => .bool v
  | .signed _ v => .integer v.toInt
  | .unsigned _ v => .integer v.toNat
  | .float size v => .float (size.convert .double v)
  | .text _ v _ => .text v
  | .bytes _ v _ => .text (Hex.encode v)
  | .null => .null

namespace Element

mutual
def description : Element → Description
  | leaf tag s => .leaf s.kind (UInt8.ofNat s.width) tag s.literal
  | node tag shape children => .node shape.kind 0 tag (descriptions children)

def descriptions : List Element → List Description
  | [] => []
  | e :: es => description e :: descriptions es
end

end Element

end DeviceTrial
