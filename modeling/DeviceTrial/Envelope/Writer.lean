import DeviceTrial.Envelope.Form

namespace DeviceTrial

/-- What follows the tag of a leaf. The control byte alone tells a boolean and the null value. -/
def Scalar.payload : Scalar → List UInt8
  | bool _ | null => []
  | signed size v | unsigned size v => littleEndian size.bytes v.toNat
  | float size v => littleEndian size.bytes v.toNat
  | text size v _ => littleEndian size.bytes v.utf8ByteSize ++ v.toUTF8.toList
  | bytes size v _ => littleEndian size.bytes v.length ++ v

namespace Element

def head (tag : Tag) (form : Form) : List UInt8 := control tag.form form :: tag.bytes tag.long

mutual
/-- Tags stand in their narrowest form, and the children of a container before the end mark. -/
def encode : Element → List UInt8
  | leaf t s => head t (.scalar s.form) ++ s.payload
  | node t shape children => head t (.container shape) ++ (encodeAll children ++ [endMark])

def encodeAll : List Element → List UInt8
  | [] => []
  | e :: es => encode e ++ encodeAll es
end

end Element

end DeviceTrial
