import DeviceTrial.Binary

namespace DeviceTrial

/-- The sizes of integers and of length fields. -/
inductive WordSize where
  | one
  | two
  | four
  | eight
  deriving DecidableEq, Repr

namespace WordSize

def bytes : WordSize → Nat
  | one => 1
  | two => 2
  | four => 4
  | eight => 8

@[reducible] def bits : WordSize → Nat
  | one => 8
  | two => 16
  | four => 32
  | eight => 64

def words : WordSize → Nat
  | one => 256
  | two => 65536
  | four => 4294967296
  | eight => 18446744073709551616

/-- Whether a length can be written in a field of this size. The largest size takes every length. -/
def holds : WordSize → Nat → Bool
  | eight, _ => true
  | size, n => n < size.words

def narrowest (n : Nat) : WordSize :=
  if one.holds n then one else if two.holds n then two else if four.holds n then four else eight

theorem holds_narrowest (n : Nat) : (narrowest n).holds n = true := by
  unfold narrowest
  split
  · assumption
  · split
    · assumption
    · split
      · assumption
      · rfl

def ofBytes? : Nat → Option WordSize
  | 1 => some one
  | 2 => some two
  | 4 => some four
  | 8 => some eight
  | _ => none

theorem ofBytes?_bytes (size : WordSize) : ofBytes? size.bytes = some size := by
  cases size <;> rfl

end WordSize

inductive Kind where
  | boolean
  | signed
  | unsigned
  | float
  | text
  | bytes
  | null
  | struct
  | array
  | list
  deriving DecidableEq, Repr

namespace Kind

def isContainer : Kind → Bool
  | struct | array | list => true
  | _ => false

/-- The widths of a kind: the size of a number, or of the length field of a string. -/
def widths : Kind → List Nat
  | signed | unsigned | text | bytes => [1, 2, 4, 8]
  | float => [4, 8]
  | _ => [0]

def supports (kind : Kind) (width : Nat) : Bool := kind.widths.contains width

def label : Kind → String
  | boolean => "Boolean"
  | signed => "SignedInteger"
  | unsigned => "UnsignedInteger"
  | float => "Float"
  | text => "Utf8String"
  | bytes => "ByteString"
  | null => "Null"
  | struct => "Structure"
  | array => "Array"
  | list => "List"

def describe (kind : Kind) (width : Nat) : String :=
  match kind with
  | boolean => "boolean"
  | signed => s!"signed integer {width}"
  | unsigned => s!"unsigned integer {width}"
  | float => if width = 4 then "float" else "double"
  | text => "utf8 string"
  | bytes => "byte string"
  | null => "null"
  | struct => "structure"
  | array => "array"
  | list => "list"

end Kind

inductive Tag where
  | anonymous
  | context (number : UInt8)
  | common (number : UInt32)
  | implicit (number : UInt32)
  | qualified (vendor profile : UInt16) (number : UInt32)
  deriving DecidableEq, Repr

inductive Scalar where
  | bool (v : Bool)
  | signed (size : WordSize) (v : BitVec size.bits)
  | unsigned (size : WordSize) (v : BitVec size.bits)
  | float (size : FloatSize) (v : BitVec size.bits)
  | text (size : WordSize) (v : String) (fits : size.holds v.utf8ByteSize = true)
  | bytes (size : WordSize) (v : List UInt8) (fits : size.holds v.length = true)
  | null
  deriving DecidableEq

inductive Shape where
  | struct
  | array
  | list
  deriving DecidableEq, Repr

def Shape.kind : Shape → Kind
  | struct => .struct
  | array => .array
  | list => .list

def Kind.shape? : Kind → Option Shape
  | .struct => some .struct
  | .array => some .array
  | .list => some .list
  | _ => none

/-- A tree of tagged elements. Kind and width follow from what an element holds, so they cannot
disagree with it. -/
inductive Element where
  | leaf (tag : Tag) (scalar : Scalar)
  | node (tag : Tag) (shape : Shape) (children : List Element)

namespace Scalar

def kind : Scalar → Kind
  | bool _ => .boolean
  | signed .. => .signed
  | unsigned .. => .unsigned
  | float .. => .float
  | text .. => .text
  | bytes .. => .bytes
  | null => .null

def width : Scalar → Nat
  | signed size _ | unsigned size _ | text size .. | bytes size .. => size.bytes
  | float size _ => size.bytes
  | bool _ | null => 0

def ofText (v : String) : Scalar := text _ v (WordSize.holds_narrowest _)

def ofBytes (v : List UInt8) : Scalar := bytes _ v (WordSize.holds_narrowest _)

def natural? : Scalar → Option Nat
  | unsigned _ v => some v.toNat
  | signed _ v => v.toInt.toNat?
  | _ => none

/-- Equality in which floats compare as numbers. -/
def same : Scalar → Scalar → Bool
  | float .single v, float .single w => FloatSize.single.same v w
  | float .double v, float .double w => FloatSize.double.same v w
  | float .., _ => false
  | s, t => decide (s = t)

end Scalar

namespace Element

instance : Inhabited Element := ⟨leaf .anonymous .null⟩

def tag : Element → Tag
  | leaf t _ | node t .. => t

def withTag (t : Tag) : Element → Element
  | leaf _ s => leaf t s
  | node _ shape children => node t shape children

def kind : Element → Kind
  | leaf _ s => s.kind
  | node _ shape _ => shape.kind

def width : Element → Nat
  | leaf _ s => s.width
  | node .. => 0

def isContainer (e : Element) : Bool := e.kind.isContainer

def children? : Element → Option (List Element)
  | leaf .. => none
  | node _ _ children => some children

def natural? : Element → Option Nat
  | leaf _ s => s.natural?
  | node .. => none

def describe (e : Element) : String := e.kind.describe e.width

mutual
/-- How deep containers are nested in each other. -/
def nesting : Element → Nat
  | leaf .. => 0
  | node _ _ children => 1 + deepest children

def deepest : List Element → Nat
  | [] => 0
  | e :: es => max (nesting e) (deepest es)
end

mutual
/-- Equality in which floats compare as numbers, so that a tree with a value that is no number
differs from itself. -/
def same : Element → Element → Bool
  | leaf t s, leaf u r => t = u && s.same r
  | node t a xs, node u b ys => t = u && a = b && allSame xs ys
  | _, _ => false

def allSame : List Element → List Element → Bool
  | [], [] => true
  | x :: xs, y :: ys => same x y && allSame xs ys
  | _, _ => false
end

mutual
def decEq : (a b : Element) → Decidable (a = b)
  | leaf t s, leaf u r => decidable_of_iff (t = u ∧ s = r) (by simp)
  | node t a xs, node u b ys =>
    have := decEqs xs ys
    decidable_of_iff (t = u ∧ a = b ∧ xs = ys) (by simp)
  | leaf .., node .. => isFalse (by simp)
  | node .., leaf .. => isFalse (by simp)

def decEqs : (xs ys : List Element) → Decidable (xs = ys)
  | [], [] => isTrue rfl
  | x :: xs, y :: ys =>
    have := decEq x y
    have := decEqs xs ys
    decidable_of_iff (x = y ∧ xs = ys) (by simp)
  | [], _ :: _ => isFalse (by simp)
  | _ :: _, [] => isFalse (by simp)
end

instance : DecidableEq Element := decEq

def bool (v : Bool) : Element := leaf .anonymous (.bool v)
def signed (size : WordSize) (v : BitVec size.bits) : Element := leaf .anonymous (.signed size v)
def unsigned (size : WordSize) (v : BitVec size.bits) : Element :=
  leaf .anonymous (.unsigned size v)
def float (size : FloatSize) (v : BitVec size.bits) : Element := leaf .anonymous (.float size v)
def text (v : String) : Element := leaf .anonymous (.ofText v)
def bytes (v : List UInt8) : Element := leaf .anonymous (.ofBytes v)
def null : Element := leaf .anonymous .null
def struct (children : List Element) : Element := node .anonymous .struct children
def array (children : List Element) : Element := node .anonymous .array children
def list (children : List Element) : Element := node .anonymous .list children

end Element

end DeviceTrial
