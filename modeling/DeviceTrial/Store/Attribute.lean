import DeviceTrial.Envelope.Element

namespace DeviceTrial

structure Signature where
  kind : Kind
  width : Nat
  deriving DecidableEq, Repr

namespace Signature

def ofElement (e : Element) : Signature := ⟨e.kind, e.width⟩

def describe (s : Signature) : String := s.kind.describe s.width

/-- Numbers have to keep their width. The length field of a string is the sender's choice. -/
def accepts (s : Signature) (e : Element) : Bool :=
  s.kind == e.kind &&
    match s.kind with
    | .signed | .unsigned | .float => s.width == e.width
    | _ => true

end Signature

/-- One of the two values that an attribute keeps. -/
inductive Generation where
  | current
  | previous
  deriving DecidableEq, Repr

/-- What is known of one attribute. A gate that is closed hides the values from readers, not from
writers. -/
structure Attribute where
  current : Option Element := none
  previous : Option Element := none
  readable : Bool := true
  /-- Fixed by the first value that is not null. -/
  signature : Option Signature := none
  nullable : Bool := false
  deriving DecidableEq

namespace Attribute

def get (a : Attribute) : Generation → Option Element
  | .current => a.current
  | .previous => a.previous

def shift (a : Attribute) (e : Element) : Attribute :=
  { a with current := some e, previous := a.current }

/-- Accepts a value, or tells what it should have been. -/
def write (a : Attribute) (e : Element) : Except Signature Attribute :=
  if e.kind = .null then .ok { a.shift e with nullable := true }
  else match a.signature with
    | none => .ok { a.shift e with signature := some (.ofElement e) }
    | some s => if s.accepts e then .ok (a.shift e) else .error s

def toggle (a : Attribute) : Attribute := { a with readable := !a.readable }

def same (a b : Attribute) : Bool :=
  let value : Option Element → Option Element → Bool
    | some x, some y => x.same y
    | none, none => true
    | _, _ => false
  value a.current b.current && value a.previous b.previous && a.readable == b.readable &&
    a.signature == b.signature && a.nullable == b.nullable

end Attribute

end DeviceTrial
