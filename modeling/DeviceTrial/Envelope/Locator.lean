import DeviceTrial.Envelope.Element

namespace DeviceTrial

inductive Locator where
  /-- The first child of a structure. What is no structure is itself the payload. -/
  | firstOfStruct
  | whole
  deriving DecidableEq, Repr

def Locator.locate : Locator → Element → Option Element
  | whole, e => some e
  | firstOfStruct, .node _ .struct children => children.head?
  | firstOfStruct, e => some e

end DeviceTrial
