import DeviceTrial.Arrival

namespace DeviceTrial

structure Reply where
  status : Status
  response : Option (List UInt8)
  deriving DecidableEq, Repr

inductive LinkFault where
  | notConnected (node : NodeId)
  | failure (code : UInt32) (message : String)
  deriving DecidableEq, Repr

namespace LinkFault

def message : LinkFault → String
  | notConnected node => "No session with node " ++ Numeral.decimal node.toNat
  | failure code text => "Transport failure " ++ Numeral.marked 1 code.toNat ++ ": " ++ text

def code : LinkFault → UInt32
  | notConnected _ => UInt32.ofNat Status.unsupportedNode.code.toNat
  | failure code _ => code

end LinkFault

inductive Reaction where
  | reply (reply : Reply)
  | fault (fault : LinkFault)
  /-- The device crashed, and may have said why. -/
  | crash (reason : Option String)

/-- What reaches the driver. A crash reads as a timeout. -/
def Reaction.received (destination : NodeId) (path : CommandPath) :
    Reaction → Told (Except LinkFault Reply)
  | reply r => return .ok r
  | fault f => return .error f
  | crash reason => do
    tell .error "simulated device panicked"
      [("path", path.describe), ("destination", Numeral.decimal destination.toNat),
        ("panic", reason.getD "Unknown panic type")]
    return .ok ⟨.timeout, none⟩

/-- A device with a state of its own, which sees the bench and may change it. -/
structure Device (σ : Type) where
  respond : σ → Bench → NodeId → CommandPath → List UInt8 → Told (Reaction × σ × Bench)

end DeviceTrial
