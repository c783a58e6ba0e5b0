import DeviceTrial.Numeral
import DeviceTrial.SortedMap

namespace DeviceTrial

structure Status where
  code : UInt8
  deriving DecidableEq, Repr

namespace Status

def success : Status := ⟨0x00⟩
def failure : Status := ⟨0x01⟩
def unsupportedAccess : Status := ⟨0x7E⟩
def invalidCommand : Status := ⟨0x85⟩
def constraintError : Status := ⟨0x87⟩
def unsupportedRead : Status := ⟨0x8F⟩
def timeout : Status := ⟨0x94⟩
def unsupportedNode : Status := ⟨0x9B⟩

def names : List (UInt8 × String) := [
  (0x00, "Success"),
  (0x01, "Failure"),
  (0x7D, "InvalidSubscription"),
  (0x7E, "UnsupportedAccess"),
  (0x7F, "UnsupportedEndpoint"),
  (0x80, "InvalidAction"),
  (0x81, "UnsupportedCommand"),
  (0x85, "InvalidCommand"),
  (0x86, "UnsupportedAttribute"),
  (0x87, "ConstraintError"),
  (0x88, "UnsupportedWrite"),
  (0x89, "ResourceExhausted"),
  (0x8B, "NotFound"),
  (0x8C, "UnreportableAttribute"),
  (0x8D, "InvalidDataType"),
  (0x8F, "UnsupportedRead"),
  (0x92, "DataVersionMismatch"),
  (0x94, "Timeout"),
  (0x9B, "UnsupportedNode"),
  (0x9C, "Busy"),
  (0x9D, "AccessRestricted"),
  (0xC3, "UnsupportedCluster"),
  (0xC5, "NoUpstreamSubscription"),
  (0xC6, "NeedsTimedInteraction"),
  (0xC7, "UnsupportedEvent"),
  (0xC8, "PathsExhausted"),
  (0xC9, "TimedRequestMismatch"),
  (0xCA, "FailsafeRequired"),
  (0xCB, "InvalidInState"),
  (0xCC, "NoCommandResponse")]

def name? (s : Status) : Option String := names.lookup s.code

def isNamed (s : Status) : Bool := s.name?.isSome

def describe (s : Status) : String :=
  s.name?.getD ("Unknown(" ++ Numeral.marked 2 s.code.toNat ++ ")")

/-- Named statuses come first; within both groups the codes ascend. -/
instance : Ranked Status where
  rank s := if s.isNamed then s.code.toNat else 256 + s.code.toNat
  rank_inj := by
    intro a b h
    have ha := a.code.toNat_lt
    have hb := b.code.toNat_lt
    have hc : a.code.toNat = b.code.toNat := by
      split at h <;> split at h <;> omega
    obtain ⟨a⟩ := a
    obtain ⟨b⟩ := b
    exact congrArg Status.mk (UInt8.toNat_inj.mp hc)

end Status

end DeviceTrial
