import DeviceTrial.Digest
import DeviceTrial.Paths
import DeviceTrial.Status

namespace DeviceTrial

structure Observation where
  round : Nat
  path : CommandPath
  status : Option Status
  changed : SortedSet AttributePath

namespace Observation

def kindByte : CommandKind → UInt8
  | .invoke => 0
  | .write => 1

def pathBytes (p : AttributePath) : List UInt8 :=
  littleEndian 8 p.node.toNat ++ littleEndian 2 p.endpoint.toNat ++
    littleEndian 4 p.cluster.toNat ++ littleEndian 4 p.id.toNat

/-- The behaviour as bytes. -/
def canonical (o : Observation) : List UInt8 :=
  littleEndian 2 o.path.endpoint.toNat ++ littleEndian 4 o.path.cluster.toNat ++
    littleEndian 4 o.path.id.toNat ++ [kindByte o.path.kind] ++
    (match o.status with
      | some s => [1, s.code]
      | none => [0, 0]) ++
    o.changed.keys.flatMap pathBytes

def digest (o : Observation) : List UInt8 := Digest.md5 o.canonical

def answer (status : Option Status) : String := (status.map Status.describe).getD "no response"

def describe (o : Observation) : String :=
  "round " ++ Numeral.decimal o.round ++ " " ++ o.path.describe ++ " -> " ++ answer o.status ++
    if o.changed.isEmpty then ""
    else " changed [" ++ ", ".intercalate (o.changed.keys.map AttributePath.describe) ++ "]"

end Observation

/-- Keeps each behaviour once, and knows it by its digest, also after it was taken out. -/
structure ObservationLog where
  /-- The digests of all observations that were ever recorded. -/
  known : List (List UInt8)
  records : List Observation

namespace ObservationLog

def empty : ObservationLog := ⟨[], []⟩

def knows (l : ObservationLog) (o : Observation) : Bool := l.known.contains o.digest

/-- A log after a recording, and whether it was of a new behaviour. -/
structure Recorded extends ObservationLog where
  isNew : Bool

instance : Coe Recorded ObservationLog := ⟨Recorded.toObservationLog⟩

/-- Records an observation of a behaviour that is not known yet. -/
def record (l : ObservationLog) (o : Observation) : Recorded :=
  if l.knows o then { l with isNew := false }
  else { known := o.digest :: l.known, records := l.records ++ [o], isNew := true }

/-- Takes the records out. -/
def drain (l : ObservationLog) : List Observation × ObservationLog := (l.records, ⟨l.known, []⟩)

end ObservationLog

end DeviceTrial
