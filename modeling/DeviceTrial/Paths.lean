import DeviceTrial.Numeral
import DeviceTrial.SortedMap
import DeviceTrial.Text.Parts

namespace DeviceTrial

abbrev NodeId := UInt64
abbrev FabricId := UInt64
abbrev VendorId := UInt16
abbrev EndpointId := UInt16
abbrev ClusterId := UInt32
abbrev AttributeId := UInt32
abbrev CommandId := UInt32
abbrev EventId := UInt32
abbrev DeviceTypeId := UInt32

/-- The attribute that carries the revision of its own cluster. -/
def revisionAttribute : AttributeId := 0xFFFD

/-- Clusters that manufacturers define for tests. -/
def isTestingCluster (cluster : ClusterId) : Bool :=
  let manufacturer := cluster.toNat / 65536
  let product := cluster.toNat % 65536
  decide (0xFFF1 ≤ manufacturer ∧ manufacturer ≤ 0xFFF4 ∧ 0xFC00 ≤ product)

structure AttributePath where
  node : NodeId
  endpoint : EndpointId
  cluster : ClusterId
  id : AttributeId
  deriving DecidableEq, Repr

structure EventPath where
  node : NodeId
  endpoint : EndpointId
  cluster : ClusterId
  id : EventId
  deriving DecidableEq, Repr

inductive CommandKind where
  | invoke
  | write
  deriving DecidableEq, Repr

/-- What a round asks of a device: a command, or a write of an attribute. Its id is one of the same
kind. -/
structure CommandPath where
  kind : CommandKind
  endpoint : EndpointId
  cluster : ClusterId
  id : UInt32
  deriving DecidableEq, Repr

namespace AttributePath

instance : Ranked AttributePath where
  rank p :=
    ((p.node.toNat * 65536 + p.endpoint.toNat) * 4294967296 + p.cluster.toNat) * 4294967296 +
      p.id.toNat
  rank_inj := by
    intro ⟨n, e, c, a⟩ ⟨n', e', c', a'⟩ h
    have := e.toNat_lt
    have := e'.toNat_lt
    have := c.toNat_lt
    have := c'.toNat_lt
    have := a.toNat_lt
    have := a'.toNat_lt
    simp only at h
    obtain rfl := UInt64.toNat_inj.mp (show n.toNat = n'.toNat by omega)
    obtain rfl := UInt16.toNat_inj.mp (show e.toNat = e'.toNat by omega)
    obtain rfl := UInt32.toNat_inj.mp (show c.toNat = c'.toNat by omega)
    obtain rfl := UInt32.toNat_inj.mp (show a.toNat = a'.toNat by omega)
    rfl

end AttributePath

namespace CommandPath

def isCommand (p : CommandPath) : Bool := p.kind == .invoke

instance : Ranked CommandPath where
  rank p :=
    ((p.isCommand.toNat * 65536 + p.endpoint.toNat) * 4294967296 + p.cluster.toNat) * 4294967296 +
      p.id.toNat
  rank_inj := by
    intro ⟨k, e, c, i⟩ ⟨k', e', c', i'⟩ h
    have := e.toNat_lt
    have := e'.toNat_lt
    have := c.toNat_lt
    have := c'.toNat_lt
    have := i.toNat_lt
    have := i'.toNat_lt
    have hb (x : CommandKind) : (x == .invoke).toNat = if x = .invoke then 1 else 0 := by
      cases x <;> rfl
    simp only [isCommand, hb] at h
    obtain rfl : k = k' := by cases k <;> cases k' <;> simp at h ⊢ <;> omega
    obtain rfl := UInt16.toNat_inj.mp (show e.toNat = e'.toNat by omega)
    obtain rfl := UInt32.toNat_inj.mp (show c.toNat = c'.toNat by omega)
    obtain rfl := UInt32.toNat_inj.mp (show i.toNat = i'.toNat by omega)
    rfl

end CommandPath

def AttributePath.describe (p : AttributePath) : String :=
  Numeral.decimal p.node.toNat ++ "/" ++ Numeral.decimal p.endpoint.toNat ++ "/" ++
    Numeral.marked 4 p.cluster.toNat ++ "/" ++ Numeral.marked 4 p.id.toNat

def EventPath.describe (p : EventPath) : String :=
  Numeral.decimal p.node.toNat ++ "/" ++ Numeral.decimal p.endpoint.toNat ++ "/" ++
    Numeral.marked 4 p.cluster.toNat ++ "/event " ++ Numeral.marked 4 p.id.toNat

def CommandKind.verb : CommandKind → String
  | invoke => "invoke"
  | write => "write"

def CommandPath.describe (p : CommandPath) : String :=
  p.kind.verb ++ " e=" ++ Numeral.decimal p.endpoint.toNat ++ " c=" ++
    Numeral.marked 4 p.cluster.toNat ++ " id=" ++ Numeral.marked 4 p.id.toNat

inductive IdFault where
  | empty
  | notDigit
  | tooLarge
  deriving DecidableEq, Repr

def IdFault.message : IdFault → String
  | empty => "cannot parse integer from empty string"
  | notDigit => "invalid digit found in string"
  | tooLarge => "number too large to fit in target type"

inductive PathFault where
  | notAnId (text : String) (fault : IdFault)
  | outOfRange (text : String)
  /-- There are not four parts. -/
  | notAPath (text : String)
  deriving DecidableEq, Repr

def PathFault.message : PathFault → String
  | notAnId text fault => "invalid id '" ++ text ++ "': " ++ fault.message
  | outOfRange text => "id '" ++ text ++ "' is out of range"
  | notAPath text => "expected node/endpoint/cluster/attribute, got '" ++ text ++ "'"

namespace AttributePath

/-- Reads digits after a value. The first digit that leaves 64 bits ends the reading, unless it is
no digit at all. -/
def readDigits (base : Nat) : Nat → List Char → Except IdFault Nat
  | acc, [] => .ok acc
  | acc, c :: cs =>
    match Numeral.digit? base c with
    | none => .error .notDigit
    | some d =>
      if acc * base + d < UInt64.size then readDigits base (acc * base + d) cs else .error .tooLarge

def readNumber (base : Nat) : List Char → Except IdFault Nat
  | [] => .error .empty
  | ['+'] => .error .notDigit
  | '+' :: cs => readDigits base 0 cs
  | cs => readDigits base 0 cs

/-- A number of at most 64 bits, in decimal or behind its mark in hexadecimal. -/
def readId : List Char → Except IdFault Nat
  | '0' :: 'x' :: cs | '0' :: 'X' :: cs => readNumber 16 cs
  | cs => readNumber 10 cs

def boundedId (bound : Nat) (cs : List Char) : Except PathFault Nat :=
  match readId cs with
  | .error fault => .error (.notAnId (String.ofList cs) fault)
  | .ok n => if n < bound then .ok n else .error (.outOfRange (String.ofList cs))

/-- Reads the notation in which paths are shown, and more: every id may be in decimal or behind the
mark `0x`. -/
def parse (text : String) : Except PathFault AttributePath :=
  match Text.parts '/' text.toList with
  | [node, endpoint, cluster, id] => do
    let node ← boundedId UInt64.size node
    let endpoint ← boundedId UInt16.size endpoint
    let cluster ← boundedId UInt32.size cluster
    let id ← boundedId UInt32.size id
    return ⟨UInt64.ofNat node, UInt16.ofNat endpoint, UInt32.ofNat cluster, UInt32.ofNat id⟩
  | _ => .error (.notAPath text)

end AttributePath

end DeviceTrial
