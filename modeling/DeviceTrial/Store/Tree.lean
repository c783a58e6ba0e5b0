import DeviceTrial.Paths
import DeviceTrial.Store.Attribute

namespace DeviceTrial

/-- What a look-up did not find. -/
inductive Segment where
  | node (node : NodeId)
  | endpoint (node : NodeId) (endpoint : EndpointId)
  | cluster (node : NodeId) (endpoint : EndpointId) (cluster : ClusterId)
  | leaf (path : AttributePath)
  deriving DecidableEq, Repr

def Segment.describe : Segment → String
  | node n => "node " ++ Numeral.decimal n.toNat
  | endpoint n e => "endpoint " ++ Numeral.decimal n.toNat ++ "/" ++ Numeral.decimal e.toNat
  | cluster n e c =>
    "cluster " ++ Numeral.decimal n.toNat ++ "/" ++ Numeral.decimal e.toNat ++ "/" ++
      Numeral.marked 4 c.toNat
  | leaf p => "attribute " ++ p.describe

inductive StoreFault where
  | notFound (segment : Segment)
  /-- The gate is closed, or there is no value. -/
  | unreadable (path : AttributePath)
  | typeMismatch (path : AttributePath) (expected found : Signature)
  deriving DecidableEq, Repr

def StoreFault.message : StoreFault → String
  | notFound segment => segment.describe ++ " not found"
  | unreadable path => "Attribute " ++ path.describe ++ " is unreadable"
  | typeMismatch path expected found =>
    "Attribute " ++ path.describe ++ " holds " ++ expected.describe ++ ", refusing a write of " ++
      found.describe

structure DeviceType where
  id : DeviceTypeId
  revision : UInt16
  deriving DecidableEq, Repr

/-- Puts a device type at the end, or in place of the one with the same id. -/
def DeviceType.merge (t : DeviceType) : List DeviceType → List DeviceType
  | [] => [t]
  | u :: us => if u.id = t.id then t :: us else u :: merge t us

structure Cluster where
  revision : UInt16
  attributes : SortedMap AttributeId Attribute

structure Endpoint where
  deviceTypes : List DeviceType
  clusters : SortedMap ClusterId Cluster

structure Node where
  endpoints : SortedMap EndpointId Endpoint

structure Store where
  fabric : Option FabricId
  vendor : Option VendorId
  nodes : SortedMap NodeId Node

def Element.revision? (e : Element) : Option UInt16 :=
  (e.natural?.filter (· < UInt16.size)).map UInt16.ofNat

namespace Cluster

def new (revision : UInt16) : Cluster := ⟨revision, .empty⟩

/-- Writes an attribute, which is created where it is absent. The revision attribute sets the
revision. -/
def write (c : Cluster) (path : AttributePath) (e : Element) : Except StoreFault Cluster :=
  match ((c.attributes.get? path.id).getD {}).write e with
  | .error expected => .error (.typeMismatch path expected (.ofElement e))
  | .ok a =>
    let told := if path.id = revisionAttribute then e.revision? else none
    .ok ⟨told.getD c.revision, c.attributes.insert path.id a⟩

end Cluster

namespace Endpoint

def new : Endpoint := ⟨[], .empty⟩

end Endpoint

namespace Node

def new : Node := ⟨.empty⟩

end Node

namespace Store

def empty : Store := ⟨none, none, .empty⟩

def node (s : Store) (n : NodeId) : Except StoreFault Node :=
  match s.nodes.get? n with
  | some node => .ok node
  | none => .error (.notFound (.node n))

def endpoint (s : Store) (n : NodeId) (e : EndpointId) : Except StoreFault Endpoint := do
  match (← s.node n).endpoints.get? e with
  | some endpoint => return endpoint
  | none => throw (.notFound (.endpoint n e))

def cluster (s : Store) (n : NodeId) (e : EndpointId) (c : ClusterId) :
    Except StoreFault Cluster := do
  match (← s.endpoint n e).clusters.get? c with
  | some cluster => return cluster
  | none => throw (.notFound (.cluster n e c))

def leaf (s : Store) (p : AttributePath) : Except StoreFault Attribute := do
  match (← s.cluster p.node p.endpoint p.cluster).attributes.get? p.id with
  | some a => return a
  | none => throw (.notFound (.leaf p))

def nodeIds (s : Store) : List NodeId := s.nodes.keys

def endpointIds (s : Store) (n : NodeId) : Except StoreFault (List EndpointId) := do
  return (← s.node n).endpoints.keys

def clusterIds (s : Store) (n : NodeId) (e : EndpointId) : Except StoreFault (List ClusterId) := do
  return (← s.endpoint n e).clusters.keys

def attributeIds (s : Store) (n : NodeId) (e : EndpointId) (c : ClusterId) :
    Except StoreFault (List AttributeId) := do
  return (← s.cluster n e c).attributes.keys

def deviceTypes (s : Store) (n : NodeId) (e : EndpointId) :
    Except StoreFault (List DeviceType) := do
  return (← s.endpoint n e).deviceTypes

def revision (s : Store) (n : NodeId) (e : EndpointId) (c : ClusterId) :
    Except StoreFault UInt16 := do
  return (← s.cluster n e c).revision

def isReadable (s : Store) (p : AttributePath) : Except StoreFault Bool := do
  return (← s.leaf p).readable

def read (s : Store) (p : AttributePath) (g : Generation) : Except StoreFault Element := do
  let a ← s.leaf p
  match a.readable, a.get g with
  | true, some e => return e
  | _, _ => throw (.unreadable p)

def modifyNode (s : Store) (n : NodeId) (f : Node → Except StoreFault Node) :
    Except StoreFault Store := do
  return { s with nodes := ← s.nodes.modify n (.notFound (.node n)) f }

def modifyEndpoint (s : Store) (n : NodeId) (e : EndpointId)
    (f : Endpoint → Except StoreFault Endpoint) :
    Except StoreFault Store :=
  s.modifyNode n fun node => do
    return { node with endpoints := ← node.endpoints.modify e (.notFound (.endpoint n e)) f }

def modifyCluster (s : Store) (n : NodeId) (e : EndpointId) (c : ClusterId)
    (f : Cluster → Except StoreFault Cluster) :
    Except StoreFault Store :=
  s.modifyEndpoint n e fun endpoint => do
    return { endpoint with clusters := ← endpoint.clusters.modify c (.notFound (.cluster n e c)) f }

def modifyLeaf (s : Store) (p : AttributePath) (f : Attribute → Except StoreFault Attribute) :
    Except StoreFault Store :=
  s.modifyCluster p.node p.endpoint p.cluster fun cluster => do
    return { cluster with attributes := ← cluster.attributes.modify p.id (.notFound (.leaf p)) f }

def setIdentity (s : Store) (fabric : FabricId) (vendor : VendorId) : Store :=
  { s with fabric := some fabric, vendor := some vendor }

def addNode (s : Store) (n : NodeId) : Store := { s with nodes := s.nodes.insertNew n .new }

def addEndpoint (s : Store) (n : NodeId) (e : EndpointId) : Except StoreFault Store :=
  s.modifyNode n fun node => .ok { node with endpoints := node.endpoints.insertNew e .new }

/-- Adds a cluster. One that is known keeps its revision. -/
def addCluster (s : Store) (n : NodeId) (e : EndpointId) (c : ClusterId) (revision : UInt16) :
    Except StoreFault Store :=
  s.modifyEndpoint n e fun endpoint => .ok
    { endpoint with clusters := endpoint.clusters.insertNew c (.new revision) }

def addAttribute (s : Store) (p : AttributePath) : Except StoreFault Store :=
  s.modifyCluster p.node p.endpoint p.cluster fun cluster =>
    .ok { cluster with attributes := cluster.attributes.insertNew p.id {} }

/-- Records a device type. Of one reported again the revision is refreshed. -/
def addDeviceType (s : Store) (n : NodeId) (e : EndpointId) (t : DeviceType) :
    Except StoreFault Store :=
  s.modifyEndpoint n e fun endpoint => .ok
    { endpoint with deviceTypes := t.merge endpoint.deviceTypes }

def write (s : Store) (p : AttributePath) (e : Element) : Except StoreFault Store :=
  s.modifyCluster p.node p.endpoint p.cluster (·.write p e)

/-- Opens a closed gate and closes an open one. Tells whether it is open now. -/
def toggle (s : Store) (p : AttributePath) : Except StoreFault (Bool × Store) := do
  let a ← s.leaf p
  return (a.toggle.readable, ← s.modifyLeaf p fun a => .ok a.toggle)

def setRevision (s : Store) (n : NodeId) (e : EndpointId) (c : ClusterId) (revision : UInt16) :
    Except StoreFault Store :=
  s.modifyCluster n e c fun cluster => .ok { cluster with revision := revision }

def same (s t : Store) : Bool :=
  let cluster (a b : Cluster) :=
    a.revision == b.revision && a.attributes.agree Attribute.same b.attributes
  let endpoint (a b : Endpoint) :=
    a.deviceTypes == b.deviceTypes && a.clusters.agree cluster b.clusters
  s.fabric == t.fabric && s.vendor == t.vendor &&
    s.nodes.agree (fun a b => a.endpoints.agree endpoint b.endpoints) t.nodes

end Store

end DeviceTrial
