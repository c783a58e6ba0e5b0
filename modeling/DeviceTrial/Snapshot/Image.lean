import DeviceTrial.Store.Tree

namespace DeviceTrial

inductive Entry where
  | unreadable
  | value (type : String) (element : Element)

namespace Entry

def ofElement (e : Element) : Entry := value e.describe e

def element? : Entry → Option Element
  | value _ e => some e
  | unreadable => none

/-- What an attribute shows to a reader. -/
def ofAttribute (a : Attribute) : Entry :=
  match a.readable, a.current with
  | true, some e => ofElement e
  | _, _ => unreadable

def same : Entry → Entry → Bool
  | unreadable, unreadable => true
  | value t e, value u f => t == u && e.same f
  | _, _ => false

end Entry

structure ClusterImage where
  revision : UInt16
  attributes : SortedMap AttributeId Entry

structure EndpointImage where
  deviceTypes : List DeviceType
  clusters : SortedMap ClusterId ClusterImage

structure NodeImage where
  endpoints : SortedMap EndpointId EndpointImage

structure Snapshot where
  timestamp : String
  fabric : Option FabricId
  vendor : Option VendorId
  nodes : SortedMap NodeId NodeImage
  /-- The commands that led to the state, one a line. -/
  history : List String

namespace Snapshot

def entry? (s : Snapshot) (p : AttributePath) : Option Entry := do
  let node ← s.nodes.get? p.node
  let endpoint ← node.endpoints.get? p.endpoint
  let cluster ← endpoint.clusters.get? p.cluster
  cluster.attributes.get? p.id

/-- The number of attributes, readable or not. -/
def attributeCount (s : Snapshot) : Nat :=
  s.nodes.total fun node => node.endpoints.total fun endpoint =>
    endpoint.clusters.total fun cluster => cluster.attributes.size

def same (s t : Snapshot) : Bool :=
  let cluster (a b : ClusterImage) :=
    a.revision == b.revision && a.attributes.agree Entry.same b.attributes
  let endpoint (a b : EndpointImage) :=
    a.deviceTypes == b.deviceTypes && a.clusters.agree cluster b.clusters
  s.timestamp == t.timestamp && s.fabric == t.fabric && s.vendor == t.vendor &&
    s.history == t.history &&
    s.nodes.agree (fun a b => a.endpoints.agree endpoint b.endpoints) t.nodes

end Snapshot

namespace Cluster

def image (c : Cluster) : ClusterImage :=
  ⟨c.revision, c.attributes.mapValues fun _ => Entry.ofAttribute⟩

end Cluster

namespace Endpoint

def image (e : Endpoint) : EndpointImage :=
  ⟨e.deviceTypes, e.clusters.mapValues fun _ => Cluster.image⟩

end Endpoint

namespace Node

def image (n : Node) : NodeImage := ⟨n.endpoints.mapValues fun _ => Endpoint.image⟩

end Node

namespace Store

def dump (s : Store) (timestamp : String) (history : List String) : Snapshot :=
  ⟨timestamp, s.fabric, s.vendor, s.nodes.mapValues fun _ => Node.image, history⟩

/-- Adds an attribute and its value, if the image has one. -/
def restoreEntry (n : NodeId) (e : EndpointId) (c : ClusterId) (s : Store)
    (entry : AttributeId × Entry) :
    Except StoreFault Store := do
  let path : AttributePath := ⟨n, e, c, entry.1⟩
  let s ← s.addAttribute path
  match entry.2.element? with
  | some value => s.write path value
  | none => return s

/-- Adds a cluster with its attributes. The revision of the image counts, whatever the revision
attribute holds. -/
def restoreCluster (n : NodeId) (e : EndpointId) (s : Store) (entry : ClusterId × ClusterImage) :
    Except StoreFault Store := do
  let s ← s.addCluster n e entry.1 entry.2.revision
  let s ← entry.2.attributes.entries.foldlM (restoreEntry n e entry.1) s
  s.setRevision n e entry.1 entry.2.revision

def restoreEndpoint (n : NodeId) (s : Store) (entry : EndpointId × EndpointImage) :
    Except StoreFault Store := do
  let s ← s.addEndpoint n entry.1
  let s ← entry.2.deviceTypes.foldlM (fun s t => s.addDeviceType n entry.1 t) s
  entry.2.clusters.entries.foldlM (restoreCluster n entry.1) s

def restoreNode (s : Store) (entry : NodeId × NodeImage) : Except StoreFault Store :=
  entry.2.endpoints.entries.foldlM (restoreEndpoint entry.1) (s.addNode entry.1)

def load (snapshot : Snapshot) : Except StoreFault Store :=
  snapshot.nodes.entries.foldlM restoreNode ⟨snapshot.fabric, snapshot.vendor, .empty⟩

end Store

end DeviceTrial
