import DeviceTrial.Proofs.Store.DeviceTypes

namespace DeviceTrial

def Attribute.settled (a : Attribute) : Attribute := (Entry.ofAttribute a).toAttribute

def Cluster.settled (c : Cluster) : Cluster := c.image.toCluster

def Endpoint.settled (e : Endpoint) : Endpoint := e.image.toEndpoint

def Node.settled (n : Node) : Node := n.image.toNode

/-- The store that any dump of a store describes. -/
def Store.settled (s : Store) : Store := (s.dump "" []).toStore

theorem Attribute.current_settled (a : Attribute) :
    a.settled.current = if a.readable then a.current else none := by
  unfold settled Entry.toAttribute Entry.ofAttribute restored
  cases a.readable with
  | false => rfl
  | true => cases a.current <;> rfl

theorem Cluster.attributes_settled (c : Cluster) :
    c.settled.attributes = c.attributes.mapValues fun _ => Attribute.settled :=
  SortedMap.mapValues_mapValues (fun _ => Entry.ofAttribute) (fun _ => Entry.toAttribute) _

theorem Endpoint.clusters_settled (e : Endpoint) :
    e.settled.clusters = e.clusters.mapValues fun _ => Cluster.settled :=
  SortedMap.mapValues_mapValues (fun _ => Cluster.image) (fun _ => ClusterImage.toCluster) _

theorem Node.endpoints_settled (n : Node) :
    n.settled.endpoints = n.endpoints.mapValues fun _ => Endpoint.settled :=
  SortedMap.mapValues_mapValues (fun _ => Endpoint.image) (fun _ => EndpointImage.toEndpoint) _

namespace Store

theorem nodes_settled (s : Store) :
    s.settled.nodes = s.nodes.mapValues fun _ => Node.settled :=
  SortedMap.mapValues_mapValues (fun _ => Node.image) (fun _ => NodeImage.toNode) _

variable (s : Store) (n : NodeId) (e : EndpointId) (c : ClusterId) (p : AttributePath)

theorem node_settled : s.settled.node n = (s.node n).map Node.settled := by
  unfold node
  rw [nodes_settled, SortedMap.get?_mapValues]
  cases s.nodes.get? n <;> rfl

theorem endpoint_settled : s.settled.endpoint n e = (s.endpoint n e).map Endpoint.settled := by
  unfold endpoint
  rw [node_settled]
  cases s.node n with
  | error fault => rfl
  | ok node =>
    simp only [Except.map, bind, Except.bind, Node.endpoints_settled, SortedMap.get?_mapValues]
    cases node.endpoints.get? e <;> rfl

theorem cluster_settled : s.settled.cluster n e c = (s.cluster n e c).map Cluster.settled := by
  unfold cluster
  rw [endpoint_settled]
  cases s.endpoint n e with
  | error fault => rfl
  | ok endpoint =>
    simp only [Except.map, bind, Except.bind, Endpoint.clusters_settled, SortedMap.get?_mapValues]
    cases endpoint.clusters.get? c <;> rfl

theorem leaf_settled : s.settled.leaf p = (s.leaf p).map Attribute.settled := by
  unfold leaf
  rw [cluster_settled]
  cases s.cluster p.node p.endpoint p.cluster with
  | error fault => rfl
  | ok cluster =>
    simp only [Except.map, bind, Except.bind, Cluster.attributes_settled, SortedMap.get?_mapValues]
    cases cluster.attributes.get? p.id <;> rfl

/-- The second store answers every question about what is there, and every read of a latest value,
as the first does. All its gates are open and no earlier value can be read. -/
structure Restores (s u : Store) : Prop where
  current : ∀ p, u.read p .current = s.read p .current
  nodeIds : u.nodeIds = s.nodeIds
  endpointIds : ∀ n, u.endpointIds n = s.endpointIds n
  clusterIds : ∀ n e, u.clusterIds n e = s.clusterIds n e
  attributeIds : ∀ n e c, u.attributeIds n e c = s.attributeIds n e c
  deviceTypes : ∀ n e, u.deviceTypes n e = s.deviceTypes n e
  revision : ∀ n e c, u.revision n e c = s.revision n e c
  fabric : u.fabric = s.fabric
  vendor : u.vendor = s.vendor
  opened : ∀ p a, u.leaf p = .ok a → u.isReadable p = .ok true
  previous : ∀ p a, u.leaf p = .ok a → u.read p .previous = .error (.unreadable p)

theorem nodeIds_settled : s.settled.nodeIds = s.nodeIds := by
  unfold nodeIds
  rw [nodes_settled, SortedMap.keys_mapValues]

theorem endpointIds_settled : s.settled.endpointIds n = s.endpointIds n := by
  unfold endpointIds
  rw [node_settled]
  cases s.node n with
  | error fault => rfl
  | ok node =>
    simp only [Except.map, bind, Except.bind, Node.endpoints_settled, SortedMap.keys_mapValues]

theorem clusterIds_settled : s.settled.clusterIds n e = s.clusterIds n e := by
  unfold clusterIds
  rw [endpoint_settled]
  cases s.endpoint n e with
  | error fault => rfl
  | ok endpoint =>
    simp only [Except.map, bind, Except.bind, Endpoint.clusters_settled, SortedMap.keys_mapValues]

theorem attributeIds_settled : s.settled.attributeIds n e c = s.attributeIds n e c := by
  unfold attributeIds
  rw [cluster_settled]
  cases s.cluster n e c with
  | error fault => rfl
  | ok cluster =>
    simp only [Except.map, bind, Except.bind, Cluster.attributes_settled, SortedMap.keys_mapValues]

theorem revision_settled : s.settled.revision n e c = s.revision n e c := by
  unfold revision
  rw [cluster_settled]
  cases s.cluster n e c <;> rfl

variable {s} in
/-- Device types come back in their order if none is listed twice. -/
theorem DistinctTypes.deviceTypes_settled (h : s.DistinctTypes) :
    s.settled.deviceTypes n e = s.deviceTypes n e := by
  unfold deviceTypes
  rw [endpoint_settled]
  cases hendpoint : s.endpoint n e with
  | error fault => rfl
  | ok endpoint =>
    have hdistinct := h n e endpoint (endpoint_eq_ok_iff_eq_some.mp hendpoint)
    exact congrArg Except.ok (DeviceType.merged_eq_self hdistinct)

theorem current_settled : s.settled.read p .current = s.read p .current := by
  cases hleaf : s.leaf p with
  | error fault =>
    unfold read
    rw [leaf_settled, hleaf]
    rfl
  | ok a =>
    have hsettled : s.settled.leaf p = .ok a.settled := by
      rw [leaf_settled, hleaf]
      rfl
    rw [read_of_leaf hsettled, read_of_leaf hleaf]
    -- a value behind a closed gate is not restored, so neither store shows it
    unfold Attribute.get
    rw [Attribute.current_settled]
    cases a.readable with
    | false => rfl
    | true => rfl

theorem leaf_settled_eq_ok {a : Attribute} (h : s.settled.leaf p = .ok a) :
    a.readable = true ∧ a.previous = none := by
  rw [leaf_settled] at h
  cases hleaf : s.leaf p with
  | error fault =>
    rw [hleaf] at h
    cases h
  | ok b =>
    rw [hleaf] at h
    cases h
    exact ⟨rfl, rfl⟩

variable {s} in
theorem DistinctTypes.restores_settled (h : s.DistinctTypes) : s.Restores s.settled where
  current := s.current_settled
  nodeIds := s.nodeIds_settled
  endpointIds := s.endpointIds_settled
  clusterIds := s.clusterIds_settled
  attributeIds := s.attributeIds_settled
  deviceTypes := h.deviceTypes_settled
  revision := s.revision_settled
  fabric := rfl
  vendor := rfl
  opened := by
    intro p a ha
    rw [isReadable, ha, ← (s.leaf_settled_eq_ok p ha).1]
    rfl
  previous := by
    intro p a ha
    obtain ⟨hopen, hnone⟩ := s.leaf_settled_eq_ok p ha
    rw [read_of_leaf ha, Attribute.get, hopen, hnone]

/-- Whatever store loads a dump of a store that was reached by calls shows what that one shows. -/
theorem load_dump (calls : List StoreCall) (timestamp : String) (history : List String)
    (t : Store) :
    ∃ u, t.apply (.load ((Store.of calls).dump timestamp history)) = .ok u ∧
      (Store.of calls).Restores u :=
  ⟨_, load_eq_toStore _, (distinctTypes_of calls).restores_settled⟩

/-- The recorded revision counts, although the revision attribute was written. -/
theorem load_dump_revision :
    let p : AttributePath := ⟨1, 0, 6, revisionAttribute⟩
    let q : AttributePath := ⟨1, 0, 6, 0⟩
    let x : Snapshot := ⟨"", some 3, none, .ofList [(1, ⟨.ofList [(0, ⟨[⟨22, 1⟩, ⟨17, 1⟩],
      .ofList [(6, ⟨4, .ofList [(revisionAttribute, .ofElement (.unsigned .two 9))]⟩)]⟩)]⟩)], []⟩
    let s := Store.of [.load x, .addDeviceType 1 0 ⟨22, 2⟩, .write q .null, .toggle q]
    ∃ u, Store.empty.apply (.load (s.dump "" [])) = .ok u ∧
      u.revision 1 0 6 = .ok 4 ∧
      u.read p .current = .ok (.unsigned .two 9) ∧ u.read p .previous = .error (.unreadable p) ∧
      u.read q .current = .error (.unreadable q) ∧
      u.deviceTypes 1 0 = .ok [⟨22, 2⟩, ⟨17, 1⟩] := by
  intro p q x s
  obtain ⟨u, hload, h⟩ :=
    load_dump [.load x, .addDeviceType 1 0 ⟨22, 2⟩, .write q .null, .toggle q] "" [] .empty
  have hshown : s.revision 1 0 6 = .ok 4 ∧ s.read p .current = .ok (.unsigned .two 9) ∧
      s.read q .current = .error (.unreadable q) ∧
      s.deviceTypes 1 0 = .ok [⟨22, 2⟩, ⟨17, 1⟩] := by
    decide +kernel
  obtain ⟨hrevision, hp, hq, htypes⟩ := hshown
  have hcurrent := (h.current p).trans hp
  obtain ⟨a, ha, -⟩ := bind_eq_ok_iff.mp hcurrent
  exact ⟨u, hload, (h.revision 1 0 6).trans hrevision, hcurrent, h.previous p a ha,
    (h.current q).trans hq, (h.deviceTypes 1 0).trans htypes⟩

end Store

end DeviceTrial
