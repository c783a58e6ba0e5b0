import DeviceTrial.Proofs.Store.Operations
import DeviceTrial.Snapshot.Image

namespace DeviceTrial

/-- An attribute that knows nothing but its latest value, if it has one. -/
def Attribute.restored (v : Option Element) : Attribute where
  current := v
  signature := (v.filter (·.kind ≠ .null)).map .ofElement
  nullable := v.any (·.kind = .null)

def Entry.toAttribute (entry : Entry) : Attribute := .restored entry.element?

def ClusterImage.toCluster (image : ClusterImage) : Cluster :=
  ⟨image.revision, image.attributes.mapValues fun _ => Entry.toAttribute⟩

/-- The device types of a list as they are recorded one after another. -/
def DeviceType.merged (types : List DeviceType) : List DeviceType :=
  types.foldl (fun us t => t.merge us) []

def EndpointImage.toEndpoint (image : EndpointImage) : Endpoint :=
  ⟨DeviceType.merged image.deviceTypes, image.clusters.mapValues fun _ => ClusterImage.toCluster⟩

def NodeImage.toNode (image : NodeImage) : Node :=
  ⟨image.endpoints.mapValues fun _ => EndpointImage.toEndpoint⟩

def Snapshot.toStore (x : Snapshot) : Store :=
  ⟨x.fabric, x.vendor, x.nodes.mapValues fun _ => NodeImage.toNode⟩

def Snapshot.cluster? (x : Snapshot) (n : NodeId) (e : EndpointId) (c : ClusterId) :
    Option ClusterImage := do
  let node ← x.nodes.get? n
  let endpoint ← node.endpoints.get? e
  endpoint.clusters.get? c

theorem Snapshot.entry?_eq_bind (x : Snapshot) (p : AttributePath) : x.entry? p =
    (x.cluster? p.node p.endpoint p.cluster).bind (·.attributes.get? p.id) := by
  simp only [Snapshot.entry?, Snapshot.cluster?, Option.bind_eq_bind, Option.bind_assoc]

theorem Attribute.write_new (v : Element) :
    ({} : Attribute).write v = .ok (.restored (some v)) := by
  unfold Attribute.write Attribute.restored
  by_cases hv : v.kind = .null
  · simp [hv, Attribute.shift, Option.filter]
  · simp [hv, Attribute.shift, Option.filter]

namespace Store

theorem restoreEntry_putCluster (s : Store) (n : NodeId) (e : EndpointId) (c : ClusterId)
    (revision : UInt16) {m : SortedMap AttributeId Attribute} {i : AttributeId} (entry : Entry)
    (hnew : m.get? i = none) :
    ∃ told, restoreEntry n e c (s.putCluster n e c ⟨revision, m⟩) (i, entry) =
      .ok (s.putCluster n e c ⟨told, m.insert i entry.toAttribute⟩) := by
  have hfound (m : SortedMap AttributeId Attribute) :
      (s.putCluster n e c ⟨revision, m⟩).cluster? n e c = some ⟨revision, m⟩ :=
    cluster_eq_ok_iff_eq_some.mp (cluster_putCluster_self ..)
  have hadd : (s.putCluster n e c ⟨revision, m⟩).addAttribute ⟨n, e, c, i⟩ =
      .ok (s.putCluster n e c ⟨revision, m.insert i {}⟩) := by
    refine addAttribute_eq_ok_iff.mpr ⟨_, hfound m, ?_⟩
    rw [attribute?_eq (hfound m), hnew, putCluster_putCluster]
    rfl
  have hwrite (v : Element) : ∃ told,
      (s.putCluster n e c ⟨revision, m.insert i {}⟩).write ⟨n, e, c, i⟩ v =
        .ok (s.putCluster n e c ⟨told, m.insert i (.restored (some v))⟩) := by
    refine ⟨(if i = revisionAttribute then v.revision? else none).getD revision,
      write_eq_ok_iff.mpr ⟨_, .restored (some v), hfound (m.insert i {}), ?_, ?_⟩⟩
    · rw [attribute?_eq (hfound (m.insert i {})), SortedMap.get?_insert_self]
      exact Attribute.write_new v
    · rw [putCluster_putCluster, SortedMap.insert_insert]
  unfold restoreEntry Entry.toAttribute
  cases entry.element? with
  | none => exact ⟨revision, bind_eq_ok_iff.mpr ⟨_, hadd, rfl⟩⟩
  | some v =>
    obtain ⟨told, hwrite⟩ := hwrite v
    exact ⟨told, bind_eq_ok_iff.mpr ⟨_, hadd, hwrite⟩⟩

theorem setRevision_putCluster (s : Store) (n : NodeId) (e : EndpointId) (c : ClusterId)
    (cluster : Cluster) (revision : UInt16) :
    (s.putCluster n e c cluster).setRevision n e c revision =
      .ok (s.putCluster n e c { cluster with revision := revision }) := by
  refine modifyCluster_eq_ok_iff.mpr ⟨cluster, _, cluster_putCluster_self .., rfl, ?_⟩
  rw [putCluster_putCluster]

theorem putCluster_putEndpoint (s : Store) (n : NodeId) (e : EndpointId) (endpoint : Endpoint)
    (c : ClusterId) (cluster : Cluster) :
    (s.putEndpoint n e endpoint).putCluster n e c cluster =
      s.putEndpoint n e { endpoint with clusters := endpoint.clusters.insert c cluster } := by
  rw [putCluster_eq, putEndpoint_putEndpoint, endpoint?_putEndpoint, if_pos ⟨rfl, rfl⟩]
  rfl

theorem restoreCluster_putEndpoint (s : Store) (n : NodeId) (e : EndpointId)
    (types : List DeviceType) {m : SortedMap ClusterId Cluster} {c : ClusterId}
    (image : ClusterImage) (hnew : m.get? c = none) :
    restoreCluster n e (s.putEndpoint n e ⟨types, m⟩) (c, image) =
      .ok (s.putEndpoint n e ⟨types, m.insert c image.toCluster⟩) := by
  have hfound : (s.putEndpoint n e ⟨types, m⟩).endpoint? n e = some ⟨types, m⟩ := by
    rw [endpoint?_putEndpoint, if_pos ⟨rfl, rfl⟩]
  have hadd : (s.putEndpoint n e ⟨types, m⟩).addCluster n e c image.revision =
      .ok ((s.putEndpoint n e ⟨types, m⟩).putCluster n e c ⟨image.revision, .empty⟩) := by
    refine addCluster_eq_ok_iff.mpr ⟨⟨_, hfound⟩, ?_⟩
    rw [cluster?_putEndpoint, if_pos ⟨rfl, rfl⟩, hnew]
    rfl
  -- a value of the revision attribute may change the revision on the way
  obtain ⟨t, ht, told, rfl⟩ := SortedMap.foldlM_mapValues (restoreEntry n e c)
    (fun _ => Entry.toAttribute)
    (fun attributes t => ∃ told,
      t = (s.putEndpoint n e ⟨types, m⟩).putCluster n e c ⟨told, attributes⟩)
    (by
      rintro attributes _ i entry ⟨told, rfl⟩ hnew
      obtain ⟨told', hentry⟩ := restoreEntry_putCluster _ n e c told entry hnew
      exact ⟨_, hentry, told', rfl⟩)
    image.attributes ⟨image.revision, rfl⟩
  refine bind_eq_ok_iff.mpr ⟨_, hadd, bind_eq_ok_iff.mpr ⟨_, ht, ?_⟩⟩
  rw [setRevision_putCluster, putCluster_putEndpoint]
  rfl

theorem foldlM_addDeviceType (s : Store) (n : NodeId) (e : EndpointId) (types : List DeviceType)
    (endpoint : Endpoint) :
    types.foldlM (fun t type => t.addDeviceType n e type) (s.putEndpoint n e endpoint) =
      .ok (s.putEndpoint n e
        { endpoint with deviceTypes := types.foldl (fun us t => t.merge us) endpoint.deviceTypes })
    := by
  induction types generalizing endpoint with
  | nil => rfl
  | cons type types ih =>
    have hadd : (s.putEndpoint n e endpoint).addDeviceType n e type =
        .ok (s.putEndpoint n e
          { endpoint with deviceTypes := type.merge endpoint.deviceTypes }) := by
      refine addDeviceType_eq_ok_iff.mpr ⟨endpoint, ?_, ?_⟩
      · rw [endpoint?_putEndpoint, if_pos ⟨rfl, rfl⟩]
      · rw [putEndpoint_putEndpoint]
    rw [List.foldlM_cons]
    exact bind_eq_ok_iff.mpr ⟨_, hadd, ih _⟩

theorem putEndpoint_putNode (s : Store) (n : NodeId) (node : Node) (e : EndpointId)
    (endpoint : Endpoint) :
    (s.putNode n node).putEndpoint n e endpoint =
      s.putNode n ⟨node.endpoints.insert e endpoint⟩ := by
  unfold putEndpoint putNode
  simp only [SortedMap.get?_insert_self, Option.getD_some, SortedMap.insert_insert]

theorem restoreEndpoint_putNode (s : Store) (n : NodeId) {m : SortedMap EndpointId Endpoint}
    {e : EndpointId} (image : EndpointImage) (hnew : m.get? e = none) :
    restoreEndpoint n (s.putNode n ⟨m⟩) (e, image) =
      .ok (s.putNode n ⟨m.insert e image.toEndpoint⟩) := by
  have hadd : (s.putNode n ⟨m⟩).addEndpoint n e =
      .ok ((s.putNode n ⟨m⟩).putEndpoint n e .new) := by
    refine addEndpoint_eq_ok_iff.mpr ⟨⟨_, SortedMap.get?_insert_self ..⟩, ?_⟩
    rw [endpoint?_putNode, if_pos rfl, hnew]
    rfl
  obtain ⟨_, ht, rfl⟩ := SortedMap.foldlM_mapValues (restoreCluster n e)
    (fun _ => ClusterImage.toCluster)
    (fun clusters t => t = (s.putNode n ⟨m⟩).putEndpoint n e
      ⟨DeviceType.merged image.deviceTypes, clusters⟩)
    (by
      rintro clusters _ c cluster rfl hnew
      exact ⟨_, restoreCluster_putEndpoint _ n e _ cluster hnew, rfl⟩)
    image.clusters rfl
  refine bind_eq_ok_iff.mpr ⟨_, hadd, bind_eq_ok_iff.mpr
    ⟨_, foldlM_addDeviceType _ n e image.deviceTypes .new, ht.trans ?_⟩⟩
  rw [putEndpoint_putNode]
  rfl

theorem restoreNode_of_new {s : Store} {n : NodeId} (image : NodeImage)
    (hnew : s.nodes.get? n = none) :
    restoreNode s (n, image) = .ok (s.putNode n image.toNode) := by
  have hadd : s.addNode n = s.putNode n ⟨.empty⟩ := by
    rw [addNode_eq, hnew]
    rfl
  obtain ⟨_, ht, rfl⟩ := SortedMap.foldlM_mapValues (restoreEndpoint n)
    (fun _ => EndpointImage.toEndpoint)
    (fun endpoints t => t = s.putNode n ⟨endpoints⟩)
    (by
      rintro endpoints _ e endpoint rfl hnew
      exact ⟨_, restoreEndpoint_putNode s n endpoint hnew, rfl⟩)
    image.endpoints rfl
  unfold restoreNode
  rw [hadd]
  exact ht

/-- Loading an image gives the store that it describes. -/
theorem load_eq_toStore (x : Snapshot) : load x = .ok x.toStore := by
  obtain ⟨_, ht, rfl⟩ := SortedMap.foldlM_mapValues restoreNode
    (fun _ => NodeImage.toNode)
    (fun nodes t => t = (⟨x.fabric, x.vendor, nodes⟩ : Store))
    (by
      rintro nodes _ n node rfl hnew
      exact ⟨_, restoreNode_of_new node hnew, rfl⟩)
    x.nodes rfl
  exact ht

theorem endpoint?_toStore (x : Snapshot) (n : NodeId) (e : EndpointId) :
    x.toStore.endpoint? n e =
      ((x.nodes.get? n).bind (·.endpoints.get? e)).map EndpointImage.toEndpoint := by
  unfold endpoint? Snapshot.toStore
  simp only [SortedMap.get?_mapValues]
  cases x.nodes.get? n with
  | none => rfl
  | some node => exact SortedMap.get?_mapValues ..

theorem cluster?_toStore (x : Snapshot) (n : NodeId) (e : EndpointId) (c : ClusterId) :
    x.toStore.cluster? n e c = (x.cluster? n e c).map ClusterImage.toCluster := by
  have hcluster : x.cluster? n e c = ((x.nodes.get? n).bind (·.endpoints.get? e)).bind
      (·.clusters.get? c) := (Option.bind_assoc ..).symm
  rw [hcluster, cluster?, endpoint?_toStore]
  cases (x.nodes.get? n).bind (·.endpoints.get? e) with
  | none => rfl
  | some image => exact SortedMap.get?_mapValues ..

theorem attribute?_toStore (x : Snapshot) (p : AttributePath) :
    x.toStore.attribute? p = (x.entry? p).map Entry.toAttribute := by
  rw [Snapshot.entry?_eq_bind, attribute?, cluster?_toStore]
  cases x.cluster? p.node p.endpoint p.cluster with
  | none => rfl
  | some image => exact SortedMap.get?_mapValues ..

end Store

end DeviceTrial
