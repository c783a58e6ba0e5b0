import DeviceTrial.Proofs.Store.Edits
import DeviceTrial.Proofs.Store.Places

namespace DeviceTrial

namespace Store

variable {s t : Store} {n : NodeId} {e : EndpointId} {c : ClusterId} {p q : AttributePath}

theorem addNode_eq (s : Store) (n : NodeId) :
    s.addNode n = s.putNode n ((s.nodes.get? n).getD .new) := by
  rw [addNode, SortedMap.insertNew_eq_insert]
  rfl

theorem addEndpoint_eq_ok_iff : s.addEndpoint n e = .ok t ↔
    (∃ node, s.nodes.get? n = some node) ∧
      t = s.putEndpoint n e ((s.endpoint? n e).getD .new) := by
  have hput {node : Node} (hnode : s.nodes.get? n = some node) :
      s.putNode n ⟨node.endpoints.insertNew e .new⟩ =
        s.putEndpoint n e ((s.endpoint? n e).getD .new) := by
    rw [putEndpoint, ← endpoints_getD_new, hnode, SortedMap.insertNew_eq_insert]
    rfl
  unfold addEndpoint
  rw [modifyNode_eq_ok_iff]
  constructor
  · rintro ⟨node, _, hnode, hnew, rfl⟩
    cases hnew
    exact ⟨⟨node, hnode⟩, hput hnode⟩
  · rintro ⟨⟨node, hnode⟩, rfl⟩
    exact ⟨node, _, hnode, rfl, (hput hnode).symm⟩

theorem addCluster_eq_ok_iff {revision : UInt16} : s.addCluster n e c revision = .ok t ↔
    (∃ endpoint, s.endpoint? n e = some endpoint) ∧
      t = s.putCluster n e c ((s.cluster? n e c).getD (.new revision)) := by
  have hput {endpoint : Endpoint} (hendpoint : s.endpoint? n e = some endpoint) :
      s.putEndpoint n e
          { endpoint with clusters := endpoint.clusters.insertNew c (.new revision) } =
        s.putCluster n e c ((s.cluster? n e c).getD (.new revision)) := by
    rw [putCluster_eq, ← clusters_getD_new, hendpoint, SortedMap.insertNew_eq_insert]
    rfl
  unfold addCluster
  rw [modifyEndpoint_eq_ok_iff]
  constructor
  · rintro ⟨endpoint, _, hendpoint, hnew, rfl⟩
    cases hnew
    exact ⟨⟨endpoint, hendpoint⟩, hput hendpoint⟩
  · rintro ⟨⟨endpoint, hendpoint⟩, rfl⟩
    exact ⟨endpoint, _, hendpoint, rfl, (hput hendpoint).symm⟩

theorem addDeviceType_eq_ok_iff {type : DeviceType} : s.addDeviceType n e type = .ok t ↔
    ∃ endpoint, s.endpoint? n e = some endpoint ∧
      t = s.putEndpoint n e { endpoint with deviceTypes := type.merge endpoint.deviceTypes } := by
  unfold addDeviceType
  rw [modifyEndpoint_eq_ok_iff]
  constructor
  · rintro ⟨endpoint, _, hendpoint, hmerge, rfl⟩
    cases hmerge
    exact ⟨endpoint, hendpoint, rfl⟩
  · rintro ⟨endpoint, hendpoint, rfl⟩
    exact ⟨endpoint, _, hendpoint, rfl, rfl⟩

theorem cluster?_eq {endpoint : Endpoint} (h : s.endpoint? n e = some endpoint) (c : ClusterId) :
    s.cluster? n e c = endpoint.clusters.get? c := by
  rw [cluster?, h]
  rfl

theorem attribute?_eq {cluster : Cluster}
    (h : s.cluster? p.node p.endpoint p.cluster = some cluster) :
    s.attribute? p = cluster.attributes.get? p.id := by
  rw [attribute?, h]
  rfl

theorem addAttribute_eq_ok_iff : s.addAttribute p = .ok t ↔
    ∃ cluster, s.cluster? p.node p.endpoint p.cluster = some cluster ∧
      t = s.putCluster p.node p.endpoint p.cluster
        (cluster.put p.id ((s.attribute? p).getD {})) := by
  have hput {cluster : Cluster}
      (hcluster : s.cluster? p.node p.endpoint p.cluster = some cluster) :
      { cluster with attributes := cluster.attributes.insertNew p.id {} } =
        cluster.put p.id ((s.attribute? p).getD {}) := by
    rw [attribute?_eq hcluster, SortedMap.insertNew_eq_insert]
    rfl
  unfold addAttribute
  rw [modifyCluster_eq_ok_iff]
  constructor
  · rintro ⟨cluster, _, hcluster, hnew, rfl⟩
    cases hnew
    rw [cluster_eq_ok_iff_eq_some] at hcluster
    exact ⟨cluster, hcluster, congrArg _ (hput hcluster)⟩
  · rintro ⟨cluster, hcluster, rfl⟩
    exact ⟨cluster, _, cluster_eq_ok_iff_eq_some.mpr hcluster, rfl,
      congrArg _ (hput hcluster).symm⟩

theorem write_eq_ok_iff {v : Element} : s.write p v = .ok t ↔
    ∃ cluster a, s.cluster? p.node p.endpoint p.cluster = some cluster ∧
      ((s.attribute? p).getD {}).write v = .ok a ∧
      t = s.putCluster p.node p.endpoint p.cluster
        ⟨(if p.id = revisionAttribute then v.revision? else none).getD cluster.revision,
          cluster.attributes.insert p.id a⟩ := by
  unfold write
  rw [modifyCluster_eq_ok_iff]
  constructor
  · rintro ⟨cluster, changed, hcluster, hwrite, rfl⟩
    rw [cluster_eq_ok_iff_eq_some] at hcluster
    rw [attribute?_eq hcluster]
    unfold Cluster.write at hwrite
    cases ha : ((cluster.attributes.get? p.id).getD {}).write v with
    | error expected =>
      rw [ha] at hwrite
      cases hwrite
    | ok a =>
      rw [ha] at hwrite
      cases hwrite
      exact ⟨cluster, a, hcluster, rfl, rfl⟩
  · rintro ⟨cluster, a, hcluster, hwrite, rfl⟩
    rw [attribute?_eq hcluster] at hwrite
    refine ⟨cluster, _, cluster_eq_ok_iff_eq_some.mpr hcluster, ?_, rfl⟩
    unfold Cluster.write
    rw [hwrite]

theorem write_eq_error {cluster : Cluster} {v : Element} {expected : Signature}
    (hcluster : s.cluster? p.node p.endpoint p.cluster = some cluster)
    (h : ((s.attribute? p).getD {}).write v = .error expected) :
    s.write p v = .error (.typeMismatch p expected (.ofElement v)) := by
  rw [attribute?_eq hcluster] at h
  rw [write, modifyCluster_of_ok (cluster_eq_ok_iff_eq_some.mpr hcluster), Cluster.write, h]
  rfl

theorem toggle_eq_ok {opened : Bool} (h : s.toggle p = .ok (opened, t)) :
    ∃ cluster a, s.cluster? p.node p.endpoint p.cluster = some cluster ∧
      s.attribute? p = some a ∧
      t = s.putCluster p.node p.endpoint p.cluster (cluster.put p.id a.toggle) := by
  obtain ⟨_, -, hmodify⟩ := bind_eq_ok_iff.mp h
  obtain ⟨_, hmodify, hreturn⟩ := bind_eq_ok_iff.mp hmodify
  cases hreturn
  obtain ⟨cluster, _, hcluster, hchange, rfl⟩ := modifyCluster_eq_ok_iff.mp hmodify
  rw [cluster_eq_ok_iff_eq_some] at hcluster
  obtain ⟨_, hattributes, hreturn⟩ := bind_eq_ok_iff.mp hchange
  cases hreturn
  obtain ⟨a, _, ha, htoggle, rfl⟩ := SortedMap.modify_eq_ok_iff.mp hattributes
  cases htoggle
  exact ⟨cluster, a, hcluster, (attribute?_eq hcluster).trans ha, rfl⟩

theorem modifyLeaf_of_error {fault : StoreFault} (h : s.leaf p = .error fault)
    (change : Attribute → Except StoreFault Attribute) : s.modifyLeaf p change = .error fault := by
  unfold leaf at h
  rw [modifyLeaf, modifyCluster_eq]
  cases hcluster : s.cluster p.node p.endpoint p.cluster with
  | error missing =>
    rw [hcluster] at h
    cases h
    rfl
  | ok cluster =>
    rw [hcluster] at h
    simp only [bind, Except.bind, SortedMap.modify] at h ⊢
    cases ha : cluster.attributes.get? p.id with
    | none =>
      rw [ha] at h
      cases h
      rfl
    | some a =>
      rw [ha] at h
      cases h

theorem modifyLeaf_of_ok {a : Attribute} (h : s.leaf p = .ok a) (change : Attribute → Attribute) :
    ∃ t, (s.modifyLeaf p fun a => .ok (change a)) = .ok t := by
  obtain ⟨cluster, hcluster, ha⟩ := leaf_eq_ok_iff.mp h
  refine ⟨_, modifyCluster_eq_ok_iff.mpr ⟨cluster, cluster.put p.id (change a), hcluster, ?_, rfl⟩⟩
  simp only [SortedMap.modify, ha]
  rfl

theorem attribute?_congr (h : ∀ n e c, t.cluster? n e c = s.cluster? n e c) :
    t.attribute? p = s.attribute? p := by
  rw [attribute?, h]
  rfl

theorem endpoint?_addNode (s : Store) (n m : NodeId) (f : EndpointId) :
    (s.addNode n).endpoint? m f = s.endpoint? m f := by
  rw [addNode_eq]
  exact endpoint?_putNode_of_same (s.endpoints_getD_new n) m f

theorem cluster?_addNode (s : Store) (n m : NodeId) (f : EndpointId) (d : ClusterId) :
    (s.addNode n).cluster? m f d = s.cluster? m f d := by
  rw [cluster?, endpoint?_addNode]
  rfl

theorem cluster?_addEndpoint (h : s.addEndpoint n e = .ok t) (m : NodeId) (f : EndpointId)
    (d : ClusterId) : t.cluster? m f d = s.cluster? m f d := by
  obtain ⟨-, rfl⟩ := addEndpoint_eq_ok_iff.mp h
  exact cluster?_putEndpoint_of_same (s.clusters_getD_new n e) m f d

theorem cluster?_addDeviceType {type : DeviceType} (h : s.addDeviceType n e type = .ok t)
    (m : NodeId) (f : EndpointId) (d : ClusterId) : t.cluster? m f d = s.cluster? m f d := by
  obtain ⟨endpoint, hendpoint, rfl⟩ := addDeviceType_eq_ok_iff.mp h
  have hsame : ∀ c, ({ endpoint with deviceTypes := type.merge endpoint.deviceTypes }
      : Endpoint).clusters.get? c = s.cluster? n e c := fun c => (cluster?_eq hendpoint c).symm
  exact cluster?_putEndpoint_of_same hsame m f d

theorem attribute?_addNode (s : Store) (n : NodeId) :
    (s.addNode n).attribute? p = s.attribute? p :=
  attribute?_congr (s.cluster?_addNode n)

theorem attribute?_addEndpoint (h : s.addEndpoint n e = .ok t) :
    t.attribute? p = s.attribute? p :=
  attribute?_congr (cluster?_addEndpoint h)

theorem attribute?_addCluster {revision : UInt16} (h : s.addCluster n e c revision = .ok t) :
    t.attribute? p = s.attribute? p := by
  obtain ⟨-, rfl⟩ := addCluster_eq_ok_iff.mp h
  rw [attribute?_putCluster]
  split
  · next hplace =>
    obtain ⟨rfl, rfl, rfl⟩ := hplace
    exact s.attributes_getD_new p.node p.endpoint p.cluster revision p.id
  · rfl

theorem attribute?_addDeviceType {type : DeviceType} (h : s.addDeviceType n e type = .ok t) :
    t.attribute? p = s.attribute? p :=
  attribute?_congr (cluster?_addDeviceType h)

theorem attribute?_putCluster_insert {cluster : Cluster} (revision : UInt16) (a : Attribute)
    (h : s.cluster? p.node p.endpoint p.cluster = some cluster) :
    (s.putCluster p.node p.endpoint p.cluster
        ⟨revision, cluster.attributes.insert p.id a⟩).attribute? q =
      if q = p then some a else s.attribute? q := by
  obtain ⟨n, e, c, i⟩ := p
  obtain ⟨m, f, d, j⟩ := q
  rw [attribute?_putCluster]
  by_cases hplace : m = n ∧ f = e ∧ d = c
  · obtain ⟨rfl, rfl, rfl⟩ := hplace
    rw [if_pos ⟨rfl, rfl, rfl⟩, attribute?, h]
    by_cases hj : j = i
    · subst hj
      rw [if_pos rfl, SortedMap.get?_insert_self]
    · rw [if_neg fun hq => hj (congrArg AttributePath.id hq), SortedMap.get?_insert_of_ne _ _ hj]
      rfl
  · rw [if_neg hplace, if_neg]
    intro hq
    cases hq
    exact hplace ⟨rfl, rfl, rfl⟩

theorem attribute?_addAttribute (h : s.addAttribute p = .ok t) :
    t.attribute? q = if q = p then some ((s.attribute? p).getD {}) else s.attribute? q := by
  obtain ⟨cluster, hcluster, rfl⟩ := addAttribute_eq_ok_iff.mp h
  exact attribute?_putCluster_insert cluster.revision _ hcluster

theorem attribute?_write {v : Element} (h : s.write p v = .ok t) :
    ∃ a, ((s.attribute? p).getD {}).write v = .ok a ∧
      t.attribute? q = if q = p then some a else s.attribute? q := by
  obtain ⟨cluster, a, hcluster, hwrite, rfl⟩ := write_eq_ok_iff.mp h
  exact ⟨a, hwrite, attribute?_putCluster_insert _ a hcluster⟩

theorem attribute?_toggle {opened : Bool} (h : s.toggle p = .ok (opened, t)) :
    ∃ a, s.attribute? p = some a ∧
      t.attribute? q = if q = p then some a.toggle else s.attribute? q := by
  obtain ⟨cluster, a, hcluster, ha, rfl⟩ := toggle_eq_ok h
  exact ⟨a, ha, attribute?_putCluster_insert cluster.revision _ hcluster⟩

end Store

end DeviceTrial
