import DeviceTrial.Proofs.Store.Operations

namespace DeviceTrial

namespace Segment

/-- The places on the way to a place, from the outermost on. -/
def way : Segment → List Segment
  | node n => [node n]
  | endpoint n e => [node n, endpoint n e]
  | cluster n e c => [node n, endpoint n e, cluster n e c]
  | leaf p =>
    [node p.node, endpoint p.node p.endpoint, cluster p.node p.endpoint p.cluster, leaf p]

/-- The outermost place on the way to a place that is not there. -/
def missing? (present : Segment → Bool) (g : Segment) : Option Segment :=
  g.way.find? fun place => !present place

end Segment

namespace Store

variable {s : Store} {n m : NodeId} {e f : EndpointId} {c d : ClusterId} {p q : AttributePath}
  {g : Segment}

def has (s : Store) : Segment → Bool
  | .node n => (s.node n).isOk
  | .endpoint n e => (s.endpoint n e).isOk
  | .cluster n e c => (s.cluster n e c).isOk
  | .leaf p => (s.leaf p).isOk

theorem isOk_eq_isSome {α : Type} {x : Except StoreFault α} {y : Option α}
    (h : ∀ a, x = .ok a ↔ y = some a) : x.isOk = y.isSome := by
  cases x with
  | ok a =>
    rw [(h a).mp rfl]
    rfl
  | error fault =>
    cases y with
    | none => rfl
    | some a => cases (h a).mpr rfl

theorem has_node (s : Store) (n : NodeId) : s.has (.node n) = (s.nodes.get? n).isSome :=
  isOk_eq_isSome fun _ => node_eq_ok_iff

theorem has_endpoint (s : Store) (n : NodeId) (e : EndpointId) :
    s.has (.endpoint n e) = (s.endpoint? n e).isSome :=
  isOk_eq_isSome fun _ => endpoint_eq_ok_iff_eq_some

theorem has_cluster (s : Store) (n : NodeId) (e : EndpointId) (c : ClusterId) :
    s.has (.cluster n e c) = (s.cluster? n e c).isSome :=
  isOk_eq_isSome fun _ => cluster_eq_ok_iff_eq_some

theorem has_leaf (s : Store) (p : AttributePath) :
    s.has (.leaf p) = (s.attribute? p).isSome :=
  isOk_eq_isSome fun _ => leaf_eq_ok_iff_eq_some

theorem has_of_endpoint {endpoint : Endpoint} (h : s.endpoint? n e = some endpoint) :
    s.has (.node n) = true ∧ s.has (.endpoint n e) = true := by
  obtain ⟨node, hn, -⟩ := Option.bind_eq_some_iff.mp h
  rw [has_node, has_endpoint, h, hn]
  exact ⟨rfl, rfl⟩

theorem has_of_cluster {cluster : Cluster} (h : s.cluster? n e c = some cluster) :
    s.has (.node n) = true ∧ s.has (.endpoint n e) = true ∧ s.has (.cluster n e c) = true := by
  obtain ⟨endpoint, he, -⟩ := Option.bind_eq_some_iff.mp h
  obtain ⟨hnode, hendpoint⟩ := has_of_endpoint he
  exact ⟨hnode, hendpoint, by rw [has_cluster, h]; rfl⟩

/-- A look-up by way of another one fails as that one does, or because its own place is not
there. -/
theorem fault?_next {α β : Type} {x : Except StoreFault α} {y : Except StoreFault β}
    {present : Segment → Bool} {w : List Segment}
    (hx : fault? x = (w.find? fun place => !present place).map .notFound)
    (hg : present g = y.isOk) (herror : ∀ fault, x = .error fault → y = .error fault)
    (hok : ∀ a, x = .ok a → (∃ b, y = .ok b) ∨ y = .error (.notFound g)) :
    fault? y = ((w ++ [g]).find? fun place => !present place).map .notFound := by
  rw [List.find?_append]
  cases x with
  | error fault =>
    obtain ⟨place, hplace, hfault⟩ := Option.map_eq_some_iff.mp hx.symm
    rw [hplace, Option.some_or, Option.map_some, hfault, herror fault rfl]
    rfl
  | ok a =>
    have hway : w.find? (fun place => !present place) = none :=
      Option.map_eq_none_iff.mp hx.symm
    rw [hway, Option.none_or]
    obtain ⟨b, rfl⟩ | rfl := hok a rfl
    · simp [hg, fault?, Except.isOk, Except.toBool]
    · simp [hg, fault?, Except.isOk, Except.toBool]

theorem fault?_node (s : Store) (n : NodeId) :
    fault? (s.node n) = ((Segment.node n).missing? s.has).map .notFound := by
  refine fault?_next (x := .ok s) (w := []) rfl rfl nofun fun _ _ => ?_
  unfold Store.node
  cases s.nodes.get? n with
  | none => exact .inr rfl
  | some node => exact .inl ⟨node, rfl⟩

theorem fault?_endpoint (s : Store) (n : NodeId) (e : EndpointId) :
    fault? (s.endpoint n e) = ((Segment.endpoint n e).missing? s.has).map .notFound := by
  refine fault?_next (s.fault?_node n) rfl (fun fault hn => ?_) fun node hn => ?_
  · rw [Store.endpoint, hn]
    rfl
  · rw [Store.endpoint, hn]
    simp only [bind, Except.bind]
    cases node.endpoints.get? e with
    | none => exact .inr rfl
    | some endpoint => exact .inl ⟨endpoint, rfl⟩

theorem fault?_cluster (s : Store) (n : NodeId) (e : EndpointId) (c : ClusterId) :
    fault? (s.cluster n e c) = ((Segment.cluster n e c).missing? s.has).map .notFound := by
  refine fault?_next (s.fault?_endpoint n e) rfl (fun fault he => ?_) fun endpoint he => ?_
  · rw [Store.cluster, he]
    rfl
  · rw [Store.cluster, he]
    simp only [bind, Except.bind]
    cases endpoint.clusters.get? c with
    | none => exact .inr rfl
    | some cluster => exact .inl ⟨cluster, rfl⟩

theorem fault?_leaf (s : Store) (p : AttributePath) :
    fault? (s.leaf p) = ((Segment.leaf p).missing? s.has).map .notFound := by
  refine fault?_next (s.fault?_cluster p.node p.endpoint p.cluster) rfl (fun fault hc => ?_)
    fun cluster hc => ?_
  · rw [Store.leaf, hc]
    rfl
  · rw [Store.leaf, hc]
    simp only [bind, Except.bind]
    cases cluster.attributes.get? p.id with
    | none => exact .inr rfl
    | some a => exact .inl ⟨a, rfl⟩

theorem eq_notFound_iff {α : Type} {x : Except StoreFault α} {place? : Option Segment}
    (hx : fault? x = place?.map .notFound) : x = .error (.notFound g) ↔ place? = some g := by
  rw [← fault?_eq_some_iff, hx, Option.map_eq_some_iff]
  simp

theorem bind_eq_notFound_iff {α β : Type} {x : Except StoreFault α} {place? : Option Segment}
    (hx : fault? x = place?.map .notFound) {f : α → Except StoreFault β}
    (hf : ∀ a, f a ≠ .error (.notFound g)) :
    x >>= f = .error (.notFound g) ↔ place? = some g := by
  rw [← eq_notFound_iff hx]
  cases x with
  | error fault => simp [bind, Except.bind]
  | ok a => simp [bind, Except.bind, hf a]

theorem has_node_putNode (s : Store) (n m : NodeId) (node : Node) :
    (s.putNode n node).has (.node m) = true ↔
      .node m = Segment.node n ∨ s.has (.node m) = true := by
  rw [has_node, has_node, Segment.node.injEq]
  exact SortedMap.contains_insert s.nodes n m node

theorem has_node_putEndpoint (hn : s.has (.node n) = true) (endpoint : Endpoint) :
    (s.putEndpoint n e endpoint).has (.node m) = true ↔ s.has (.node m) = true := by
  rw [putEndpoint, has_node_putNode, or_iff_right_iff_imp]
  intro hm
  rwa [hm]

theorem has_endpoint_putEndpoint (s : Store) (n m : NodeId) (e f : EndpointId)
    (endpoint : Endpoint) : (s.putEndpoint n e endpoint).has (.endpoint m f) = true ↔
      .endpoint m f = Segment.endpoint n e ∨ s.has (.endpoint m f) = true := by
  rw [has_endpoint, has_endpoint, endpoint?_putEndpoint, Segment.endpoint.injEq]
  split
  · next hplace => simp [hplace]
  · next hplace => simp [hplace]

theorem has_endpoint_putCluster (he : s.has (.endpoint n e) = true) (cluster : Cluster) :
    (s.putCluster n e c cluster).has (.endpoint m f) = true ↔
      s.has (.endpoint m f) = true := by
  rw [putCluster_eq, has_endpoint_putEndpoint, or_iff_right_iff_imp]
  intro hplace
  rwa [hplace]

theorem has_cluster_putCluster (s : Store) (n m : NodeId) (e f : EndpointId) (c d : ClusterId)
    (cluster : Cluster) : (s.putCluster n e c cluster).has (.cluster m f d) = true ↔
      .cluster m f d = Segment.cluster n e c ∨ s.has (.cluster m f d) = true := by
  rw [has_cluster, has_cluster, cluster?_putCluster, Segment.cluster.injEq]
  split
  · next hplace => simp [hplace]
  · next hplace => simp [hplace]

theorem has_putNode {node : Node} (h : ∀ e, node.endpoints.get? e = s.endpoint? n e) :
    (s.putNode n node).has g = true ↔ g = .node n ∨ s.has g = true := by
  have hendpoint := endpoint?_putNode_of_same h
  have hcluster (m : NodeId) (f : EndpointId) (d : ClusterId) :
      (s.putNode n node).cluster? m f d = s.cluster? m f d := by
    rw [cluster?, hendpoint]
    rfl
  cases g with
  | node m => exact has_node_putNode s n m node
  | endpoint m f => simp [has_endpoint, hendpoint]
  | cluster m f d => simp [has_cluster, hcluster]
  | leaf p => simp [has_leaf, attribute?_congr hcluster]

theorem has_putEndpoint {endpoint : Endpoint} (hn : s.has (.node n) = true)
    (h : ∀ c, endpoint.clusters.get? c = s.cluster? n e c) :
    (s.putEndpoint n e endpoint).has g = true ↔ g = .endpoint n e ∨ s.has g = true := by
  have hcluster := cluster?_putEndpoint_of_same h
  cases g with
  | node m => simp [has_node_putEndpoint hn]
  | endpoint m f => exact has_endpoint_putEndpoint s n m e f endpoint
  | cluster m f d => simp [has_cluster, hcluster]
  | leaf p => simp [has_leaf, attribute?_congr hcluster]

theorem has_putCluster {cluster : Cluster} (hn : s.has (.node n) = true)
    (he : s.has (.endpoint n e) = true)
    (h : ∀ i, cluster.attributes.get? i = s.attribute? ⟨n, e, c, i⟩) :
    (s.putCluster n e c cluster).has g = true ↔ g = .cluster n e c ∨ s.has g = true := by
  cases g with
  | node m =>
    rw [putCluster_eq]
    simp [has_node_putEndpoint hn]
  | endpoint m f => simp [has_endpoint_putCluster he]
  | cluster m f d => exact has_cluster_putCluster s n m e f c d cluster
  | leaf p =>
    have hleaf : (s.putCluster n e c cluster).attribute? p = s.attribute? p := by
      rw [attribute?_putCluster]
      split
      · next hplace =>
        obtain ⟨rfl, rfl, rfl⟩ := hplace
        exact h p.id
      · rfl
    simp [has_leaf, hleaf]

theorem has_putLeaf {cluster : Cluster} (revision : UInt16) (a : Attribute)
    (hcluster : s.cluster? p.node p.endpoint p.cluster = some cluster) :
    (s.putCluster p.node p.endpoint p.cluster
      ⟨revision, cluster.attributes.insert p.id a⟩).has g = true ↔
        g = .leaf p ∨ s.has g = true := by
  obtain ⟨hn, he, hc⟩ := has_of_cluster hcluster
  cases g with
  | node m =>
    rw [putCluster_eq]
    simp [has_node_putEndpoint hn]
  | endpoint m f => simp [has_endpoint_putCluster he]
  | cluster m f d =>
    rw [has_cluster_putCluster, or_iff_right_iff_imp.mpr, or_iff_right (by simp)]
    intro hplace
    rwa [hplace]
  | leaf q =>
    rw [has_leaf, has_leaf, attribute?_putCluster_insert revision a hcluster, Segment.leaf.injEq]
    split
    · next hq => simp [hq]
    · next hq => simp [hq]

end Store

end DeviceTrial
