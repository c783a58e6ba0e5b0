import DeviceTrial.Proofs.Store.Clusters

namespace DeviceTrial

namespace Store

def endpoint? (s : Store) (n : NodeId) (e : EndpointId) : Option Endpoint := do
  let node ← s.nodes.get? n
  node.endpoints.get? e

def cluster? (s : Store) (n : NodeId) (e : EndpointId) (c : ClusterId) : Option Cluster := do
  let endpoint ← s.endpoint? n e
  endpoint.clusters.get? c

def attribute? (s : Store) (p : AttributePath) : Option Attribute := do
  let cluster ← s.cluster? p.node p.endpoint p.cluster
  cluster.attributes.get? p.id

variable {s t : Store} {n m : NodeId} {e f : EndpointId} {c d : ClusterId}

theorem endpoint_eq_ok_iff_eq_some {endpoint : Endpoint} :
    s.endpoint n e = .ok endpoint ↔ s.endpoint? n e = some endpoint := by
  rw [endpoint_eq_ok_iff, endpoint?]
  exact Option.bind_eq_some_iff.symm

theorem cluster_eq_ok_iff_eq_some {cluster : Cluster} :
    s.cluster n e c = .ok cluster ↔ s.cluster? n e c = some cluster := by
  rw [cluster_eq_ok_iff, cluster?]
  simp only [endpoint_eq_ok_iff_eq_some]
  exact Option.bind_eq_some_iff.symm

theorem leaf_eq_ok_iff_eq_some {p : AttributePath} {a : Attribute} :
    s.leaf p = .ok a ↔ s.attribute? p = some a := by
  rw [leaf_eq_ok_iff, attribute?]
  simp only [cluster_eq_ok_iff_eq_some]
  exact Option.bind_eq_some_iff.symm

theorem read_of_leaf {p : AttributePath} {a : Attribute} (h : s.leaf p = .ok a) (g : Generation) :
    s.read p g = match a.readable, a.get g with
      | true, some v => .ok v
      | _, _ => .error (.unreadable p) := by
  rw [read, h]
  change (match a.readable, a.get g with
    | true, some v => pure v
    | _, _ => throw (StoreFault.unreadable p) : Except StoreFault Element) = _
  split
  · rfl
  · rfl

def putNode (s : Store) (n : NodeId) (node : Node) : Store :=
  { s with nodes := s.nodes.insert n node }

/-- Puts an endpoint at its place, with the node above it where it is missing. -/
def putEndpoint (s : Store) (n : NodeId) (e : EndpointId) (endpoint : Endpoint) : Store :=
  s.putNode n ⟨((s.nodes.get? n).getD .new).endpoints.insert e endpoint⟩

theorem endpoints_getD_new (s : Store) (n : NodeId) (e : EndpointId) :
    ((s.nodes.get? n).getD .new).endpoints.get? e = s.endpoint? n e := by
  rw [endpoint?]
  cases s.nodes.get? n <;> rfl

theorem clusters_getD_new (s : Store) (n : NodeId) (e : EndpointId) (c : ClusterId) :
    ((s.endpoint? n e).getD .new).clusters.get? c = s.cluster? n e c := by
  rw [cluster?]
  cases s.endpoint? n e <;> rfl

theorem attributes_getD_new (s : Store) (n : NodeId) (e : EndpointId) (c : ClusterId)
    (revision : UInt16) (i : AttributeId) :
    ((s.cluster? n e c).getD (.new revision)).attributes.get? i = s.attribute? ⟨n, e, c, i⟩ := by
  rw [attribute?]
  cases s.cluster? n e c <;> rfl

theorem putCluster_eq (s : Store) (n : NodeId) (e : EndpointId) (c : ClusterId)
    (cluster : Cluster) :
    s.putCluster n e c cluster = s.putEndpoint n e
      { (s.endpoint? n e).getD .new with
        clusters := ((s.endpoint? n e).getD .new).clusters.insert c cluster } := by
  rw [← endpoints_getD_new]
  rfl

theorem endpoint?_putNode (s : Store) (n m : NodeId) (node : Node) (f : EndpointId) :
    (s.putNode n node).endpoint? m f =
      if m = n then node.endpoints.get? f else s.endpoint? m f := by
  unfold endpoint? putNode
  by_cases hm : m = n
  · subst hm
    rw [if_pos rfl, SortedMap.get?_insert_self]
    rfl
  · rw [if_neg hm, SortedMap.get?_insert_of_ne _ _ hm]

theorem endpoint?_putEndpoint (s : Store) (n m : NodeId) (e f : EndpointId) (endpoint : Endpoint) :
    (s.putEndpoint n e endpoint).endpoint? m f =
      if m = n ∧ f = e then some endpoint else s.endpoint? m f := by
  rw [putEndpoint, endpoint?_putNode]
  by_cases hm : m = n
  · subst hm
    by_cases hf : f = e
    · subst hf
      rw [if_pos rfl, if_pos ⟨rfl, rfl⟩, SortedMap.get?_insert_self]
    · rw [if_pos rfl, if_neg fun h => hf h.2, SortedMap.get?_insert_of_ne _ _ hf,
        endpoints_getD_new]
  · rw [if_neg hm, if_neg fun h => hm h.1]

theorem putEndpoint_putEndpoint (s : Store) (n : NodeId) (e : EndpointId)
    (first second : Endpoint) :
    (s.putEndpoint n e first).putEndpoint n e second = s.putEndpoint n e second := by
  unfold putEndpoint putNode
  simp only [SortedMap.get?_insert_self, Option.getD_some, SortedMap.insert_insert]

theorem cluster?_putEndpoint (s : Store) (n m : NodeId) (e f : EndpointId) (d : ClusterId)
    (endpoint : Endpoint) :
    (s.putEndpoint n e endpoint).cluster? m f d =
      if m = n ∧ f = e then endpoint.clusters.get? d else s.cluster? m f d := by
  rw [cluster?, endpoint?_putEndpoint]
  split
  · rfl
  · rfl

theorem cluster?_putCluster (s : Store) (n m : NodeId) (e f : EndpointId) (c d : ClusterId)
    (cluster : Cluster) :
    (s.putCluster n e c cluster).cluster? m f d =
      if m = n ∧ f = e ∧ d = c then some cluster else s.cluster? m f d := by
  rw [putCluster_eq, cluster?_putEndpoint]
  by_cases hplace : m = n ∧ f = e
  · obtain ⟨rfl, rfl⟩ := hplace
    by_cases hd : d = c
    · subst hd
      rw [if_pos ⟨rfl, rfl⟩, if_pos ⟨rfl, rfl, rfl⟩, SortedMap.get?_insert_self]
    · rw [if_pos ⟨rfl, rfl⟩, if_neg fun h => hd h.2.2, SortedMap.get?_insert_of_ne _ _ hd,
        clusters_getD_new]
  · rw [if_neg hplace, if_neg fun h => hplace ⟨h.1, h.2.1⟩]

theorem attribute?_putCluster (s : Store) (n : NodeId) (e : EndpointId) (c : ClusterId)
    (cluster : Cluster) (p : AttributePath) :
    (s.putCluster n e c cluster).attribute? p =
      if p.node = n ∧ p.endpoint = e ∧ p.cluster = c then cluster.attributes.get? p.id
      else s.attribute? p := by
  rw [attribute?, cluster?_putCluster]
  split
  · rfl
  · rfl

theorem putNode_of_found {node : Node} (h : s.nodes.get? n = some node) :
    s.putNode n node = s := by
  rw [putNode, SortedMap.insert_of_get? h]

theorem putEndpoint_of_found {endpoint : Endpoint} (h : s.endpoint? n e = some endpoint) :
    s.putEndpoint n e endpoint = s := by
  obtain ⟨node, hn, he⟩ := Option.bind_eq_some_iff.mp h
  rw [putEndpoint, hn, Option.getD_some, SortedMap.insert_of_get? he]
  exact putNode_of_found hn

theorem putCluster_of_found {cluster : Cluster} (h : s.cluster? n e c = some cluster) :
    s.putCluster n e c cluster = s := by
  obtain ⟨endpoint, he, hc⟩ := Option.bind_eq_some_iff.mp h
  rw [putCluster_eq, he, Option.getD_some, SortedMap.insert_of_get? hc]
  exact putEndpoint_of_found he

theorem endpoint?_putNode_of_same {node : Node}
    (h : ∀ e, node.endpoints.get? e = s.endpoint? n e) (m : NodeId) (f : EndpointId) :
    (s.putNode n node).endpoint? m f = s.endpoint? m f := by
  rw [endpoint?_putNode]
  split
  · next hm => rw [h, hm]
  · rfl

theorem cluster?_putEndpoint_of_same {endpoint : Endpoint}
    (h : ∀ c, endpoint.clusters.get? c = s.cluster? n e c) (m : NodeId) (f : EndpointId)
    (d : ClusterId) : (s.putEndpoint n e endpoint).cluster? m f d = s.cluster? m f d := by
  rw [cluster?_putEndpoint]
  split
  · next hplace => rw [h, hplace.1, hplace.2]
  · rfl

theorem modifyNode_eq (s : Store) (n : NodeId) (change : Node → Except StoreFault Node) :
    s.modifyNode n change = (do
      let node ← s.node n
      let changed ← change node
      return s.putNode n changed) := by
  unfold modifyNode SortedMap.modify Store.node
  cases s.nodes.get? n with
  | none => rfl
  | some node =>
    simp only [bind, Except.bind]
    cases change node with
    | error fault => rfl
    | ok changed => rfl

theorem modifyEndpoint_eq (s : Store) (n : NodeId) (e : EndpointId)
    (change : Endpoint → Except StoreFault Endpoint) :
    s.modifyEndpoint n e change = (do
      let endpoint ← s.endpoint n e
      let changed ← change endpoint
      return s.putEndpoint n e changed) := by
  rw [modifyEndpoint, modifyNode_eq]
  unfold Store.endpoint Store.node SortedMap.modify
  cases hn : s.nodes.get? n with
  | none => rfl
  | some node =>
    simp only [bind, Except.bind, pure, Except.pure]
    cases node.endpoints.get? e with
    | none => rfl
    | some endpoint =>
      simp only [Except.map]
      cases change endpoint with
      | error fault => rfl
      | ok changed =>
        simp only [putEndpoint, hn]
        rfl

theorem modifyNode_eq_ok_iff {change : Node → Except StoreFault Node} :
    s.modifyNode n change = .ok t ↔ ∃ node changed, s.nodes.get? n = some node ∧
      change node = .ok changed ∧ t = s.putNode n changed := by
  simp only [modifyNode_eq, change_eq_ok_iff, node_eq_ok_iff]

theorem modifyEndpoint_eq_ok_iff {change : Endpoint → Except StoreFault Endpoint} :
    s.modifyEndpoint n e change = .ok t ↔ ∃ endpoint changed, s.endpoint? n e = some endpoint ∧
      change endpoint = .ok changed ∧ t = s.putEndpoint n e changed := by
  simp only [modifyEndpoint_eq, change_eq_ok_iff, endpoint_eq_ok_iff_eq_some]

end Store

end DeviceTrial
