import DeviceTrial.Proofs.Fallible
import DeviceTrial.Proofs.SortedMap
import DeviceTrial.Store.Tree

namespace DeviceTrial

namespace Store

/-- Puts a cluster at its place, with the endpoint and the node above it where they are missing. -/
def putCluster (s : Store) (n : NodeId) (e : EndpointId) (c : ClusterId) (cluster : Cluster) :
    Store :=
  let node := (s.nodes.get? n).getD .new
  let endpoint := (node.endpoints.get? e).getD .new
  let endpoint := { endpoint with clusters := endpoint.clusters.insert c cluster }
  { s with nodes := s.nodes.insert n { node with endpoints := node.endpoints.insert e endpoint } }

variable {s : Store} {n m : NodeId} {e f : EndpointId} {c d : ClusterId}

theorem node_eq_ok_iff {node : Node} : s.node n = .ok node ↔ s.nodes.get? n = some node := by
  unfold Store.node
  cases s.nodes.get? n <;> simp

theorem endpoint_eq_ok_iff {endpoint : Endpoint} : s.endpoint n e = .ok endpoint ↔
    ∃ node, s.nodes.get? n = some node ∧ node.endpoints.get? e = some endpoint := by
  unfold Store.endpoint
  rw [bind_eq_ok_iff]
  refine exists_congr fun node => ?_
  rw [node_eq_ok_iff]
  refine and_congr_right fun _ => ?_
  cases node.endpoints.get? e with
  | none => simp [throw, throwThe, MonadExceptOf.throw]
  | some found => simp [pure, Except.pure]

theorem cluster_eq_ok_iff {cluster : Cluster} : s.cluster n e c = .ok cluster ↔
    ∃ endpoint, s.endpoint n e = .ok endpoint ∧ endpoint.clusters.get? c = some cluster := by
  unfold Store.cluster
  rw [bind_eq_ok_iff]
  refine exists_congr fun endpoint => and_congr_right fun _ => ?_
  cases endpoint.clusters.get? c with
  | none => simp [throw, throwThe, MonadExceptOf.throw]
  | some found => simp [pure, Except.pure]

theorem leaf_eq_ok_iff {p : AttributePath} {a : Attribute} : s.leaf p = .ok a ↔
    ∃ cluster, s.cluster p.node p.endpoint p.cluster = .ok cluster ∧
      cluster.attributes.get? p.id = some a := by
  unfold Store.leaf
  rw [bind_eq_ok_iff]
  refine exists_congr fun cluster => and_congr_right fun _ => ?_
  cases cluster.attributes.get? p.id with
  | none => simp [throw, throwThe, MonadExceptOf.throw]
  | some found => simp [pure, Except.pure]

theorem cluster_putCluster_self (s : Store) (n : NodeId) (e : EndpointId) (c : ClusterId)
    (cluster : Cluster) : (s.putCluster n e c cluster).cluster n e c = .ok cluster :=
  cluster_eq_ok_iff.mpr ⟨_, endpoint_eq_ok_iff.mpr ⟨_, SortedMap.get?_insert_self ..,
    SortedMap.get?_insert_self ..⟩, SortedMap.get?_insert_self ..⟩

theorem putCluster_putCluster (s : Store) (n : NodeId) (e : EndpointId) (c : ClusterId)
    (first second : Cluster) :
    (s.putCluster n e c first).putCluster n e c second = s.putCluster n e c second := by
  simp only [putCluster, SortedMap.get?_insert_self, Option.getD_some, SortedMap.insert_insert]

theorem cluster_putCluster_of_ne {found : Cluster} (cluster : Cluster)
    (hfound : s.cluster n e c = .ok found) (hne : (m, f, d) ≠ (n, e, c)) :
    (s.putCluster n e c cluster).cluster m f d = s.cluster m f d := by
  obtain ⟨endpoint, hendpoint, -⟩ := cluster_eq_ok_iff.mp hfound
  obtain ⟨node, hn, he⟩ := endpoint_eq_ok_iff.mp hendpoint
  unfold Store.cluster Store.endpoint Store.node putCluster
  simp only [hn, he, Option.getD_some]
  by_cases hm : m = n
  · subst hm
    rw [SortedMap.get?_insert_self, hn]
    by_cases hf : f = e
    · subst hf
      have hd : d ≠ c := fun hd => hne (by rw [hd])
      simp only [bind, Except.bind, pure, Except.pure, SortedMap.get?_insert_self, he,
        SortedMap.get?_insert_of_ne _ _ hd]
    · simp only [bind, Except.bind, SortedMap.get?_insert_of_ne _ _ hf]
  · rw [SortedMap.get?_insert_of_ne _ _ hm]

theorem putCluster_comm (s : Store) (first second : Cluster)
    (hne : (n, e, c) ≠ (m, f, d)) :
    (s.putCluster n e c first).putCluster m f d second =
      (s.putCluster m f d second).putCluster n e c first := by
  unfold putCluster
  -- the places part at the node, at the endpoint or at the cluster
  by_cases hm : n = m
  · subst hm
    by_cases hf : e = f
    · subst hf
      have hd : c ≠ d := fun hd => hne (by rw [hd])
      simp only [SortedMap.get?_insert_self, Option.getD_some, SortedMap.insert_insert,
        SortedMap.insert_comm _ _ _ hd]
    · simp only [SortedMap.get?_insert_self, Option.getD_some, SortedMap.insert_insert,
        SortedMap.get?_insert_of_ne _ _ hf, SortedMap.get?_insert_of_ne _ _ (Ne.symm hf),
        SortedMap.insert_comm _ _ _ hf]
  · simp only [SortedMap.get?_insert_of_ne _ _ hm, SortedMap.get?_insert_of_ne _ _ (Ne.symm hm),
      SortedMap.insert_comm _ _ _ hm]

theorem modifyCluster_eq (s : Store) (n : NodeId) (e : EndpointId) (c : ClusterId)
    (change : Cluster → Except StoreFault Cluster) :
    s.modifyCluster n e c change = (do
      let cluster ← s.cluster n e c
      let changed ← change cluster
      return s.putCluster n e c changed) := by
  unfold modifyCluster modifyEndpoint modifyNode Store.cluster Store.endpoint Store.node putCluster
  unfold SortedMap.modify
  -- on the way down the first look-up that finds nothing decides, as it does in `Store.cluster`
  cases hn : s.nodes.get? n with
  | none => rfl
  | some node =>
    cases he : node.endpoints.get? e with
    | none =>
      simp only [Option.getD_some, bind, Except.bind, he, Except.map]
      rfl
    | some endpoint =>
      cases hc : endpoint.clusters.get? c with
      | none =>
        simp only [Option.getD_some, bind, Except.bind, he, hc, Except.map, pure, Except.pure]
        rfl
      | some cluster =>
        cases hchange : change cluster with
        | error fault =>
          simp only [bind, Except.bind, he, hc, hchange, Except.map, pure,
            Except.pure]
        | ok changed =>
          simp only [Option.getD_some, bind, Except.bind, he, hc, hchange, Except.map, pure,
            Except.pure]

theorem modifyCluster_of_ok {cluster : Cluster} (h : s.cluster n e c = .ok cluster)
    (change : Cluster → Except StoreFault Cluster) :
    s.modifyCluster n e c change = (do
      let changed ← change cluster
      return s.putCluster n e c changed) := by
  rw [modifyCluster_eq, h]
  rfl

theorem modifyCluster_of_error {fault : StoreFault} (h : s.cluster n e c = .error fault)
    (change : Cluster → Except StoreFault Cluster) :
    s.modifyCluster n e c change = .error fault := by
  rw [modifyCluster_eq, h]
  rfl

theorem modifyCluster_eq_ok_iff {change : Cluster → Except StoreFault Cluster} {t : Store} :
    s.modifyCluster n e c change = .ok t ↔
      ∃ cluster changed, s.cluster n e c = .ok cluster ∧ change cluster = .ok changed ∧
        t = s.putCluster n e c changed := by
  rw [modifyCluster_eq]
  exact change_eq_ok_iff

end Store

end DeviceTrial
