import DeviceTrial.Proofs.Snapshot.Restore
import DeviceTrial.Proofs.Store.Calls
import DeviceTrial.Proofs.Store.Presence

namespace DeviceTrial

/-- The place that is there once the call is accepted. -/
def StoreCall.adds? : StoreCall → Option Segment
  | .addNode n => some (.node n)
  | .addEndpoint n e => some (.endpoint n e)
  | .addCluster n e c _ => some (.cluster n e c)
  | .addAttribute p | .write p _ => some (.leaf p)
  | _ => none

/-- The place that has to be there for the call. -/
def StoreCall.needs? : StoreCall → Option Segment
  | .addEndpoint n _ => some (.node n)
  | .addCluster n e .. | .addDeviceType n e _ => some (.endpoint n e)
  | .addAttribute p | .write p _ => some (.cluster p.node p.endpoint p.cluster)
  | .toggle p => some (.leaf p)
  | _ => none

inductive StoreQuery where
  | endpointIds (n : NodeId)
  | clusterIds (n : NodeId) (e : EndpointId)
  | attributeIds (n : NodeId) (e : EndpointId) (c : ClusterId)
  | deviceTypes (n : NodeId) (e : EndpointId)
  | revision (n : NodeId) (e : EndpointId) (c : ClusterId)
  | leaf (p : AttributePath)
  | isReadable (p : AttributePath)
  | read (p : AttributePath) (generation : Generation)

/-- The place that has to be there for the query. -/
def StoreQuery.needs : StoreQuery → Segment
  | endpointIds n => .node n
  | clusterIds n e | deviceTypes n e => .endpoint n e
  | attributeIds n e c | revision n e c => .cluster n e c
  | leaf p | isReadable p | read p _ => .leaf p

namespace Store

variable {s t : Store} {g : Segment}

def refusal? (s : Store) : StoreQuery → Option StoreFault
  | .endpointIds n => fault? (s.endpointIds n)
  | .clusterIds n e => fault? (s.clusterIds n e)
  | .attributeIds n e c => fault? (s.attributeIds n e c)
  | .deviceTypes n e => fault? (s.deviceTypes n e)
  | .revision n e c => fault? (s.revision n e c)
  | .leaf p => fault? (s.leaf p)
  | .isReadable p => fault? (s.isReadable p)
  | .read p generation => fault? (s.read p generation)

theorem has_apply {call : StoreCall} (hload : call.isLoad = false) (h : s.apply call = .ok t) :
    t.has g = true ↔ call.adds? = some g ∨ s.has g = true := by
  cases call with
  | setIdentity fabric vendor =>
    cases h
    simp only [StoreCall.adds?, reduceCtorEq, false_or]
    cases g <;> rfl
  | addNode n =>
    cases h
    rw [addNode_eq, has_putNode (s.endpoints_getD_new n), StoreCall.adds?, Option.some.injEq,
      eq_comm]
  | addEndpoint n e =>
    obtain ⟨⟨node, hn⟩, rfl⟩ := addEndpoint_eq_ok_iff.mp h
    have hnode : s.has (.node n) = true := by rw [has_node, hn]; rfl
    rw [has_putEndpoint hnode (s.clusters_getD_new n e), StoreCall.adds?, Option.some.injEq,
      eq_comm]
  | addCluster n e c revision =>
    obtain ⟨⟨endpoint, he⟩, rfl⟩ := addCluster_eq_ok_iff.mp h
    obtain ⟨hnode, hendpoint⟩ := has_of_endpoint he
    rw [has_putCluster hnode hendpoint (s.attributes_getD_new n e c revision), StoreCall.adds?,
      Option.some.injEq, eq_comm]
  | addDeviceType n e type =>
    obtain ⟨endpoint, he, rfl⟩ := addDeviceType_eq_ok_iff.mp h
    obtain ⟨hnode, hendpoint⟩ := has_of_endpoint he
    have hsame : ∀ c, ({ endpoint with deviceTypes := type.merge endpoint.deviceTypes }
        : Endpoint).clusters.get? c = s.cluster? n e c := fun c => (cluster?_eq he c).symm
    rw [has_putEndpoint hnode hsame]
    simp only [StoreCall.adds?, reduceCtorEq, false_or, or_iff_right_iff_imp]
    rintro rfl
    exact hendpoint
  | addAttribute p =>
    obtain ⟨cluster, hc, rfl⟩ := addAttribute_eq_ok_iff.mp h
    rw [Cluster.put, has_putLeaf _ _ hc, StoreCall.adds?, Option.some.injEq, eq_comm]
  | write p v =>
    obtain ⟨cluster, a, hc, -, rfl⟩ := write_eq_ok_iff.mp h
    rw [has_putLeaf _ a hc, StoreCall.adds?, Option.some.injEq, eq_comm]
  | toggle p =>
    obtain ⟨opened, htoggle⟩ := toggle_of_apply h
    obtain ⟨cluster, a, hc, ha, rfl⟩ := toggle_eq_ok htoggle
    rw [Cluster.put, has_putLeaf _ _ hc]
    simp only [StoreCall.adds?, reduceCtorEq, false_or, or_iff_right_iff_imp]
    rintro rfl
    rw [has_leaf, ha]
    rfl
  | load x => cases hload

theorem has_after {call : StoreCall} (hload : call.isLoad = false) (h : s.has g = true) :
    (s.after call).has g = true := by
  rw [after]
  split
  · next t happly => exact (has_apply hload happly).mpr (.inr h)
  · exact h

theorem has_foldl_after {calls : List StoreCall} (hload : ∀ call ∈ calls, call.isLoad = false)
    (h : s.has g = true) : (calls.foldl after s).has g = true := by
  induction calls generalizing s with
  | nil => exact h
  | cons call calls ih =>
    obtain ⟨hcall, hcalls⟩ := List.forall_mem_cons.mp hload
    exact ih hcalls (has_after hcall h)

theorem apply_eq_notFound_iff (s : Store) (call : StoreCall) (g : Segment) :
    s.apply call = .error (.notFound g) ↔
      call.needs?.bind (Segment.missing? s.has) = some g := by
  -- a call fails for want of a place only where the way down to its parent breaks off
  cases call with
  | setIdentity | addNode => simp [apply, StoreCall.needs?]
  | load x =>
    have hload : s.apply (.load x) = .ok x.toStore := load_eq_toStore x
    simp [hload, StoreCall.needs?]
  | addEndpoint n e =>
    change s.modifyNode n _ = _ ↔ _
    rw [modifyNode_eq]
    exact bind_eq_notFound_iff (s.fault?_node n) fun _ => nofun
  | addCluster n e c revision =>
    change s.modifyEndpoint n e _ = _ ↔ _
    rw [modifyEndpoint_eq]
    exact bind_eq_notFound_iff (s.fault?_endpoint n e) fun _ => nofun
  | addDeviceType n e type =>
    change s.modifyEndpoint n e _ = _ ↔ _
    rw [modifyEndpoint_eq]
    exact bind_eq_notFound_iff (s.fault?_endpoint n e) fun _ => nofun
  | addAttribute p =>
    change s.modifyCluster p.node p.endpoint p.cluster _ = _ ↔ _
    rw [modifyCluster_eq]
    exact bind_eq_notFound_iff (s.fault?_cluster p.node p.endpoint p.cluster) fun _ => nofun
  | write p v =>
    change s.modifyCluster p.node p.endpoint p.cluster _ = _ ↔ _
    rw [modifyCluster_eq]
    refine bind_eq_notFound_iff (s.fault?_cluster p.node p.endpoint p.cluster) fun cluster => ?_
    unfold Cluster.write
    cases ((cluster.attributes.get? p.id).getD {}).write v with
    | error expected => exact nofun
    | ok a => exact nofun
  | toggle p =>
    refine Iff.trans ?_ (eq_notFound_iff (s.fault?_leaf p))
    rw [apply_toggle]
    cases hleaf : s.leaf p with
    | error fault =>
      rw [modifyLeaf_of_error hleaf]
      simp
    | ok a =>
      obtain ⟨t, ht⟩ := modifyLeaf_of_ok hleaf Attribute.toggle
      rw [ht]
      simp

theorem refusal?_eq_notFound_iff (s : Store) (query : StoreQuery) (g : Segment) :
    s.refusal? query = some (.notFound g) ↔ query.needs.missing? s.has = some g := by
  cases query with
  | endpointIds n =>
    exact fault?_eq_some_iff.trans (bind_eq_notFound_iff (s.fault?_node n) fun _ => nofun)
  | clusterIds n e | deviceTypes n e =>
    exact fault?_eq_some_iff.trans (bind_eq_notFound_iff (s.fault?_endpoint n e) fun _ => nofun)
  | attributeIds n e c | revision n e c =>
    exact fault?_eq_some_iff.trans (bind_eq_notFound_iff (s.fault?_cluster n e c) fun _ => nofun)
  | leaf p => exact fault?_eq_some_iff.trans (eq_notFound_iff (s.fault?_leaf p))
  | isReadable p =>
    exact fault?_eq_some_iff.trans (bind_eq_notFound_iff (s.fault?_leaf p) fun _ => nofun)
  | read p generation =>
    refine fault?_eq_some_iff.trans (bind_eq_notFound_iff (s.fault?_leaf p) fun a => ?_)
    split
    · exact nofun
    · exact nofun

/-- An addition of a place that is there changes nothing. Only a write, which adds an attribute
where it is absent, has more to do. -/
theorem apply_of_has {call : StoreCall} (hadds : call.adds? = some g)
    (hwrite : ∀ p v, call ≠ .write p v) (h : s.has g = true) : s.apply call = .ok s := by
  cases call with
  | addNode n =>
    cases hadds
    rw [has_node] at h
    have hnodes : s.nodes.insertNew n .new = s.nodes := SortedMap.insertNew_of_contains _ _ h
    change Except.ok { s with nodes := _ } = _
    rw [hnodes]
  | addEndpoint n e =>
    cases hadds
    rw [has_endpoint] at h
    obtain ⟨endpoint, he⟩ := Option.isSome_iff_exists.mp h
    obtain ⟨node, hn, -⟩ := Option.bind_eq_some_iff.mp he
    refine addEndpoint_eq_ok_iff.mpr ⟨⟨node, hn⟩, ?_⟩
    rw [he, Option.getD_some, putEndpoint_of_found he]
  | addCluster n e c revision =>
    cases hadds
    rw [has_cluster] at h
    obtain ⟨cluster, hc⟩ := Option.isSome_iff_exists.mp h
    obtain ⟨endpoint, he, -⟩ := Option.bind_eq_some_iff.mp hc
    refine addCluster_eq_ok_iff.mpr ⟨⟨endpoint, he⟩, ?_⟩
    rw [hc, Option.getD_some, putCluster_of_found hc]
  | addAttribute p =>
    cases hadds
    rw [has_leaf] at h
    obtain ⟨a, ha⟩ := Option.isSome_iff_exists.mp h
    obtain ⟨cluster, hc, hi⟩ := Option.bind_eq_some_iff.mp ha
    refine addAttribute_eq_ok_iff.mpr ⟨cluster, hc, ?_⟩
    rw [ha, Option.getD_some, Cluster.put, SortedMap.insert_of_get? hi, putCluster_of_found hc]
  | write p v => exact (hwrite p v rfl).elim
  | setIdentity | addDeviceType | toggle | load => cases hadds

structure IsListing {κ : Type} [LT κ] (ids : List κ) (present : κ → Prop) : Prop where
  ascending : ids.Pairwise (· < ·)
  mem_iff : ∀ k, k ∈ ids ↔ present k

theorem isListing_nodeIds (s : Store) : IsListing s.nodeIds fun n => s.has (.node n) = true := by
  refine ⟨s.nodes.ascending_keys, fun n => ?_⟩
  rw [has_node]
  exact SortedMap.mem_keys

theorem isListing_endpointIds {n : NodeId} (h : s.has (.node n) = true) :
    ∃ ids, s.endpointIds n = .ok ids ∧ IsListing ids fun e => s.has (.endpoint n e) = true := by
  rw [has_node] at h
  obtain ⟨node, hn⟩ := Option.isSome_iff_exists.mp h
  refine ⟨node.endpoints.keys, ?_, node.endpoints.ascending_keys, fun e => ?_⟩
  · rw [endpointIds, node_eq_ok_iff.mpr hn]
    rfl
  · rw [has_endpoint, endpoint?, hn]
    exact SortedMap.mem_keys

theorem isListing_clusterIds {n : NodeId} {e : EndpointId} (h : s.has (.endpoint n e) = true) :
    ∃ ids, s.clusterIds n e = .ok ids ∧ IsListing ids fun c => s.has (.cluster n e c) = true := by
  rw [has_endpoint] at h
  obtain ⟨endpoint, he⟩ := Option.isSome_iff_exists.mp h
  refine ⟨endpoint.clusters.keys, ?_, endpoint.clusters.ascending_keys, fun c => ?_⟩
  · rw [clusterIds, endpoint_eq_ok_iff_eq_some.mpr he]
    rfl
  · rw [has_cluster, cluster?_eq he]
    exact SortedMap.mem_keys

theorem isListing_attributeIds {n : NodeId} {e : EndpointId} {c : ClusterId}
    (h : s.has (.cluster n e c) = true) : ∃ ids, s.attributeIds n e c = .ok ids ∧
      IsListing ids fun i => s.has (.leaf ⟨n, e, c, i⟩) = true := by
  rw [has_cluster] at h
  obtain ⟨cluster, hc⟩ := Option.isSome_iff_exists.mp h
  refine ⟨cluster.attributes.keys, ?_, cluster.attributes.ascending_keys, fun i => ?_⟩
  · rw [attributeIds, cluster_eq_ok_iff_eq_some.mpr hc]
    rfl
  · have hleaf : s.attribute? ⟨n, e, c, i⟩ = cluster.attributes.get? i := attribute?_eq hc
    rw [has_leaf, hleaf]
    exact SortedMap.mem_keys

def added (calls : List StoreCall) : List Segment := (accepted calls).filterMap StoreCall.adds?

theorem has_of_iff {calls : List StoreCall} (hload : ∀ call ∈ calls, call.isLoad = false) :
    (of calls).has g = true ↔ g ∈ added calls := by
  have hrun := run_induction
    (fun past s => (∀ call ∈ past, call.isLoad = false) →
      (s.has g = true ↔ g ∈ past.filterMap StoreCall.adds?)) (fun _ => ?_)
    (fun past s call t ih happly hpast => ?_) calls
  · exact hrun fun call hcall => hload call (mem_of_mem_accepted hcall)
  · have hempty : Store.empty.has g = false := by cases g <;> rfl
    simp [hempty]
  · obtain ⟨hold, hcall⟩ := List.forall_mem_append.mp hpast
    rw [has_apply (hcall call (List.mem_singleton_self call)) happly, ih hold,
      List.filterMap_append, List.mem_append, or_comm]
    simp

/-- A store whose places are those of a list. -/
structure IsTreeOf (s : Store) (known : List Segment) : Prop where
  has_iff : ∀ g, s.has g = true ↔ g ∈ known
  refused : ∀ call g, s.apply call = .error (.notFound g) ↔
    call.needs?.bind (Segment.missing? fun place => place ∈ known) = some g
  unanswered : ∀ query g, s.refusal? query = some (.notFound g) ↔
    query.needs.missing? (fun place => place ∈ known) = some g
  nodeIds : IsListing s.nodeIds fun n => .node n ∈ known
  endpointIds : ∀ n, .node n ∈ known →
    ∃ ids, s.endpointIds n = .ok ids ∧ IsListing ids fun e => .endpoint n e ∈ known
  clusterIds : ∀ n e, .endpoint n e ∈ known →
    ∃ ids, s.clusterIds n e = .ok ids ∧ IsListing ids fun c => .cluster n e c ∈ known
  attributeIds : ∀ n e c, .cluster n e c ∈ known →
    ∃ ids, s.attributeIds n e c = .ok ids ∧ IsListing ids fun i => .leaf ⟨n, e, c, i⟩ ∈ known
  readded : ∀ call g, call.adds? = some g → (∀ p v, call ≠ .write p v) → g ∈ known →
    s.apply call = .ok s

theorem isTreeOf_of_has {known : List Segment} (h : ∀ g, s.has g = true ↔ g ∈ known) :
    s.IsTreeOf known := by
  have hpresent : s.has = fun place => decide (place ∈ known) := by
    funext g
    rw [Bool.eq_iff_iff, h, decide_eq_true_iff]
  refine ⟨h, fun call g => ?_, fun query g => ?_, ?_, fun n hn => ?_, fun n e he => ?_,
    fun n e c hc => ?_, fun call g hadds hwrite hg => apply_of_has hadds hwrite ((h g).mpr hg)⟩
  · rw [apply_eq_notFound_iff, hpresent]
  · rw [refusal?_eq_notFound_iff, hpresent]
  · simpa only [h] using s.isListing_nodeIds
  · simpa only [h] using isListing_endpointIds ((h _).mpr hn)
  · simpa only [h] using isListing_clusterIds ((h _).mpr he)
  · simpa only [h] using isListing_attributeIds ((h _).mpr hc)

/-- Without loading, the places of a store are those that were added, and none of them is lost. -/
theorem isTreeOf_added {calls : List StoreCall} (hload : ∀ call ∈ calls, call.isLoad = false) :
    (of calls).IsTreeOf (added calls) ∧
      ∀ later : List StoreCall, (∀ call ∈ later, call.isLoad = false) →
        ∀ g, (of calls).has g = true → (of (calls ++ later)).has g = true := by
  refine ⟨isTreeOf_of_has fun g => has_of_iff hload, fun later hlater g hg => ?_⟩
  rw [of, List.foldl_append]
  exact has_foldl_after hlater hg

/-- A cluster is added below an endpoint that is missing, and again with another revision. -/
theorem isTreeOf_added_twice :
    let calls : List StoreCall := [.addNode 7, .addNode 2, .addCluster 2 1 6 4, .addEndpoint 2 1,
      .addCluster 2 1 6 4, .write ⟨2, 1, 6, 9⟩ .null, .addCluster 2 1 6 5]
    let s := of calls
    s.nodeIds = [2, 7] ∧ s.revision 2 1 6 = .ok 4 ∧
      s.apply (.toggle ⟨2, 1, 8, 9⟩) = .error (.notFound (.cluster 2 1 8)) ∧
      (of (calls ++ [.addNode 3])).has (.leaf ⟨2, 1, 6, 9⟩) = true := by
  intro calls s
  have hload : ∀ call ∈ calls, call.isLoad = false := by decide
  obtain ⟨htree, hkept⟩ := isTreeOf_added hload
  refine ⟨rfl, rfl, (htree.refused _ _).mpr (by decide), hkept [.addNode 3] (by decide) _ rfl⟩

end Store

end DeviceTrial
