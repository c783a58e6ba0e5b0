import DeviceTrial.Proofs.Snapshot.Normal
import DeviceTrial.Proofs.Store.Kept
import DeviceTrial.Proofs.Store.Revisions

namespace DeviceTrial

namespace StoreCall

/-- The device type that a call reports for an endpoint. -/
def reported? (n : NodeId) (e : EndpointId) : StoreCall → Option DeviceType
  | .addDeviceType m f type => if m = n ∧ f = e then some type else none
  | _ => none

end StoreCall

def Snapshot.deviceTypes (x : Snapshot) (n : NodeId) (e : EndpointId) : List DeviceType :=
  (((x.nodes.get? n).bind (·.endpoints.get? e)).map (·.deviceTypes)).getD []

namespace Era

/-- All that an era tells of the device types of an endpoint, in its order. -/
def reported (era : Era) (n : NodeId) (e : EndpointId) : List DeviceType :=
  (era.image.map (·.deviceTypes n e)).getD [] ++ era.calls.filterMap (StoreCall.reported? n e)

theorem merged_reported_next (era : Era) {call : StoreCall} (h : call.isLoad = false) (n : NodeId)
    (e : EndpointId) : DeviceType.merged ((era.next call).reported n e) =
      ((call.reported? n e).map (·.merge (DeviceType.merged (era.reported n e)))).getD
        (DeviceType.merged (era.reported n e)) := by
  rw [next_of_not_load h, reported, List.filterMap_append, ← List.append_assoc]
  cases hreport : call.reported? n e with
  | none =>
    rw [List.filterMap_cons_none hreport]
    exact congrArg DeviceType.merged (List.append_nil _)
  | some type =>
    rw [List.filterMap_cons_some hreport]
    exact DeviceType.merged_concat _ type

end Era

namespace Store

variable {s t : Store} {n m : NodeId} {e f : EndpointId}

/-- The device types that are known of an endpoint, none of one that is missing. -/
def knownTypes (s : Store) (n : NodeId) (e : EndpointId) : List DeviceType :=
  ((s.endpoint? n e).getD .new).deviceTypes

theorem deviceTypes_eq_ok_iff {types : List DeviceType} : s.deviceTypes n e = .ok types ↔
    (∃ endpoint, s.endpoint n e = .ok endpoint) ∧ types = s.knownTypes n e := by
  have hknown {endpoint : Endpoint} (h : s.endpoint n e = .ok endpoint) :
      s.knownTypes n e = endpoint.deviceTypes := by
    rw [knownTypes, endpoint_eq_ok_iff_eq_some.mp h]
    rfl
  rw [deviceTypes, bind_eq_ok_iff]
  constructor
  · rintro ⟨endpoint, h, hreturn⟩
    cases hreturn
    exact ⟨⟨endpoint, h⟩, (hknown h).symm⟩
  · rintro ⟨⟨endpoint, h⟩, rfl⟩
    exact ⟨endpoint, h, congrArg Except.ok (hknown h).symm⟩

theorem knownTypes_putEndpoint (s : Store) (n m : NodeId) (e f : EndpointId)
    (endpoint : Endpoint) : (s.putEndpoint m f endpoint).knownTypes n e =
      if m = n ∧ f = e then endpoint.deviceTypes else s.knownTypes n e := by
  have hplace : (n = m ∧ e = f) ↔ (m = n ∧ f = e) := by rw [eq_comm, @eq_comm _ e]
  rw [knownTypes, endpoint?_putEndpoint]
  simp only [hplace]
  split
  · rfl
  · rfl

theorem knownTypes_putEndpoint_of_same {endpoint : Endpoint}
    (h : endpoint.deviceTypes = s.knownTypes m f) (n : NodeId) (e : EndpointId) :
    (s.putEndpoint m f endpoint).knownTypes n e = s.knownTypes n e := by
  rw [knownTypes_putEndpoint]
  split
  · next hplace => rw [h, hplace.1, hplace.2]
  · rfl

theorem knownTypes_putCluster (s : Store) (n m : NodeId) (e f : EndpointId) (c : ClusterId)
    (cluster : Cluster) : (s.putCluster m f c cluster).knownTypes n e = s.knownTypes n e := by
  rw [putCluster_eq]
  refine knownTypes_putEndpoint_of_same ?_ n e
  rfl

theorem knownTypes_apply {call : StoreCall} (hload : call.isLoad = false)
    (h : s.apply call = .ok t) : t.knownTypes n e =
      ((call.reported? n e).map (·.merge (s.knownTypes n e))).getD (s.knownTypes n e) := by
  cases call with
  | setIdentity fabric vendor =>
    cases h
    rfl
  | addNode m =>
    cases h
    unfold knownTypes
    rw [endpoint?_addNode]
    rfl
  | addEndpoint m f =>
    obtain ⟨-, rfl⟩ := addEndpoint_eq_ok_iff.mp h
    exact knownTypes_putEndpoint_of_same rfl n e
  | addDeviceType m f type =>
    obtain ⟨endpoint, hendpoint, rfl⟩ := addDeviceType_eq_ok_iff.mp h
    rw [knownTypes_putEndpoint, StoreCall.reported?]
    split
    · next hplace =>
      obtain ⟨rfl, rfl⟩ := hplace
      rw [knownTypes, hendpoint]
      rfl
    · rfl
  | addCluster m f d revision =>
    obtain ⟨-, rfl⟩ := addCluster_eq_ok_iff.mp h
    exact s.knownTypes_putCluster ..
  | addAttribute p =>
    obtain ⟨cluster, -, rfl⟩ := addAttribute_eq_ok_iff.mp h
    exact s.knownTypes_putCluster ..
  | write p v =>
    obtain ⟨cluster, a, -, -, rfl⟩ := write_eq_ok_iff.mp h
    exact s.knownTypes_putCluster ..
  | toggle p =>
    obtain ⟨opened, htoggle⟩ := toggle_of_apply h
    obtain ⟨cluster, a, -, -, rfl⟩ := toggle_eq_ok htoggle
    exact s.knownTypes_putCluster ..
  | load x => cases hload

theorem knownTypes_toStore (x : Snapshot) (n : NodeId) (e : EndpointId) :
    x.toStore.knownTypes n e = DeviceType.merged (x.deviceTypes n e) := by
  rw [knownTypes, endpoint?_toStore, Snapshot.deviceTypes]
  cases (x.nodes.get? n).bind (·.endpoints.get? e) with
  | none => rfl
  | some image => rfl

/-- The stores differ in the device types of one endpoint at most. -/
structure SameBesidesTypes (n : NodeId) (e : EndpointId) (s t : Store) : Prop where
  fabric : t.fabric = s.fabric
  vendor : t.vendor = s.vendor
  places : s.SamePlaces t
  endpoint : ∀ m f, ¬(m = n ∧ f = e) → t.endpoint m f = s.endpoint m f
  cluster : ∀ m f c, t.cluster m f c = s.cluster m f c

theorem node_putNode (s : Store) (n m : NodeId) (node : Node) :
    (s.putNode n node).node m = if m = n then .ok node else s.node m := by
  unfold Store.node putNode
  by_cases hm : m = n
  · rw [if_pos hm, hm, SortedMap.get?_insert_self]
  · rw [if_neg hm, SortedMap.get?_insert_of_ne _ _ hm]

theorem endpoint_putEndpoint {found : Endpoint} (h : s.endpoint? n e = some found)
    (endpoint : Endpoint) (m : NodeId) (f : EndpointId) :
    (s.putEndpoint n e endpoint).endpoint m f =
      if m = n ∧ f = e then .ok endpoint else s.endpoint m f := by
  obtain ⟨node, hn, -⟩ := Option.bind_eq_some_iff.mp h
  rw [putEndpoint, hn, Store.endpoint, node_putNode]
  by_cases hm : m = n
  · subst hm
    rw [if_pos rfl, Option.getD_some]
    by_cases hf : f = e
    · rw [if_pos ⟨rfl, hf⟩, hf]
      simp only [bind, Except.bind, SortedMap.get?_insert_self]
      rfl
    · rw [if_neg fun hplace => hf hplace.2, Store.endpoint, node_eq_ok_iff.mpr hn]
      simp only [bind, Except.bind, SortedMap.get?_insert_of_ne _ _ hf]
  · rw [if_neg hm, if_neg fun hplace => hm hplace.1]
    rfl

theorem samePlaces_putEndpoint {found endpoint : Endpoint} (h : s.endpoint? n e = some found)
    (hclusters : endpoint.clusters = found.clusters) :
    s.SamePlaces (s.putEndpoint n e endpoint) := by
  obtain ⟨node, hn, he⟩ := Option.bind_eq_some_iff.mp h
  have hnodes : s.nodes.contains n = true := Option.isSome_iff_exists.mpr ⟨node, hn⟩
  have hendpoints : node.endpoints.contains e = true := Option.isSome_iff_exists.mpr ⟨found, he⟩
  refine ⟨SortedMap.keys_insert_of_contains hnodes _, fun m => ?_, fun m f => ?_⟩
  · unfold endpointIds
    rw [putEndpoint, node_putNode, hn]
    split
    · next hm =>
      rw [hm, node_eq_ok_iff.mpr hn]
      exact congrArg Except.ok (SortedMap.keys_insert_of_contains hendpoints _)
    · rfl
  · unfold clusterIds
    rw [endpoint_putEndpoint h]
    split
    · next hplace =>
      rw [hplace.1, hplace.2, endpoint_eq_ok_iff_eq_some.mpr h]
      exact congrArg (fun clusters => Except.ok clusters.keys) hclusters
    · rfl

theorem sameBesidesTypes_putEndpoint {found endpoint : Endpoint}
    (h : s.endpoint? n e = some found) (hclusters : endpoint.clusters = found.clusters) :
    SameBesidesTypes n e s (s.putEndpoint n e endpoint) where
  fabric := rfl
  vendor := rfl
  places := samePlaces_putEndpoint h hclusters
  endpoint m f hplace := by rw [endpoint_putEndpoint h, if_neg hplace]
  cluster m f c := by
    rw [Store.cluster, endpoint_putEndpoint h]
    split
    · next hplace =>
      rw [hplace.1, hplace.2, Store.cluster, endpoint_eq_ok_iff_eq_some.mpr h]
      simp only [bind, Except.bind, hclusters]
    · rfl

theorem knownTypes_of (calls : List StoreCall) (n : NodeId) (e : EndpointId) :
    (of calls).knownTypes n e =
      DeviceType.merged ((Era.of (accepted calls)).reported n e) := by
  refine run_induction
    (fun past s => s.knownTypes n e = DeviceType.merged ((Era.of past).reported n e)) rfl
    (fun past s call t ih happly => ?_) calls
  have hera : Era.of (past ++ [call]) = (Era.of past).next call := List.foldl_append ..
  rw [hera]
  cases hload : call.isLoad with
  | false => rw [knownTypes_apply hload happly, Era.merged_reported_next _ hload, ih]
  | true =>
    cases call with
    | load x =>
      cases (load_eq_toStore x).symm.trans happly
      rw [knownTypes_toStore]
      exact congrArg DeviceType.merged (List.append_nil _).symm
    | _ => cases hload

/-- An endpoint has each device type once that was reported for it, in the order of first report, as
it was reported last. What an image lists was reported when it was loaded. A report changes the
device types of its own endpoint and nothing else, and one that is refused changes nothing. -/
theorem deviceTypes_eq_latest (calls : List StoreCall) (n : NodeId) (e : EndpointId) :
    (∀ types, (of calls).deviceTypes n e = .ok types ↔
      (∃ endpoint, (of calls).endpoint n e = .ok endpoint) ∧
        types = DeviceType.latest ((Era.of (accepted calls)).reported n e)) ∧
    (∀ types, (of calls).deviceTypes n e = .ok types → DeviceType.Distinct types) ∧
    ∀ type,
      (∀ t, (of calls).addDeviceType n e type = .ok t →
        SameBesidesTypes n e (of calls) t ∧
          ∃ types, (of calls).deviceTypes n e = .ok types ∧
            t.deviceTypes n e = .ok (type.merge types)) ∧
      ∀ fault, (of calls).addDeviceType n e type = .error fault →
        of (calls ++ [.addDeviceType n e type]) = of calls := by
  have htypes (types : List DeviceType) : (of calls).deviceTypes n e = .ok types ↔
      (∃ endpoint, (of calls).endpoint n e = .ok endpoint) ∧
        types = DeviceType.latest ((Era.of (accepted calls)).reported n e) := by
    rw [deviceTypes_eq_ok_iff, knownTypes_of, DeviceType.merged_eq_latest]
  refine ⟨htypes, fun types h => ?_, fun type => ⟨fun t h => ?_, fun fault h => ?_⟩⟩
  · obtain ⟨-, rfl⟩ := (htypes types).mp h
    exact DeviceType.merged_eq_latest _ ▸ DeviceType.distinct_merged _
  · obtain ⟨endpoint, hendpoint, rfl⟩ := addDeviceType_eq_ok_iff.mp h
    refine ⟨sameBesidesTypes_putEndpoint hendpoint rfl, endpoint.deviceTypes, ?_, ?_⟩
    · rw [deviceTypes, endpoint_eq_ok_iff_eq_some.mpr hendpoint]
      rfl
    · rw [deviceTypes, endpoint_putEndpoint hendpoint, if_pos ⟨rfl, rfl⟩]
      rfl
  · have hrefused : (of calls).apply (.addDeviceType n e type) = .error fault := h
    rw [of_concat, after, hrefused]

/-- The image lists a device type twice, and two endpoints are told of one in turns. -/
theorem deviceTypes_eq_latest_loaded :
    let x : Snapshot := ⟨"", none, none, .ofList [(1, ⟨.ofList [(0, ⟨[⟨22, 1⟩, ⟨17, 1⟩, ⟨22, 2⟩],
      .empty⟩), (1, ⟨[], .empty⟩)]⟩)], []⟩
    let calls : List StoreCall := [.load x, .addDeviceType 1 0 ⟨17, 3⟩,
      .addDeviceType 1 1 ⟨17, 4⟩, .addDeviceType 1 0 ⟨15, 1⟩, .addDeviceType 2 0 ⟨15, 2⟩]
    (of calls).deviceTypes 1 0 = .ok [⟨22, 2⟩, ⟨17, 3⟩, ⟨15, 1⟩] ∧
      DeviceType.Distinct [⟨22, 2⟩, ⟨17, 3⟩, ⟨15, 1⟩] ∧
      (∃ t, (of calls).addDeviceType 1 0 ⟨22, 5⟩ = .ok t ∧ SameBesidesTypes 1 0 (of calls) t) ∧
      of (calls ++ [.addDeviceType 2 0 ⟨22, 5⟩]) = of calls := by
  intro x calls
  have h := deviceTypes_eq_latest calls
  obtain ⟨endpoint, hendpoint⟩ : ∃ endpoint, (of calls).endpoint? 1 0 = some endpoint :=
    Option.isSome_iff_exists.mp (by decide +kernel)
  have hknown : (of calls).deviceTypes 1 0 = .ok [⟨22, 2⟩, ⟨17, 3⟩, ⟨15, 1⟩] :=
    ((h 1 0).1 _).mpr ⟨⟨endpoint, endpoint_eq_ok_iff_eq_some.mpr hendpoint⟩, by decide +kernel⟩
  have haccepted := addDeviceType_eq_ok_iff.mpr
    ⟨endpoint, hendpoint, Eq.refl ((of calls).putEndpoint 1 0
      { endpoint with deviceTypes := (DeviceType.mk 22 5).merge endpoint.deviceTypes })⟩
  have hrefused : (of calls).addDeviceType 2 0 ⟨22, 5⟩ = .error (.notFound (.node 2)) :=
    fault?_eq_some_iff.mp (by decide +kernel)
  exact ⟨hknown, (h 1 0).2.1 _ hknown,
    ⟨_, haccepted, (((h 1 0).2.2 ⟨22, 5⟩).1 _ haccepted).1⟩, ((h 2 0).2.2 ⟨22, 5⟩).2 _ hrefused⟩

end Store

end DeviceTrial
