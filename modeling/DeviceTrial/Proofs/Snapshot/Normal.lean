import Mathlib.Data.List.Basic
import DeviceTrial.Proofs.Snapshot.Dump

namespace DeviceTrial

namespace DeviceType

def find? (types : List DeviceType) (id : DeviceTypeId) : Option DeviceType :=
  List.find? (fun t => t.id = id) types

/-- Each id once, in the order of first mention, as it is listed last. -/
def latest (types : List DeviceType) : List DeviceType :=
  (types.map (·.id)).eraseDups.filterMap (find? types.reverse)

theorem find?_cons (t : DeviceType) (types : List DeviceType) (id : DeviceTypeId) :
    find? (t :: types) id = if t.id = id then some t else find? types id := by
  rw [find?, List.find?_cons]
  by_cases ht : t.id = id
  · rw [if_pos ht, decide_eq_true ht]
  · rw [if_neg ht, decide_eq_false ht]
    rfl

theorem find?_merge (t : DeviceType) (types : List DeviceType) (id : DeviceTypeId) :
    find? (t.merge types) id = if t.id = id then some t else find? types id := by
  induction types with
  | nil => exact find?_cons t [] id
  | cons u types ih =>
    rw [merge]
    by_cases hu : u.id = t.id
    · rw [if_pos hu, find?_cons, find?_cons, hu]
      split <;> rfl
    · rw [if_neg hu, find?_cons, find?_cons, ih]
      by_cases hid : u.id = id
      · rw [if_pos hid, if_pos hid, if_neg fun ht => hu (hid.trans ht.symm)]
      · rw [if_neg hid, if_neg hid]

theorem merged_concat (types : List DeviceType) (t : DeviceType) :
    merged (types ++ [t]) = t.merge (merged types) :=
  List.foldl_append ..

theorem find?_merged (types : List DeviceType) (id : DeviceTypeId) :
    find? (merged types) id = find? types.reverse id := by
  induction types using List.reverseRecOn with
  | nil => rfl
  | append_singleton types t ih =>
    rw [merged_concat, find?_merge, ih, List.reverse_concat, find?_cons]

theorem ids_merged (types : List DeviceType) :
    (merged types).map (·.id) = (types.map (·.id)).eraseDups := by
  induction types using List.reverseRecOn with
  | nil => rfl
  | append_singleton types t ih =>
    rw [merged_concat, ids_merge, ih, List.map_append, List.eraseDups_append]
    by_cases hold : t.id ∈ types.map (·.id)
    · have hgone : [t.id].removeAll (types.map (·.id)) = [] :=
        List.filter_cons_of_neg (by simpa using hold)
      rw [if_pos (List.mem_eraseDups.mpr hold), List.map_singleton, hgone]
      exact (List.append_nil _).symm
    · have hkept : [t.id].removeAll (types.map (·.id)) = [t.id] :=
        List.filter_cons_of_pos (by simpa using hold)
      rw [if_neg (hold ∘ List.mem_eraseDups.mp), List.map_singleton, hkept]
      rfl

theorem Distinct.eq_filterMap {types : List DeviceType} (h : Distinct types) :
    types = (types.map (·.id)).filterMap (find? types) := by
  induction types with
  | nil => rfl
  | cons t types ih =>
    obtain ⟨hnew, hrest⟩ := List.nodup_cons.mp h
    have hskip : ∀ id ∈ types.map (·.id), find? (t :: types) id = find? types id := by
      intro id hid
      rw [find?_cons, if_neg]
      rintro rfl
      exact hnew hid
    have hhead : find? (t :: types) t.id = some t := by
      rw [find?_cons, if_pos rfl]
    rw [List.map_cons, List.filterMap_cons_some hhead, List.filterMap_congr hskip, ← ih hrest]

theorem merged_eq_latest (types : List DeviceType) : merged types = latest types := by
  rw [(distinct_merged types).eq_filterMap, ids_merged, latest]
  exact List.filterMap_congr fun id _ => find?_merged types id

example : latest [⟨22, 1⟩, ⟨17, 1⟩, ⟨22, 3⟩] = [⟨22, 3⟩, ⟨17, 1⟩] := by decide

theorem latest_eq_self {types : List DeviceType} (h : Distinct types) : latest types = types :=
  (merged_eq_latest types).symm.trans (merged_eq_self h)

end DeviceType

/-- The type name of a value is told by the value. -/
def Entry.normal : Entry → Entry
  | .unreadable => .unreadable
  | .value _ e => .ofElement e

def ClusterImage.normal (image : ClusterImage) : ClusterImage :=
  { image with attributes := image.attributes.mapValues fun _ => Entry.normal }

def EndpointImage.normal (image : EndpointImage) : EndpointImage where
  deviceTypes := DeviceType.latest image.deviceTypes
  clusters := image.clusters.mapValues fun _ => ClusterImage.normal

def NodeImage.normal (image : NodeImage) : NodeImage :=
  ⟨image.endpoints.mapValues fun _ => EndpointImage.normal⟩

def Snapshot.normal (x : Snapshot) : Snapshot :=
  { x with nodes := x.nodes.mapValues fun _ => NodeImage.normal }

theorem Entry.ofAttribute_toAttribute (entry : Entry) :
    Entry.ofAttribute entry.toAttribute = entry.normal := by
  cases entry with
  | unreadable => rfl
  | value type e => rfl

theorem ClusterImage.image_toCluster (image : ClusterImage) :
    image.toCluster.image = image.normal := by
  unfold toCluster Cluster.image normal
  rw [SortedMap.mapValues_mapValues]
  simp only [Entry.ofAttribute_toAttribute]

theorem EndpointImage.image_toEndpoint (image : EndpointImage) :
    image.toEndpoint.image = image.normal := by
  unfold toEndpoint Endpoint.image normal
  rw [SortedMap.mapValues_mapValues, DeviceType.merged_eq_latest]
  simp only [ClusterImage.image_toCluster]

theorem NodeImage.image_toNode (image : NodeImage) : image.toNode.image = image.normal := by
  unfold toNode Node.image normal
  rw [SortedMap.mapValues_mapValues]
  simp only [EndpointImage.image_toEndpoint]

theorem Snapshot.dump_toStore (x : Snapshot) (time : String) :
    x.toStore.dump time x.history = { x.normal with timestamp := time } := by
  unfold toStore Store.dump normal
  rw [SortedMap.mapValues_mapValues]
  simp only [NodeImage.image_toNode]

theorem Entry.normal_ofAttribute (a : Attribute) :
    (Entry.ofAttribute a).normal = Entry.ofAttribute a := by
  unfold Entry.ofAttribute
  split
  · rfl
  · rfl

theorem Cluster.normal_image (c : Cluster) : c.image.normal = c.image := by
  unfold image ClusterImage.normal
  rw [SortedMap.mapValues_mapValues]
  simp only [Entry.normal_ofAttribute]

theorem Endpoint.normal_image {e : Endpoint} (h : DeviceType.Distinct e.deviceTypes) :
    e.image.normal = e.image := by
  unfold image EndpointImage.normal
  rw [SortedMap.mapValues_mapValues, DeviceType.latest_eq_self h]
  simp only [Cluster.normal_image]

theorem Store.DistinctTypes.normal_dump {s : Store} (h : s.DistinctTypes) (time : String)
    (history : List String) : (s.dump time history).normal = s.dump time history := by
  have hnode (n : NodeId) (node : Node) (hn : s.nodes.get? n = some node) :
      node.image.normal = node.image := by
    unfold Node.image NodeImage.normal
    rw [SortedMap.mapValues_mapValues]
    refine congrArg NodeImage.mk (SortedMap.mapValues_congr fun e endpoint he => ?_)
    exact Endpoint.normal_image (h n e endpoint (Option.bind_eq_some_iff.mpr ⟨node, hn, he⟩))
  unfold Store.dump Snapshot.normal
  rw [SortedMap.mapValues_mapValues, SortedMap.mapValues_congr hnode]

/-- The store that an image describes is one that can be reached, so its dump is normal. -/
theorem Snapshot.normal_normal (x : Snapshot) : x.normal.normal = x.normal := by
  have hreached : Store.of [.load x] = x.toStore := by
    change Store.empty.after (.load x) = x.toStore
    rw [Store.after, show Store.empty.apply (.load x) = .ok x.toStore from Store.load_eq_toStore x]
  have hdump : x.toStore.dump x.timestamp x.history = x.normal := x.dump_toStore x.timestamp
  rw [← hdump, ← hreached]
  exact (Store.distinctTypes_of [.load x]).normal_dump x.timestamp x.history

/-- Every image can be loaded, and whatever store loads it becomes one and the same, whose dump is
the normal image. Normal images are dumped as they are, and the dump of a store that was reached by
calls is one. -/
theorem Store.load_normal (x : Snapshot) :
    (∃ u, (∀ t : Store, t.apply (.load x) = .ok u) ∧
      ∀ time, u.dump time x.history = { x.normal with timestamp := time }) ∧
    x.normal.normal = x.normal ∧
    ∀ calls time history,
      ((Store.of calls).dump time history).normal = (Store.of calls).dump time history :=
  ⟨⟨x.toStore, fun _ => load_eq_toStore x, x.dump_toStore⟩, x.normal_normal,
    fun calls => (distinctTypes_of calls).normal_dump⟩

end DeviceTrial
