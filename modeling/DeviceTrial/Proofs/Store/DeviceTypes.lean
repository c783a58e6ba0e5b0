import DeviceTrial.Proofs.Store.Calls
import DeviceTrial.Proofs.Snapshot.Restore

namespace DeviceTrial

namespace DeviceType

def Distinct (types : List DeviceType) : Prop := (types.map (·.id)).Nodup

variable {t : DeviceType} {us vs : List DeviceType}

theorem ids_merge (t : DeviceType) (us : List DeviceType) : (t.merge us).map (·.id) =
    if t.id ∈ us.map (·.id) then us.map (·.id) else us.map (·.id) ++ [t.id] := by
  induction us with
  | nil => rfl
  | cons u us ih =>
    unfold merge
    by_cases hu : u.id = t.id
    · rw [if_pos hu, if_pos (by simp [hu])]
      simp [hu]
    · have hmem : t.id ∈ (u :: us).map (·.id) ↔ t.id ∈ us.map (·.id) := by
        simp [Ne.symm hu]
      rw [if_neg hu, List.map_cons, ih]
      simp only [hmem]
      split
      · rfl
      · rfl

theorem Distinct.merge (h : Distinct us) (t : DeviceType) : Distinct (t.merge us) := by
  unfold Distinct
  rw [ids_merge]
  split
  · exact h
  · next hnew => exact List.nodup_append.mpr ⟨h, by simp, by simpa using hnew⟩

theorem merge_of_new (h : t.id ∉ us.map (·.id)) : t.merge us = us ++ [t] := by
  induction us with
  | nil => rfl
  | cons u us ih =>
    rw [List.map_cons, List.mem_cons, not_or] at h
    rw [merge, if_neg (Ne.symm h.1), ih h.2]
    rfl

theorem distinct_merged (types : List DeviceType) : Distinct (merged types) := by
  have hfold (us : List DeviceType) (h : Distinct us) :
      Distinct (types.foldl (fun us t => t.merge us) us) := by
    induction types generalizing us with
    | nil => exact h
    | cons t types ih => exact ih _ (h.merge t)
  exact hfold [] List.nodup_nil

theorem merged_eq_self {types : List DeviceType} (h : Distinct types) : merged types = types := by
  have hfold (us vs : List DeviceType) (h : Distinct (us ++ vs)) :
      vs.foldl (fun us t => t.merge us) us = us ++ vs := by
    induction vs generalizing us with
    | nil => exact (List.append_nil us).symm
    | cons t vs ih =>
      have hnew : t.id ∉ us.map (·.id) := by
        intro hus
        unfold Distinct at h
        rw [List.map_append, List.nodup_append] at h
        exact h.2.2 _ hus _ (List.mem_cons_self ..) rfl
      have hsplit : us ++ t :: vs = us ++ [t] ++ vs := by simp
      rw [List.foldl_cons, merge_of_new hnew, hsplit]
      exact ih _ (hsplit ▸ h)
  exact hfold [] types h

end DeviceType

namespace Store

def DistinctTypes (s : Store) : Prop :=
  ∀ n e endpoint, s.endpoint? n e = some endpoint → DeviceType.Distinct endpoint.deviceTypes

variable {s t : Store} {n : NodeId} {e : EndpointId} {c : ClusterId}

theorem DistinctTypes.getD (h : s.DistinctTypes) (n : NodeId) (e : EndpointId) :
    DeviceType.Distinct ((s.endpoint? n e).getD .new).deviceTypes := by
  cases hendpoint : s.endpoint? n e with
  | none => exact List.nodup_nil
  | some endpoint => exact h n e endpoint hendpoint

theorem DistinctTypes.putEndpoint (h : s.DistinctTypes) {endpoint : Endpoint}
    (htypes : DeviceType.Distinct endpoint.deviceTypes) :
    (s.putEndpoint n e endpoint).DistinctTypes := by
  intro m f found hfound
  rw [endpoint?_putEndpoint] at hfound
  split at hfound
  · cases hfound
    exact htypes
  · exact h m f found hfound

theorem DistinctTypes.putCluster (h : s.DistinctTypes) (cluster : Cluster) :
    (s.putCluster n e c cluster).DistinctTypes := by
  rw [putCluster_eq]
  exact h.putEndpoint (h.getD n e)

theorem DistinctTypes.apply (h : s.DistinctTypes) {call : StoreCall}
    (happly : s.apply call = .ok t) : t.DistinctTypes := by
  cases call with
  | setIdentity fabric vendor =>
    cases happly
    exact h
  | addNode n =>
    cases happly
    intro m f endpoint hendpoint
    rw [endpoint?_addNode] at hendpoint
    exact h m f endpoint hendpoint
  | addEndpoint n e =>
    obtain ⟨-, rfl⟩ := addEndpoint_eq_ok_iff.mp happly
    exact h.putEndpoint (h.getD n e)
  | addCluster n e c revision =>
    obtain ⟨-, rfl⟩ := addCluster_eq_ok_iff.mp happly
    exact h.putCluster _
  | addDeviceType n e type =>
    obtain ⟨endpoint, hendpoint, rfl⟩ := addDeviceType_eq_ok_iff.mp happly
    exact h.putEndpoint ((h n e endpoint hendpoint).merge type)
  | addAttribute p =>
    obtain ⟨cluster, -, rfl⟩ := addAttribute_eq_ok_iff.mp happly
    exact h.putCluster _
  | write p v =>
    obtain ⟨cluster, a, -, -, rfl⟩ := write_eq_ok_iff.mp happly
    exact h.putCluster _
  | toggle p =>
    obtain ⟨opened, htoggle⟩ := toggle_of_apply happly
    obtain ⟨cluster, a, -, -, rfl⟩ := toggle_eq_ok htoggle
    exact h.putCluster _
  | load x =>
    cases (load_eq_toStore x).symm.trans happly
    intro n e endpoint hendpoint
    rw [endpoint?_toStore] at hendpoint
    obtain ⟨image, -, rfl⟩ := Option.map_eq_some_iff.mp hendpoint
    exact DeviceType.distinct_merged image.deviceTypes

theorem distinctTypes_of (calls : List StoreCall) : (Store.of calls).DistinctTypes := by
  have hempty : (Store.empty).DistinctTypes := fun n e endpoint h => by cases h
  exact run_induction (fun _ s => s.DistinctTypes) hempty
    (fun past s call t h happly => h.apply happly) calls

end Store

end DeviceTrial
