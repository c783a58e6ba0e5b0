import DeviceTrial.Proofs.Store.WriteLog

namespace DeviceTrial

namespace Store

variable {s t : Store} {n : NodeId} {e : EndpointId} {c : ClusterId} {p q : AttributePath}

theorem edit_eq_ok {told : Option UInt16} {change : Attribute → Except StoreFault Attribute}
    (h : s.edit p told change = .ok t) : ∃ cluster revision a,
      s.cluster? p.node p.endpoint p.cluster = some cluster ∧
        change ((s.attribute? p).getD {}) = .ok a ∧
        t = s.putCluster p.node p.endpoint p.cluster
          ⟨revision, cluster.attributes.insert p.id a⟩ := by
  obtain ⟨cluster, changed, hcluster, hedit, rfl⟩ := modifyCluster_eq_ok_iff.mp h
  obtain ⟨a, hchange, rfl⟩ := Cluster.edit_eq_ok_iff.mp hedit
  rw [cluster_eq_ok_iff_eq_some] at hcluster
  rw [← attribute?_eq hcluster] at hchange
  exact ⟨cluster, _, a, hcluster, hchange, rfl⟩

theorem attribute?_edit {told : Option UInt16} {change : Attribute → Except StoreFault Attribute}
    (h : s.edit p told change = .ok t) : ∃ a, change ((s.attribute? p).getD {}) = .ok a ∧
      ∀ q, t.attribute? q = if q = p then some a else s.attribute? q := by
  obtain ⟨cluster, revision, a, hcluster, hchange, rfl⟩ := edit_eq_ok h
  exact ⟨a, hchange, fun q => attribute?_putCluster_insert revision a hcluster⟩

structure SamePlaces (s t : Store) : Prop where
  nodeIds : t.nodeIds = s.nodeIds
  endpointIds : ∀ n, t.endpointIds n = s.endpointIds n
  clusterIds : ∀ n e, t.clusterIds n e = s.clusterIds n e

theorem SamePlaces.refl (s : Store) : s.SamePlaces s := ⟨rfl, fun _ => rfl, fun _ _ => rfl⟩

theorem samePlaces_putCluster {found : Cluster} (h : s.cluster? n e c = some found)
    (cluster : Cluster) : s.SamePlaces (s.putCluster n e c cluster) := by
  obtain ⟨endpoint, hendpoint, hc⟩ := Option.bind_eq_some_iff.mp h
  obtain ⟨node, hn, he⟩ := Option.bind_eq_some_iff.mp hendpoint
  have hnodes : s.nodes.contains n = true := Option.isSome_iff_exists.mpr ⟨node, hn⟩
  have hendpoints : node.endpoints.contains e = true := Option.isSome_iff_exists.mpr ⟨endpoint, he⟩
  have hclusters : endpoint.clusters.contains c = true := Option.isSome_iff_exists.mpr ⟨found, hc⟩
  unfold putCluster
  simp only [hn, he, Option.getD_some]
  refine ⟨SortedMap.keys_insert_of_contains hnodes _, fun m => ?_, fun m f => ?_⟩
  · unfold endpointIds Store.node
    by_cases hm : m = n
    · subst hm
      rw [SortedMap.get?_insert_self, hn]
      exact congrArg Except.ok (SortedMap.keys_insert_of_contains hendpoints _)
    · rw [SortedMap.get?_insert_of_ne _ _ hm]
  · unfold clusterIds Store.endpoint Store.node
    by_cases hm : m = n
    · subst hm
      rw [SortedMap.get?_insert_self, hn]
      simp only [bind, Except.bind]
      by_cases hf : f = e
      · subst hf
        rw [SortedMap.get?_insert_self, he]
        exact congrArg Except.ok (SortedMap.keys_insert_of_contains hclusters _)
      · rw [SortedMap.get?_insert_of_ne _ _ hf]
    · rw [SortedMap.get?_insert_of_ne _ _ hm]

theorem samePlaces_edit {told : Option UInt16} {change : Attribute → Except StoreFault Attribute}
    (h : s.edit p told change = .ok t) : s.SamePlaces t := by
  obtain ⟨cluster, revision, a, hcluster, -, rfl⟩ := edit_eq_ok h
  exact samePlaces_putCluster hcluster _

/-- The attribute is there and has a latest value. -/
def HasValue (s : Store) (p : AttributePath) : Prop :=
  ∃ a v, s.leaf p = .ok a ∧ a.current = some v

theorem hasValue_iff : s.HasValue p ↔
    ∃ a, s.attribute? p = some a ∧ a.current.isSome = true := by
  unfold HasValue
  simp only [leaf_eq_ok_iff_eq_some, Option.isSome_iff_exists, exists_and_left]

theorem hasValue_congr (h : t.attribute? p = s.attribute? p) : t.HasValue p ↔ s.HasValue p := by
  rw [hasValue_iff, hasValue_iff, h]

theorem HasValue.of_replaced (h : s.HasValue q) {a : Attribute}
    (ht : t.attribute? q = if q = p then some a else s.attribute? q)
    (ha : ∀ b, s.attribute? p = some b → b.current.isSome = true → a.current.isSome = true) :
    t.HasValue q := by
  obtain ⟨b, hb, hvalue⟩ := hasValue_iff.mp h
  rw [hasValue_iff, ht]
  split
  · next hq =>
    subst hq
    exact ⟨a, rfl, ha b hb hvalue⟩
  · exact ⟨b, hb, hvalue⟩

theorem hasValue_edit {told : Option UInt16} {change : Attribute → Except StoreFault Attribute}
    (h : s.edit p told change = .ok t)
    (hkeeps : ∀ a b, change a = .ok b → a.current.isSome = true → b.current.isSome = true)
    (hq : s.HasValue q) : t.HasValue q := by
  obtain ⟨a, hchange, hshown⟩ := attribute?_edit h
  refine hq.of_replaced (hshown q) fun b hb => ?_
  rw [hb] at hchange
  exact hkeeps b a hchange

theorem hasValue_write {v : Element} (h : s.write p v = .ok t) : t.HasValue p := by
  obtain ⟨a, ha, hshown⟩ := attribute?_write (q := p) h
  rw [hasValue_iff, hshown, if_pos rfl]
  exact ⟨a, rfl, by rw [Attribute.eq_of_write ha]; rfl⟩

/-- Only loading takes values away. -/
theorem HasValue.apply (h : s.HasValue q) {call : StoreCall} (hload : ∀ x, call ≠ .load x)
    (happly : s.apply call = .ok t) : t.HasValue q := by
  cases hconcerns : call.concerns q with
  | false => exact (hasValue_congr (attribute?_apply happly hconcerns)).mpr h
  | true =>
    cases call with
    | addAttribute p =>
      refine h.of_replaced (attribute?_addAttribute happly) fun b hb hvalue => ?_
      rwa [hb]
    | write p v =>
      obtain ⟨a, ha, hshown⟩ := attribute?_write (q := q) happly
      exact h.of_replaced hshown fun _ _ _ => by rw [Attribute.eq_of_write ha]; rfl
    | toggle p =>
      obtain ⟨opened, htoggle⟩ := toggle_of_apply happly
      obtain ⟨a, ha, hshown⟩ := attribute?_toggle (q := q) htoggle
      refine h.of_replaced hshown fun b hb hvalue => ?_
      cases ha.symm.trans hb
      exact hvalue
    | load x => exact (hload x rfl).elim
    | setIdentity | addNode | addEndpoint | addCluster | addDeviceType => cases hconcerns

theorem HasValue.after (h : s.HasValue q) {call : StoreCall} (hload : ∀ x, call ≠ .load x) :
    (s.after call).HasValue q := by
  unfold Store.after
  split
  · next happly => exact h.apply hload happly
  · exact h

end Store

end DeviceTrial
