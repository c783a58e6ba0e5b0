import DeviceTrial.Proofs.Store.Clusters

namespace DeviceTrial

/-- The attribute with its gate closed. -/
def Attribute.shut (a : Attribute) : Attribute := { a with readable := false }

theorem Attribute.shut_of_open {a : Attribute} (h : a.readable = true) : a.shut = a.toggle := by
  rw [Attribute.shut, Attribute.toggle, h]
  rfl

theorem Attribute.shut_of_shut {a : Attribute} (h : a.readable = false) : a.shut = a := by
  rw [Attribute.shut, ← h]

def Cluster.put (c : Cluster) (id : AttributeId) (a : Attribute) : Cluster :=
  { c with attributes := c.attributes.insert id a }

/-- Replaces an attribute by what becomes of it, or of a new one, and sets the revision where one is
told. -/
def Cluster.edit (id : AttributeId) (told : Option UInt16)
    (change : Attribute → Except StoreFault Attribute) (c : Cluster) :
    Except StoreFault Cluster := do
  let a ← change ((c.attributes.get? id).getD {})
  return ⟨told.getD c.revision, c.attributes.insert id a⟩

theorem Cluster.edit_eq_ok_iff {c d : Cluster} {id : AttributeId} {told : Option UInt16}
    {change : Attribute → Except StoreFault Attribute} : c.edit id told change = .ok d ↔
      ∃ a, change ((c.attributes.get? id).getD {}) = .ok a ∧
        d = ⟨told.getD c.revision, c.attributes.insert id a⟩ := by
  unfold Cluster.edit
  rw [bind_eq_ok_iff]
  refine exists_congr fun a => and_congr_right fun _ => ?_
  constructor
  · intro h
    cases h
    rfl
  · rintro rfl
    rfl

theorem Cluster.edit_eq_error_iff {c : Cluster} {id : AttributeId} {told : Option UInt16}
    {change : Attribute → Except StoreFault Attribute} {fault : StoreFault} :
    c.edit id told change = .error fault ↔
      change ((c.attributes.get? id).getD {}) = .error fault := by
  unfold Cluster.edit
  cases change ((c.attributes.get? id).getD {}) with
  | error f => simp [bind, Except.bind]
  | ok a => simp [bind, Except.bind, pure, Except.pure]

section

variable {i j : AttributeId} {told told' : Option UInt16}
  {f g : Attribute → Except StoreFault Attribute}

theorem Cluster.spares_edit (h : j ≠ i) :
    Spares (Cluster.edit i told f) (Cluster.edit j told' g) := by
  intro c d fault hf hg
  obtain ⟨a, -, rfl⟩ := Cluster.edit_eq_ok_iff.mp hf
  rw [Cluster.edit_eq_error_iff] at hg ⊢
  rw [SortedMap.get?_insert_of_ne _ _ h]
  exact hg

theorem Cluster.separate_edit (h : i ≠ j) (htold : told = none ∨ told' = none) :
    Separate (Cluster.edit i told f) (Cluster.edit j told' g) := by
  refine ⟨Cluster.spares_edit h.symm, Cluster.spares_edit h, ?_⟩
  intro c d d' hf hg
  obtain ⟨a, ha, rfl⟩ := Cluster.edit_eq_ok_iff.mp hf
  obtain ⟨b, hb, rfl⟩ := Cluster.edit_eq_ok_iff.mp hg
  refine ⟨⟨told'.getD (told.getD c.revision), (c.attributes.insert i a).insert j b⟩,
    Cluster.edit_eq_ok_iff.mpr ⟨b, ?_, rfl⟩, Cluster.edit_eq_ok_iff.mpr ⟨a, ?_, ?_⟩⟩
  · rw [SortedMap.get?_insert_of_ne _ _ h.symm]
    exact hb
  · rw [SortedMap.get?_insert_of_ne _ _ h]
    exact ha
  · rw [SortedMap.insert_comm _ _ _ h]
    rcases htold with rfl | rfl <;> rfl

end

namespace Store

section

variable {n m : NodeId} {e e' : EndpointId} {c d : ClusterId}
  {f g : Cluster → Except StoreFault Cluster}

theorem spares_modifyCluster (h : Spares f g) :
    Spares (fun s : Store => s.modifyCluster n e c f) fun s => s.modifyCluster n e c g := by
  intro s t fault hf hg
  obtain ⟨cluster, changed, hcluster, hchange, rfl⟩ := modifyCluster_eq_ok_iff.mp hf
  -- before and after, the refusal is that of the change to the cluster
  replace hg := (modifyCluster_of_ok hcluster g).symm.trans hg
  refine (modifyCluster_of_ok (cluster_putCluster_self ..) g).trans ?_
  cases hrefuse : g cluster with
  | ok other =>
    rw [hrefuse] at hg
    cases hg
  | error refusal =>
    rw [hrefuse] at hg
    cases hg
    rw [h _ _ _ hchange hrefuse]
    rfl

theorem separate_modifyCluster (h : Separate f g) :
    Separate (fun s : Store => s.modifyCluster n e c f) fun s => s.modifyCluster n e c g := by
  refine ⟨spares_modifyCluster h.spares, spares_modifyCluster h.spared, ?_⟩
  intro s t u hf hg
  obtain ⟨cluster, changed, hcluster, hchange, rfl⟩ := modifyCluster_eq_ok_iff.mp hf
  obtain ⟨_, changed', hcluster', hchange', rfl⟩ := modifyCluster_eq_ok_iff.mp hg
  cases hcluster.symm.trans hcluster'
  obtain ⟨both, hboth, hboth'⟩ := h.commute _ _ _ hchange hchange'
  refine ⟨s.putCluster n e c both,
    modifyCluster_eq_ok_iff.mpr ⟨_, both, cluster_putCluster_self .., hboth, ?_⟩,
    modifyCluster_eq_ok_iff.mpr ⟨_, both, cluster_putCluster_self .., hboth', ?_⟩⟩
  · rw [putCluster_putCluster]
  · rw [putCluster_putCluster]

theorem spares_modifyCluster_of_ne (h : (m, e', d) ≠ (n, e, c)) :
    Spares (fun s : Store => s.modifyCluster n e c f) fun s => s.modifyCluster m e' d g := by
  intro s t fault hf hg
  obtain ⟨cluster, changed, hcluster, -, rfl⟩ := modifyCluster_eq_ok_iff.mp hf
  have hsame := cluster_putCluster_of_ne changed hcluster h
  cases hother : s.cluster m e' d with
  | error refusal =>
    replace hg := (modifyCluster_of_error hother g).symm.trans hg
    exact (modifyCluster_of_error (hsame.trans hother) g).trans hg
  | ok other =>
    replace hg := (modifyCluster_of_ok hother g).symm.trans hg
    refine (modifyCluster_of_ok (hsame.trans hother) g).trans ?_
    cases hrefuse : g other with
    | ok _ =>
      rw [hrefuse] at hg
      cases hg
    | error refusal =>
      rw [hrefuse] at hg
      cases hg
      rfl

theorem separate_modifyCluster_of_ne (h : (n, e, c) ≠ (m, e', d)) :
    Separate (fun s : Store => s.modifyCluster n e c f) fun s => s.modifyCluster m e' d g := by
  refine ⟨spares_modifyCluster_of_ne h.symm, spares_modifyCluster_of_ne h, ?_⟩
  intro s t u hf hg
  obtain ⟨cluster, changed, hcluster, hchange, rfl⟩ := modifyCluster_eq_ok_iff.mp hf
  obtain ⟨other, changed', hother, hchange', rfl⟩ := modifyCluster_eq_ok_iff.mp hg
  refine ⟨(s.putCluster n e c changed).putCluster m e' d changed',
    modifyCluster_eq_ok_iff.mpr ⟨other, changed', ?_, hchange', rfl⟩,
    modifyCluster_eq_ok_iff.mpr ⟨cluster, changed, ?_, hchange, ?_⟩⟩
  · rw [cluster_putCluster_of_ne _ hcluster h.symm, hother]
  · rw [cluster_putCluster_of_ne _ hother h, hcluster]
  · exact putCluster_comm s _ _ h

end

/-- Edits one attribute. A revision is told by the revision attribute only. -/
def edit (p : AttributePath) (told : Option UInt16)
    (change : Attribute → Except StoreFault Attribute) (s : Store) : Except StoreFault Store :=
  s.modifyCluster p.node p.endpoint p.cluster
    (Cluster.edit p.id (if p.id = revisionAttribute then told else none) change)

theorem separate_edit {p q : AttributePath} (h : p ≠ q) (told told' : Option UInt16)
    (f g : Attribute → Except StoreFault Attribute) :
    Separate (edit p told f) (edit q told' g) := by
  by_cases hplace : (p.node, p.endpoint, p.cluster) = (q.node, q.endpoint, q.cluster)
  · obtain ⟨n, e, c, i⟩ := p
    obtain ⟨m, e', d, j⟩ := q
    cases hplace
    have hid : i ≠ j := fun hid => h (by rw [hid])
    apply separate_modifyCluster
    apply Cluster.separate_edit hid
    -- at most one of the two is the revision attribute
    by_cases hi : i = revisionAttribute
    · exact .inr (if_neg fun hj => hid (hi.trans hj.symm))
    · exact .inl (if_neg hi)
  · exact separate_modifyCluster_of_ne hplace

/-- What a write at a path makes of the attribute there. -/
def written (p : AttributePath) (e : Element) (a : Attribute) : Except StoreFault Attribute :=
  match a.write e with
  | .ok next => .ok next
  | .error expected => .error (.typeMismatch p expected (.ofElement e))

theorem write_eq_edit (s : Store) (p : AttributePath) (e : Element) :
    s.write p e = s.edit p e.revision? (written p e) := by
  unfold write edit
  congr 1
  funext c
  unfold Cluster.write Cluster.edit written
  cases hwrite : ((c.attributes.get? p.id).getD {}).write e with
  | error expected => rfl
  | ok next => rfl

def shut (s : Store) (p : AttributePath) : Except StoreFault Store :=
  s.edit p none fun a => .ok a.shut

theorem addAttribute_of_error {s : Store} {p : AttributePath} {fault : StoreFault}
    (h : s.cluster p.node p.endpoint p.cluster = .error fault) :
    s.addAttribute p = .error fault :=
  modifyCluster_of_error h _

theorem addAttribute_of_ok {s : Store} {p : AttributePath} {c : Cluster}
    (h : s.cluster p.node p.endpoint p.cluster = .ok c) :
    s.addAttribute p = .ok (s.putCluster p.node p.endpoint p.cluster
      (c.put p.id ((c.attributes.get? p.id).getD {}))) := by
  rw [Cluster.put, ← SortedMap.insertNew_eq_insert]
  exact modifyCluster_of_ok h _

theorem shut_of_error {s : Store} {p : AttributePath} {fault : StoreFault}
    (h : s.cluster p.node p.endpoint p.cluster = .error fault) : s.shut p = .error fault :=
  modifyCluster_of_error h _

theorem shut_of_ok {s : Store} {p : AttributePath} {c : Cluster}
    (h : s.cluster p.node p.endpoint p.cluster = .ok c) :
    s.shut p = .ok (s.putCluster p.node p.endpoint p.cluster
      (c.put p.id ((c.attributes.get? p.id).getD {}).shut)) := by
  refine (modifyCluster_of_ok h _).trans ?_
  simp only [Cluster.edit, ite_self]
  rfl

section

variable (s : Store) (p : AttributePath) (c : Cluster) (a : Attribute)

theorem leaf_putCluster :
    (s.putCluster p.node p.endpoint p.cluster (c.put p.id a)).leaf p = .ok a :=
  leaf_eq_ok_iff.mpr ⟨_, cluster_putCluster_self .., SortedMap.get?_insert_self ..⟩

theorem isReadable_putCluster :
    (s.putCluster p.node p.endpoint p.cluster (c.put p.id a)).isReadable p = .ok a.readable := by
  rw [isReadable, leaf_putCluster]
  rfl

theorem toggle_putCluster :
    (s.putCluster p.node p.endpoint p.cluster (c.put p.id a)).toggle p =
      .ok (a.toggle.readable,
        s.putCluster p.node p.endpoint p.cluster (c.put p.id a.toggle)) := by
  have hcluster := cluster_putCluster_self s p.node p.endpoint p.cluster (c.put p.id a)
  have hmodify :
      (s.putCluster p.node p.endpoint p.cluster (c.put p.id a)).modifyLeaf p
          (fun a => .ok a.toggle) =
        .ok (s.putCluster p.node p.endpoint p.cluster (c.put p.id a.toggle)) := by
    rw [modifyLeaf, modifyCluster_of_ok hcluster]
    simp only [Cluster.put, SortedMap.modify, SortedMap.get?_insert_self, SortedMap.insert_insert,
      putCluster_putCluster, Except.map, bind, Except.bind, pure, Except.pure]
  rw [toggle, leaf_putCluster]
  change (do
    let t ← modifyLeaf _ p _
    return (a.toggle.readable, t) : Except StoreFault _) = _
  rw [hmodify]
  rfl

end

end Store

end DeviceTrial
