import DeviceTrial.Proofs.Snapshot.File
import DeviceTrial.Proofs.Store.Presence
import Mathlib.Data.List.Nodup
import Mathlib.Data.Set.Card

namespace DeviceTrial

namespace SortedMap

variable {κ α β : Type} [Ranked κ] {below : α → List β} {m : SortedMap κ α}

/-- Each key of a map with everything that is listed below its value. -/
def rows (below : α → List β) (m : SortedMap κ α) : List (κ × β) :=
  m.entries.flatMap fun entry => (below entry.2).map (entry.1, ·)

theorem mem_rows {k : κ} {b : β} :
    (k, b) ∈ m.rows below ↔ ∃ a, m.get? k = some a ∧ b ∈ below a := by
  simp only [rows, List.mem_flatMap, List.mem_map, Prod.mk.injEq]
  constructor
  · rintro ⟨entry, hentry, b, hb, rfl, rfl⟩
    exact ⟨entry.2, get?_of_mem hentry, hb⟩
  · rintro ⟨a, ha, hb⟩
    exact ⟨(k, a), mem_of_get? ha, b, hb, rfl, rfl⟩

theorem nodup_rows (h : ∀ a, (below a).Nodup) (m : SortedMap κ α) : (m.rows below).Nodup := by
  refine List.nodup_flatMap.mpr ⟨fun entry _ => ?_, m.ascending.imp fun hlt => ?_⟩
  · exact (h entry.2).map (Prod.mk_right_injective entry.1)
  · -- rows of different keys differ in the key
    intro row hfirst hsecond
    obtain ⟨_, -, rfl⟩ := List.mem_map.mp hfirst
    obtain ⟨_, -, hrow⟩ := List.mem_map.mp hsecond
    exact Nat.ne_of_gt hlt (congrArg (fun row => rank row.1) hrow)

theorem total_eq_sum (f : α → Nat) (m : SortedMap κ α) :
    m.total f = (m.entries.map fun entry => f entry.2).sum := by
  rw [total, List.sum_eq_foldr, List.foldr_map]

theorem total_mapValues {γ : Type} (f : α → γ) (g : γ → Nat) (m : SortedMap κ α) :
    (m.mapValues fun _ => f).total g = m.total fun a => g (f a) := by
  rw [total, mapValues, List.foldr_map]
  rfl

theorem total_eq_sum_rows {f : α → Nat} {g : κ × β → Nat}
    (h : ∀ k a, m.get? k = some a → f a = ((below a).map fun b => g (k, b)).sum) :
    m.total f = ((m.rows below).map g).sum := by
  have hvalues : (m.entries.map fun entry => f entry.2) =
      m.entries.map fun entry => ((below entry.2).map fun b => g (entry.1, b)).sum :=
    List.map_congr_left fun entry hentry => h _ _ (get?_of_mem hentry)
  rw [total_eq_sum, hvalues, rows, List.map_flatMap, List.flatMap_def, List.sum_flatten]
  simp only [List.map_map]
  rfl

theorem total_eq_sum_keys {f : α → Nat} {g : κ → Nat} (h : ∀ k a, m.get? k = some a → f a = g k) :
    m.total f = (m.keys.map g).sum := by
  rw [total_eq_sum, keys, List.map_map]
  exact congrArg List.sum (List.map_congr_left fun entry hentry => h _ _ (get?_of_mem hentry))

theorem length_rows (below : α → List β) (m : SortedMap κ α) :
    (m.rows below).length = m.total fun a => (below a).length := by
  have hsum : m.total (fun a => (below a).length) = ((m.rows below).map fun _ => 1).sum :=
    total_eq_sum_rows fun k a _ => by simp
  rw [hsum]
  simp

end SortedMap

def AttributePath.equivRow : AttributePath ≃ NodeId × EndpointId × ClusterId × AttributeId where
  toFun p := (p.node, p.endpoint, p.cluster, p.id)
  invFun row := ⟨row.1, row.2.1, row.2.2.1, row.2.2.2⟩
  left_inv _ := rfl
  right_inv _ := rfl

namespace Snapshot

def attributeRows (x : Snapshot) : List (NodeId × EndpointId × ClusterId × AttributeId) :=
  x.nodes.rows fun node => node.endpoints.rows fun endpoint =>
    endpoint.clusters.rows fun cluster => cluster.attributes.keys

theorem mem_attributeRows {x : Snapshot} {p : AttributePath} :
    p.equivRow ∈ x.attributeRows ↔ (x.entry? p).isSome = true := by
  simp only [AttributePath.equivRow, Equiv.coe_fn_mk, attributeRows, SortedMap.mem_rows,
    SortedMap.mem_keys, SortedMap.contains, Snapshot.entry?, Option.isSome_iff_exists,
    Option.bind_eq_bind, Option.bind_eq_some_iff]
  grind

theorem nodup_attributeRows (x : Snapshot) : x.attributeRows.Nodup :=
  SortedMap.nodup_rows (fun _ => SortedMap.nodup_rows (fun _ => SortedMap.nodup_rows
    (fun cluster => cluster.attributes.nodup_keys) _) _) _

theorem length_attributeRows (x : Snapshot) : x.attributeRows.length = x.attributeCount := by
  simp only [attributeRows, SortedMap.length_rows, attributeCount, SortedMap.keys,
    List.length_map]
  rfl

theorem attributeCount_eq_ncard (x : Snapshot) :
    x.attributeCount = {p | (x.entry? p).isSome = true}.ncard := by
  let paths := x.attributeRows.map AttributePath.equivRow.symm
  have hpaths : {p | (x.entry? p).isSome = true} = (paths.toFinset : Set AttributePath) := by
    ext p
    rw [List.coe_toFinset, Set.mem_ofPred_eq, Set.mem_ofPred_eq, ← mem_attributeRows,
      List.mem_map]
    constructor
    · intro h
      exact ⟨_, h, Equiv.symm_apply_apply ..⟩
    · rintro ⟨row, hrow, rfl⟩
      rwa [Equiv.apply_symm_apply]
  have hnodup : paths.Nodup := x.nodup_attributeRows.map AttributePath.equivRow.symm.injective
  rw [hpaths, Set.ncard_coe_finset, List.toFinset_card_of_nodup hnodup, List.length_map,
    length_attributeRows]

end Snapshot

namespace Store

variable {s : Store} {n : NodeId} {e : EndpointId} {c : ClusterId} {p : AttributePath}

def clusterRows (s : Store) : List (NodeId × EndpointId × ClusterId) :=
  s.nodes.rows fun node => node.endpoints.rows fun endpoint => endpoint.clusters.keys

theorem mem_clusterRows : (n, e, c) ∈ s.clusterRows ↔ s.has (.cluster n e c) = true := by
  simp only [clusterRows, SortedMap.mem_rows, SortedMap.mem_keys, SortedMap.contains, has_cluster,
    cluster?, endpoint?, Option.isSome_iff_exists, Option.bind_eq_bind, Option.bind_eq_some_iff]
  grind

theorem nodup_clusterRows (s : Store) : s.clusterRows.Nodup :=
  SortedMap.nodup_rows (fun _ => SortedMap.nodup_rows
    (fun endpoint => endpoint.clusters.nodup_keys) _) _

/-- The number of attributes that are listed for a cluster, none where it is not there. -/
def listed (s : Store) (row : NodeId × EndpointId × ClusterId) : Nat :=
  ((s.attributeIds row.1 row.2.1 row.2.2).toOption.getD []).length

theorem listed_eq {cluster : Cluster} (h : s.cluster? n e c = some cluster) :
    s.listed (n, e, c) = cluster.attributes.size := by
  have hids : s.attributeIds n e c = .ok cluster.attributes.keys := by
    rw [attributeIds, cluster_eq_ok_iff_eq_some.mpr h]
    rfl
  rw [listed, hids]
  exact List.length_map ..

theorem attributeCount_dump (s : Store) (timestamp : String) (history : List String) :
    (s.dump timestamp history).attributeCount = (s.clusterRows.map s.listed).sum := by
  simp only [Snapshot.attributeCount, dump, Node.image, Endpoint.image, Cluster.image,
    SortedMap.total_mapValues]
  refine SortedMap.total_eq_sum_rows fun n node hn => ?_
  refine SortedMap.total_eq_sum_rows fun e endpoint he => ?_
  refine SortedMap.total_eq_sum_keys fun c cluster hc => ?_
  have hcluster : s.cluster? n e c = some cluster := by
    rw [cluster?, endpoint?, hn]
    change (node.endpoints.get? e).bind _ = _
    rw [he]
    exact hc
  rw [listed_eq hcluster]
  exact List.length_map ..

theorem read_and_shown (s : Store) (timestamp : String) (history : List String)
    (p : AttributePath) :
    (∃ v, s.read p .current = .ok v ∧
      Snapshot.entry? (s.dump timestamp history) p = some (.ofElement v)) ∨
    (s.read p .current = .error (.unreadable p) ∧
      Snapshot.entry? (s.dump timestamp history) p = some .unreadable) ∨
    ∃ g, s.read p .current = .error (.notFound g) ∧
      Snapshot.entry? (s.dump timestamp history) p = none := by
  rw [entry?_dump]
  cases hleaf : s.leaf p with
  | error fault =>
    right
    right
    obtain ⟨g, -, rfl⟩ := Option.map_eq_some_iff.mp
      ((s.fault?_leaf p).symm.trans (fault?_eq_some_iff.mpr hleaf))
    refine ⟨g, by rw [read, hleaf]; rfl, ?_⟩
    have hmissing : s.has (.leaf p) = false := by rw [has, hleaf]; rfl
    rw [has_leaf, Option.isSome_eq_false_iff, Option.isNone_iff_eq_none] at hmissing
    rw [hmissing]
    rfl
  | ok a =>
    rw [leaf_eq_ok_iff_eq_some.mp hleaf, read_of_leaf hleaf]
    obtain ⟨current, previous, readable, signature, nullable⟩ := a
    cases readable with
    | false => exact .inr (.inl ⟨rfl, rfl⟩)
    | true =>
      cases current with
      | none => exact .inr (.inl ⟨rfl, rfl⟩)
      | some v => exact .inl ⟨v, rfl, rfl⟩

/-- An image shows what a reader of the store sees and has as many attributes as the store lists. -/
structure ShownBy (s : Store) (x : Snapshot) : Prop where
  value : ∀ p type v, x.entry? p = some (.value type v) ↔
    type = v.describe ∧ s.read p .current = .ok v
  unreadable : ∀ p, x.entry? p = some .unreadable ↔ s.read p .current = .error (.unreadable p)
  missing : ∀ p, x.entry? p = none ↔ ∃ g, s.read p .current = .error (.notFound g)
  count : ∃ clusters : List (NodeId × EndpointId × ClusterId), clusters.Nodup ∧
    (∀ n e c, (n, e, c) ∈ clusters ↔ s.has (.cluster n e c) = true) ∧
    x.attributeCount = (clusters.map s.listed).sum

/-- Every dump shows what a reader sees, and every image counts the paths at which it has an
entry. -/
theorem shownBy_dump (s : Store) (timestamp : String) (history : List String) :
    s.ShownBy (s.dump timestamp history) ∧
      ∀ x : Snapshot, x.attributeCount = {p | (x.entry? p).isSome = true}.ncard := by
  have hshown := s.read_and_shown timestamp history
  refine ⟨⟨fun p type v => ?_, fun p => ?_, fun p => ?_, s.clusterRows, s.nodup_clusterRows,
    fun n e c => mem_clusterRows, s.attributeCount_dump timestamp history⟩,
    Snapshot.attributeCount_eq_ncard⟩
  · obtain ⟨w, hread, hentry⟩ | ⟨hread, hentry⟩ | ⟨g, hread, hentry⟩ := hshown p
    · rw [hread, hentry, Entry.ofElement, Option.some.injEq, Entry.value.injEq, Except.ok.injEq]
      constructor
      · rintro ⟨rfl, rfl⟩
        exact ⟨rfl, rfl⟩
      · rintro ⟨rfl, rfl⟩
        exact ⟨rfl, rfl⟩
    · simp [hread, hentry]
    · simp [hread, hentry]
  · obtain ⟨w, hread, hentry⟩ | ⟨hread, hentry⟩ | ⟨g, hread, hentry⟩ := hshown p
    · simp [hread, hentry, Entry.ofElement]
    · simp [hread, hentry]
    · simp [hread, hentry]
  · obtain ⟨w, hread, hentry⟩ | ⟨hread, hentry⟩ | ⟨g, hread, hentry⟩ := hshown p
    · simp [hread, hentry]
    · simp [hread, hentry]
    · simp [hread, hentry]

/-- A value behind an open gate, one behind a closed gate and an attribute that was never written,
and a cluster that has none. -/
example :
    let s := Store.of [.addNode 1, .addEndpoint 1 0, .addCluster 1 0 6 4, .write ⟨1, 0, 6, 0⟩ .null,
      .write ⟨1, 0, 6, 1⟩ (.bool true), .toggle ⟨1, 0, 6, 1⟩, .addAttribute ⟨1, 0, 6, 2⟩,
      .addCluster 1 0 8 1]
    ((s.dump "" []).attributeCount, s.clusterRows.map s.listed) = (3, [3, 0]) := rfl

end Store

end DeviceTrial
