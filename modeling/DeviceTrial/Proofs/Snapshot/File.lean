import DeviceTrial.Proofs.Envelope.Described
import DeviceTrial.Proofs.SortedMap
import DeviceTrial.Proofs.Store.Calls
import DeviceTrial.Snapshot.Notation

namespace DeviceTrial

open Json (Fault Takes TakesField Fills)

variable {ρ α β γ : Type} {room : Nat}

/-- An object of a map is taken where the key of every entry stays below a bound and its value is
taken. -/
theorem SortedMap.takes_json {κ : Type} [Ranked κ] {bound : Nat} {toNat : κ → Nat} {ofNat : Nat → κ}
    (hbound : bound ≤ UInt64.size) (hlt : ∀ k, toNat k < bound) (hkey : ∀ k, ofNat (toNat k) = k)
    {read : Json.Scope → List Char → Except (Fault ρ) (α × List Char)} {value : α → Json}
    {m : SortedMap κ α} (h : ∀ k a, m.get? k = some a → Takes room read (value a) a) :
    Takes (room + 1) (readMap bound ofNat read) (m.json toNat value) m := by
  have hfields : List.Forall₂ (TakesField room (Json.numeralKey bound) read)
      (m.entries.map fun e => (Numeral.decimal (toNat e.1), value e.2))
      (m.entries.map fun e => (toNat e.1, e.2)) := by
    rw [List.forall₂_map_left_iff, List.forall₂_map_right_iff]
    exact List.forall₂_same.mpr fun e he =>
      ⟨Json.takesKey_numeralKey hbound (hlt e.1), h e.1 e.2 (SortedMap.get?_of_mem he)⟩
  refine (Json.takes_readObject hfields).bind fun rest => ?_
  have hentries : (m.entries.map fun e => (toNat e.1, e.2)).map (fun e => (ofNat e.1, e.2)) =
      m.entries := by
    rw [List.map_map]
    refine (List.map_congr_left fun e _ => ?_).trans (List.map_id _)
    exact Prod.ext (hkey e.1) rfl
  have hlist : SortedMap.ofList m.entries = m := m.empty_union
  change Except.ok (SortedMap.ofList _, rest) = _
  rw [hentries, hlist]

theorem fills_pairFields {first second : String} (hne : first ≠ second)
    {readFirst : Json.Scope → List Char → Except (Fault ρ) (α × List Char)}
    {readSecond : Json.Scope → List Char → Except (Fault ρ) (β × List Char)} {v w : Json} {a : α}
    {b : β} (hfirst : Takes room readFirst v a) (hsecond : Takes room readSecond w b) :
    Fills room (pairFields first second readFirst readSecond) (none, none)
      [(first, v), (second, w)] (some a, some b) := by
  refine .cons (List.find?_cons_of_pos (by simp)) rfl (hfirst.bind fun _ => rfl) ?_
  refine .cons ((List.find?_cons_of_neg (by simp [hne])).trans (List.find?_cons_of_pos (by simp)))
    rfl (hsecond.bind fun _ => rfl) ?_
  exact .nil rfl

theorem takes_pair {first second : String} (hne : first ≠ second)
    {readFirst : Json.Scope → List Char → Except (Fault ρ) (α × List Char)}
    {readSecond : Json.Scope → List Char → Except (Fault ρ) (β × List Char)} {v w : Json} {a : α}
    {b : β} (hfirst : Takes room readFirst v a) (hsecond : Takes room readSecond w b)
    {next : α × β × List Char → Except (Fault ρ) (γ × List Char)} {c : γ}
    (hnext : ∀ rest, next (a, b, rest) = .ok (c, rest)) :
    Takes (room + 1)
      (fun scope cs => readPair (pairFields first second readFirst readSecond) scope cs >>= next)
      (.object [(first, v), (second, w)]) c where
  starts := fun indent => Json.startsValue_object indent _
  reads := by
    intro scope indent cs rest hroom hfuel hrest hcs
    have hrecord := (fills_pairFields hne hfirst hsecond).takes.reads hroom hfuel hrest hcs
    exact bind_eq_ok_iff.mpr ⟨_, bind_eq_ok_iff.mpr ⟨_, hrecord, rfl⟩, hnext rest⟩

/-- An entry is unreadable, or its element is one that files keep. -/
def Entry.IsKept (entry : Entry) : Prop :=
  ∀ e, entry.element? = some e → e.IsFloatFree ∧ e.nesting ≤ 32

theorem Entry.ofJson?_json {entry : Entry} (h : entry.IsKept) :
    Entry.ofJson? entry.json = some entry := by
  cases entry with
  | unreadable => rfl
  | value type e =>
    have hfree := (h e rfl).1
    change (do
      let d ← Description.ofJson? e.json
      return value type (← d.element.toOption)) = _
    rw [e.ofJson?_json]
    change (do return value type (← e.description.element.toOption)) = _
    rw [e.element_description hfree]
    rfl

theorem Entry.takes_json {entry : Entry} (h : entry.IsKept) :
    Takes (ρ := ρ) 68 readEntry entry.json entry := by
  have hvalue : Takes (ρ := ρ) 68 Json.readValue entry.json entry.json := by
    cases entry with
    | unreadable => exact (Json.takes_text _).mono (Nat.zero_le 68)
    | value type e =>
      obtain ⟨hfree, hnesting⟩ := h e rfl
      refine Json.takes_object fun f hf => ?_
      simp only [List.mem_cons, List.not_mem_nil, or_false] at hf
      rcases hf with rfl | rfl
      · exact (Json.takes_text type).mono (Nat.zero_le 67)
      · exact (e.takes_json hfree).mono (by omega)
  refine hvalue.bind fun rest => ?_
  dsimp only
  rw [Entry.ofJson?_json h]
  rfl

theorem ClusterImage.takes_json {image : ClusterImage}
    (h : ∀ i entry, image.attributes.get? i = some entry → entry.IsKept) :
    Takes (ρ := ρ) 70 readCluster image.json image := by
  have hattributes := SortedMap.takes_json (ρ := ρ) (by decide) UInt32.toNat_lt
    (fun _ => UInt32.ofNat_toNat) fun i entry hi => Entry.takes_json (h i entry hi)
  have hrevision := (Json.takes_readNatural (ρ := ρ) (by decide) image.revision.toNat_lt)
  refine takes_pair (by decide) (hrevision.mono (Nat.zero_le 69)) hattributes fun rest => ?_
  dsimp only
  rw [UInt16.ofNat_toNat]
  rfl

theorem DeviceType.takes_json (type : DeviceType) :
    Takes (ρ := ρ) 1 readDeviceType type.json type := by
  have hid := Json.takes_readNatural (ρ := ρ) (by decide) type.id.toNat_lt
  have hrevision := Json.takes_readNatural (ρ := ρ) (by decide) type.revision.toNat_lt
  refine takes_pair (by decide) hid hrevision fun rest => ?_
  dsimp only
  rw [UInt32.ofNat_toNat, UInt16.ofNat_toNat]
  rfl

theorem EndpointImage.takes_json {image : EndpointImage}
    (h : ∀ c cluster, image.clusters.get? c = some cluster →
      ∀ i entry, cluster.attributes.get? i = some entry → entry.IsKept) :
    Takes (ρ := ρ) 72 readEndpoint image.json image := by
  have htypes : List.Forall₂ (Takes (ρ := ρ) 1 readDeviceType)
      (image.deviceTypes.map DeviceType.json) image.deviceTypes := by
    rw [List.forall₂_map_left_iff]
    exact List.forall₂_same.mpr fun type _ => type.takes_json
  have hclusters := SortedMap.takes_json (ρ := ρ) (by decide) UInt32.toNat_lt
    (fun _ => UInt32.ofNat_toNat) fun c cluster hc => ClusterImage.takes_json (h c cluster hc)
  exact takes_pair (by decide) ((Json.takes_readArray htypes).mono (by decide)) hclusters
    fun rest => rfl

theorem NodeImage.takes_json {image : NodeImage}
    (h : ∀ e endpoint, image.endpoints.get? e = some endpoint →
      ∀ c cluster, endpoint.clusters.get? c = some cluster →
        ∀ i entry, cluster.attributes.get? i = some entry → entry.IsKept) :
    Takes (ρ := ρ) 74 readNode image.json image := by
  have hendpoints := SortedMap.takes_json (ρ := ρ) (by decide) UInt16.toNat_lt
    (fun _ => UInt16.ofNat_toNat) fun e endpoint he => EndpointImage.takes_json (h e endpoint he)
  have hfields : Fills (ρ := ρ) 73 nodeFields none
      [("endpoints", image.endpoints.json UInt16.toNat EndpointImage.json)]
      (some image.endpoints) :=
    .cons rfl rfl (hendpoints.bind fun _ => rfl) (.nil rfl)
  exact hfields.takes.bind fun rest => rfl

namespace Snapshot

def IsKept (s : Snapshot) : Prop := ∀ p entry, s.entry? p = some entry → entry.IsKept

theorem entry?_eq {s : Snapshot} {p : AttributePath} {node : NodeImage} {endpoint : EndpointImage}
    {cluster : ClusterImage} (hnode : s.nodes.get? p.node = some node)
    (hendpoint : node.endpoints.get? p.endpoint = some endpoint)
    (hcluster : endpoint.clusters.get? p.cluster = some cluster) :
    s.entry? p = cluster.attributes.get? p.id := by
  unfold entry?
  simp only [hnode, hendpoint, hcluster, Option.bind_eq_bind, Option.bind_some]

section

variable {timestamp : Option String} {nodes : Option (SortedMap NodeId NodeImage)}
  {history : Option (List String)} {written : List (String × Json)} {last : SnapshotDraft}

/-- An identity that is not known is not written, and counts as not known when it is missing. -/
theorem fills_fabric (fabric : Option FabricId) {vendor : Option (Option VendorId)}
    (h : Fills (ρ := ρ) room snapshotFields ⟨timestamp, fabric.map some, vendor, nodes, history⟩
      written last) :
    Fills (ρ := ρ) room snapshotFields ⟨timestamp, none, vendor, nodes, history⟩
      (fabric.toList.map (fun f => ("fabricId", Json.ofNat f.toNat)) ++ written) last := by
  cases fabric with
  | none => exact h
  | some f =>
    have hread := Json.takes_readOption_readNatural (ρ := ρ) (by decide) f.toNat_lt
    refine .cons rfl rfl ((hread.mono (Nat.zero_le room)).bind fun rest => ?_) h
    dsimp only [Option.map_some]
    rw [UInt64.ofNat_toNat]
    rfl

theorem fills_vendor (vendor : Option VendorId) {fabric : Option (Option FabricId)}
    (h : Fills (ρ := ρ) room snapshotFields ⟨timestamp, fabric, vendor.map some, nodes, history⟩
      written last) :
    Fills (ρ := ρ) room snapshotFields ⟨timestamp, fabric, none, nodes, history⟩
      (vendor.toList.map (fun v => ("vendorId", Json.ofNat v.toNat)) ++ written) last := by
  cases vendor with
  | none => exact h
  | some v =>
    have hread := Json.takes_readOption_readNatural (ρ := ρ) (by decide) v.toNat_lt
    refine .cons rfl rfl ((hread.mono (Nat.zero_le room)).bind fun rest => ?_) h
    dsimp only [Option.map_some]
    rw [UInt16.ofNat_toNat]
    rfl

end

theorem takes_json {s : Snapshot} (h : s.IsKept) : Takes (ρ := ρ) 76 readSnapshot s.json s := by
  have hnodes : Takes (ρ := ρ) 75 (readMap UInt64.size UInt64.ofNat readNode)
      (s.nodes.json UInt64.toNat NodeImage.json) s.nodes := by
    refine SortedMap.takes_json (by decide) UInt64.toNat_lt (fun _ => UInt64.ofNat_toNat)
      fun n node hn => NodeImage.takes_json fun e endpoint he c cluster hc i entry hi => ?_
    exact h ⟨n, e, c, i⟩ entry ((entry?_eq hn he hc).trans hi)
  have hhistory : Takes (ρ := ρ) 75 (fun scope => Json.readArray scope (fun _ => Json.readText))
      (.array (s.history.map .text)) s.history := by
    have hlines : List.Forall₂ (Takes (ρ := ρ) 0 (fun _ => Json.readText))
        (s.history.map .text) s.history := by
      rw [List.forall₂_map_left_iff]
      exact List.forall₂_same.mpr fun line _ => Json.takes_readText line
    exact (Json.takes_readArray hlines).mono (by decide)
  have htimestamp := (Json.takes_readText (ρ := ρ) s.timestamp).mono (Nat.zero_le 75)
  have hfields : Fills (ρ := ρ) 75 snapshotFields {}
      (("timestamp", .text s.timestamp) ::
        (s.fabric.toList.map (fun f => ("fabricId", Json.ofNat f.toNat)) ++
          (s.vendor.toList.map (fun v => ("vendorId", Json.ofNat v.toNat)) ++
            [("nodes", s.nodes.json UInt64.toNat NodeImage.json),
              ("history", .array (s.history.map .text))])))
      ⟨some s.timestamp, s.fabric.map some, s.vendor.map some, some s.nodes, some s.history⟩ := by
    refine .cons rfl rfl (htimestamp.bind fun _ => rfl) ?_
    refine fills_fabric s.fabric (fills_vendor s.vendor ?_)
    refine .cons rfl rfl (hnodes.bind fun _ => rfl) (.cons rfl rfl (hhistory.bind fun _ => rfl) ?_)
    exact .nil (by simp [snapshotFields])
  simp only [json, List.append_assoc, List.singleton_append]
  refine hfields.takes.bind fun rest => ?_
  have hfabric : (s.fabric.map some).join = s.fabric := by cases s.fabric <;> rfl
  have hvendor : (s.vendor.map some).join = s.vendor := by cases s.vendor <;> rfl
  dsimp only
  rw [hfabric, hvendor]
  rfl

theorem ofText_fileText {s : Snapshot} (h : s.IsKept) : ofText s.fileText = .ok s := by
  have htakes := takes_json (ρ := Empty) h
  have htext : s.fileText.toList = Json.prettyChars 0 s.json := String.toList_ofList
  have hskip := (htakes.starts 0).skipBlanks_append []
  have hread : readSnapshot (ρ := Empty) (.ofText s.fileText.toList) s.fileText.toList =
      .ok (s, []) := by
    rw [htext]
    rw [List.append_nil] at hskip
    refine htakes.reads (by decide : 76 ≤ Json.Scope.deepest) (Nat.le_succ _) Json.endsNumber_nil ?_
    rw [hskip, List.append_nil]
  exact bind_eq_ok_iff.mpr ⟨_, hread, rfl⟩

end Snapshot

theorem Entry.current_of_ofAttribute {a : Attribute} {e : Element}
    (h : (ofAttribute a).element? = some e) : a.current = some e := by
  unfold ofAttribute at h
  cases hreadable : a.readable with
  | false =>
    rw [hreadable] at h
    cases h
  | true =>
    cases hcurrent : a.current with
    | none =>
      rw [hreadable, hcurrent] at h
      cases h
    | some v =>
      rw [hreadable, hcurrent] at h
      exact h

namespace Store

theorem entry?_dump (s : Store) (timestamp : String) (history : List String) (p : AttributePath) :
    Snapshot.entry? (s.dump timestamp history) p = (s.attribute? p).map Entry.ofAttribute := by
  unfold Snapshot.entry? attribute? cluster? endpoint? dump
  rw [SortedMap.get?_mapValues]
  cases s.nodes.get? p.node with
  | none => rfl
  | some node =>
    simp only [Option.map_some, Option.bind_eq_bind, Option.bind_some, Node.image,
      SortedMap.get?_mapValues]
    cases node.endpoints.get? p.endpoint with
    | none => rfl
    | some endpoint =>
      simp only [Option.map_some, Option.bind_some, Endpoint.image, SortedMap.get?_mapValues]
      cases endpoint.clusters.get? p.cluster with
      | none => rfl
      | some cluster => exact SortedMap.get?_mapValues ..

/-- A dump that is written to a file comes back from it, whatever the ids, the history and the
strings of the store are, where no current value holds a float or nests deeper than an element that
is decoded. The time of capture has to be a time. -/
theorem ofFile_dump (s : Store) {timestamp : String} (history : List String)
    (valid : Timestamp.isValid timestamp = true)
    (kept : ∀ p a e, s.leaf p = .ok a → a.current = some e → e.IsFloatFree ∧ e.nesting ≤ 32) :
    Snapshot.ofFile (.text (s.dump timestamp history).fileText) =
      .ok (s.dump timestamp history) := by
  have hkept : (s.dump timestamp history).IsKept := by
    intro p entry hentry e he
    rw [entry?_dump, Option.map_eq_some_iff] at hentry
    obtain ⟨a, ha, rfl⟩ := hentry
    exact kept p a e (leaf_eq_ok_iff_eq_some.mpr ha) (Entry.current_of_ofAttribute he)
  have hvalid : Timestamp.isValid (s.dump timestamp history).timestamp = true := valid
  simp only [Snapshot.ofFile, Snapshot.ofText_fileText hkept, hvalid, if_true]

/-- An integer that is not negative, bytes beside a text of the same digits, and an attribute that
was never written. -/
theorem ofFile_dump_mixed :
    let v : Element := .struct [.signed .two 5, .signed .one (-3), .bytes [0x0A, 0xFF],
      .text "0aff", .node (.qualified 1 2 3) .list [.null]]
    let s : Store := .of [.setIdentity 7 65521, .addNode 1, .addEndpoint 1 0,
      .addDeviceType 1 0 ⟨22, 1⟩, .addCluster 1 0 6 4, .write ⟨1, 0, 6, 0⟩ v,
      .addAttribute ⟨1, 0, 6, 1⟩]
    let x : Snapshot := s.dump "2024-02-29T23:59:60.5+01:00" ["write 1/0/0x0006/0x0000 \"on\""]
    (x.entry? ⟨1, 0, 6, 0⟩).bind Entry.element? = some v ∧
      Snapshot.ofFile (.text x.fileText) = .ok x := by
  intro v s x
  have hstored : ∀ n ∈ s.nodes.entries, ∀ e ∈ n.2.endpoints.entries, ∀ c ∈ e.2.clusters.entries,
      ∀ a ∈ c.2.attributes.entries, ∀ v ∈ a.2.current,
        (∀ scalar ∈ v.scalars, scalar.kind ≠ .float) ∧ v.nesting ≤ 32 := by
    decide +kernel
  refine ⟨by decide +kernel, ofFile_dump s _ (by decide) fun p a e ha he => ?_⟩
  rw [leaf_eq_ok_iff_eq_some] at ha
  obtain ⟨cluster, hcluster, ha⟩ := Option.bind_eq_some_iff.mp ha
  obtain ⟨endpoint, hendpoint, hcluster⟩ := Option.bind_eq_some_iff.mp hcluster
  obtain ⟨node, hnode, hendpoint⟩ := Option.bind_eq_some_iff.mp hendpoint
  exact hstored _ (SortedMap.mem_of_get? hnode) _ (SortedMap.mem_of_get? hendpoint) _
    (SortedMap.mem_of_get? hcluster) _ (SortedMap.mem_of_get? ha) e he

end Store

end DeviceTrial
