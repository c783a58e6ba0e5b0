import DeviceTrial.Proofs.Snapshot.Restore
import DeviceTrial.Proofs.Store.Calls

namespace DeviceTrial

def Element.integer? : Element → Option Int
  | .leaf _ (.signed _ v) => some v.toInt
  | .leaf _ (.unsigned _ v) => some v.toNat
  | _ => none

/-- An integer tells the revision that it is equal to, if there is one. -/
def Element.toldRevision? (v : Element) : Option UInt16 :=
  v.integer?.bind fun k => if 0 ≤ k ∧ k ≤ 65535 then some (UInt16.ofNat k.toNat) else none

theorem Element.natural?_eq (v : Element) : v.natural? = v.integer?.bind Int.toNat? := by
  cases v with
  | node => rfl
  | leaf tag scalar => cases scalar <;> rfl

theorem Element.revision?_eq (v : Element) : v.revision? = v.toldRevision? := by
  have hrange (k : Int) : (k.toNat?.filter (· < UInt16.size)).map UInt16.ofNat =
      if 0 ≤ k ∧ k ≤ 65535 then some (UInt16.ofNat k.toNat) else none := by
    cases k with
    | ofNat k =>
      have hsize : decide (k < UInt16.size) = decide (k ≤ 65535) :=
        decide_eq_decide.mpr Nat.lt_succ_iff
      by_cases hk : k ≤ 65535
      · have hk' : (k : Int) ≤ 65535 := by omega
        simp [Int.toNat?, Option.filter, hsize, hk, hk']
      · have hk' : ¬(k : Int) ≤ 65535 := by omega
        simp [Int.toNat?, Option.filter, hsize, hk, hk']
    | negSucc k => simp [Int.toNat?]
  rw [Element.revision?, natural?_eq, toldRevision?]
  cases v.integer? with
  | none => rfl
  | some k => exact hrange k

namespace StoreCall

variable (n : NodeId) (e : EndpointId) (c : ClusterId)

def told? : StoreCall → Option UInt16
  | .write p v => if p = ⟨n, e, c, revisionAttribute⟩ then v.toldRevision? else none
  | _ => none

/-- The revision that a call adds a cluster with. -/
def given? : StoreCall → Option UInt16
  | .addCluster m f d revision => if m = n ∧ f = e ∧ d = c then some revision else none
  | _ => none

end StoreCall

namespace Store

variable {s t : Store} {n m : NodeId} {e f : EndpointId} {c d : ClusterId}

def revision? (s : Store) (n : NodeId) (e : EndpointId) (c : ClusterId) : Option UInt16 :=
  (s.cluster? n e c).map (·.revision)

theorem revision_eq_ok_iff {r : UInt16} :
    s.revision n e c = .ok r ↔ s.revision? n e c = some r := by
  rw [revision, bind_eq_ok_iff, revision?, Option.map_eq_some_iff]
  refine exists_congr fun cluster => and_congr cluster_eq_ok_iff_eq_some ?_
  simp [pure, Except.pure]

theorem revision?_congr (h : ∀ m f d, t.cluster? m f d = s.cluster? m f d) :
    t.revision? n e c = s.revision? n e c := by
  rw [revision?, h]
  rfl

theorem revision?_putCluster (s : Store) (n m : NodeId) (e f : EndpointId) (c d : ClusterId)
    (cluster : Cluster) : (s.putCluster m f d cluster).revision? n e c =
      if m = n ∧ f = e ∧ d = c then some cluster.revision else s.revision? n e c := by
  have hplace : (n = m ∧ e = f ∧ c = d) ↔ (m = n ∧ f = e ∧ d = c) := by
    rw [eq_comm, @eq_comm _ e, @eq_comm _ c]
  rw [revision?, cluster?_putCluster]
  simp only [hplace]
  split
  · rfl
  · rfl

theorem revision?_putCluster_put {cluster : Cluster} (h : s.cluster? m f d = some cluster)
    (i : AttributeId) (a : Attribute) :
    (s.putCluster m f d (cluster.put i a)).revision? n e c = s.revision? n e c := by
  rw [revision?_putCluster]
  split
  · next hplace =>
    obtain ⟨rfl, rfl, rfl⟩ := hplace
    rw [revision?, h]
    rfl
  · rfl

theorem revision?_apply {call : StoreCall} (hload : call.isLoad = false)
    (h : s.apply call = .ok t) : t.revision? n e c =
      (call.told? n e c).or ((s.revision? n e c).or (call.given? n e c)) := by
  cases call with
  | setIdentity fabric vendor =>
    cases h
    exact (Option.or_none).symm
  | addNode m =>
    cases h
    exact (revision?_congr (s.cluster?_addNode m)).trans (Option.or_none).symm
  | addEndpoint m f =>
    exact (revision?_congr (cluster?_addEndpoint h)).trans (Option.or_none).symm
  | addDeviceType m f type =>
    exact (revision?_congr (cluster?_addDeviceType h)).trans (Option.or_none).symm
  | addCluster m f d revision =>
    obtain ⟨-, rfl⟩ := addCluster_eq_ok_iff.mp h
    rw [revision?_putCluster, StoreCall.given?]
    split
    · next hplace =>
      obtain ⟨rfl, rfl, rfl⟩ := hplace
      rw [revision?]
      cases s.cluster? m f d <;> rfl
    · exact (Option.or_none).symm
  | addAttribute p =>
    obtain ⟨cluster, hc, rfl⟩ := addAttribute_eq_ok_iff.mp h
    exact (revision?_putCluster_put hc _ _).trans (Option.or_none).symm
  | toggle p =>
    obtain ⟨opened, htoggle⟩ := toggle_of_apply h
    obtain ⟨cluster, a, hc, -, rfl⟩ := toggle_eq_ok htoggle
    exact (revision?_putCluster_put hc _ _).trans (Option.or_none).symm
  | write p v =>
    obtain ⟨cluster, a, hc, -, rfl⟩ := write_eq_ok_iff.mp h
    obtain ⟨m, f, d, i⟩ := p
    simp only [revision?_putCluster, StoreCall.told?, StoreCall.given?, Option.or_none,
      Element.revision?_eq, AttributePath.mk.injEq]
    by_cases hplace : m = n ∧ f = e ∧ d = c
    · obtain ⟨rfl, rfl, rfl⟩ := hplace
      rw [revision?, hc]
      by_cases hi : i = revisionAttribute
      · simp only [hi]
        cases v.toldRevision? <;> rfl
      · simp [hi]
    · rw [if_neg hplace, if_neg fun h => hplace ⟨h.1, h.2.1, h.2.2.1⟩]
      rfl
  | load x => cases hload

end Store

/-- The image that was loaded last, if one was, and the calls since. -/
structure Era where
  image : Option Snapshot := none
  calls : List StoreCall := []

namespace Era

def next (era : Era) : StoreCall → Era
  | .load x => ⟨some x, []⟩
  | call => { era with calls := era.calls ++ [call] }

def of (calls : List StoreCall) : Era := calls.foldl next {}

variable {era : Era} (n : NodeId) (e : EndpointId) (c : ClusterId)

/-- The revision of a cluster by the calls of an era: the one that was told last, else the one in
the image, else the one that was given first. -/
def revision? (era : Era) : Option UInt16 :=
  (era.calls.filterMap (StoreCall.told? n e c)).getLast?.or
    (((era.image.bind (·.cluster? n e c)).map (·.revision)).or
      (era.calls.filterMap (StoreCall.given? n e c)).head?)

theorem next_of_not_load {call : StoreCall} (h : call.isLoad = false) :
    era.next call = { era with calls := era.calls ++ [call] } := by
  cases call with
  | load x => cases h
  | _ => rfl

theorem revision?_next {call : StoreCall} (h : call.isLoad = false) :
    (era.next call).revision? n e c =
      (call.told? n e c).or ((era.revision? n e c).or (call.given? n e c)) := by
  have hgiven : ((era.calls ++ [call]).filterMap (StoreCall.given? n e c)).head? =
      (era.calls.filterMap (StoreCall.given? n e c)).head?.or (call.given? n e c) := by
    rw [List.filterMap_append, List.head?_append]
    cases hgiven : call.given? n e c <;> simp [hgiven]
  rw [next_of_not_load h]
  unfold revision?
  rw [getLast?_filterMap_concat, hgiven]
  simp only [Option.or_assoc]

end Era

namespace Store

variable {n : NodeId} {e : EndpointId} {c : ClusterId}

theorem revision?_of (calls : List StoreCall) (n : NodeId) (e : EndpointId) (c : ClusterId) :
    (of calls).revision? n e c = (Era.of (accepted calls)).revision? n e c := by
  refine run_induction (fun past s => s.revision? n e c = (Era.of past).revision? n e c) rfl
    (fun past s call t ih happly => ?_) calls
  have hera : Era.of (past ++ [call]) = (Era.of past).next call := List.foldl_append ..
  rw [hera]
  cases hload : call.isLoad with
  | false => rw [revision?_apply hload happly, Era.revision?_next n e c hload, ih]
  -- what is loaded starts a new era, in which nothing has been told
  | true =>
    cases call with
    | load x =>
      cases (load_eq_toStore x).symm.trans happly
      change ((x.toStore.cluster? n e c).map _) = (none : Option UInt16).or
        (((x.cluster? n e c).map _).or none)
      rw [cluster?_toStore, Option.none_or, Option.or_none, Option.map_map]
      rfl
    | _ => cases hload

/-- Neither a call that tells no revision changes one, nor a call that is refused. -/
theorem revision?_after {s : Store} {call : StoreCall} {r : UInt16} (hload : call.isLoad = false)
    (hsilent : call.told? n e c = none ∨ ∃ fault, s.apply call = .error fault)
    (h : s.revision? n e c = some r) : (s.after call).revision? n e c = some r := by
  rw [after]
  split
  · next t happly =>
    obtain htold | ⟨fault, hrefused⟩ := hsilent
    · rw [revision?_apply hload happly, htold, h]
      rfl
    · rw [happly] at hrefused
      cases hrefused
  · exact h

/-- A cluster has the revision that its revision attribute was last told, else the one it was loaded
with, else the one it was first added with. Nothing else changes it. -/
theorem revision_eq_last_told (calls : List StoreCall) (n : NodeId) (e : EndpointId)
    (c : ClusterId) (r : UInt16) :
    ((of calls).revision n e c = .ok r ↔
      (Era.of (accepted calls)).revision? n e c = some r) ∧
    ∀ call : StoreCall, call.isLoad = false →
      (call.told? n e c = none ∨ ∃ fault, (of calls).apply call = .error fault) →
      (of calls).revision n e c = .ok r → (of (calls ++ [call])).revision n e c = .ok r := by
  refine ⟨?_, fun call hload hsilent h => ?_⟩
  · rw [revision_eq_ok_iff, revision?_of]
  · rw [revision_eq_ok_iff] at h ⊢
    rw [of_concat]
    exact revision?_after hload hsilent h

/-- The image records a revision and holds another as a value. A number that is too large is
accepted and tells none, and a Boolean is refused. -/
theorem revision_eq_last_told_loaded :
    let p : AttributePath := ⟨1, 0, 6, revisionAttribute⟩
    let x : Snapshot := ⟨"", none, none, .ofList [(1, ⟨.ofList [(0, ⟨[], .ofList [(6,
      ⟨4, .ofList [(revisionAttribute, .ofElement (.unsigned .four 9))]⟩)]⟩)]⟩)], []⟩
    let calls : List StoreCall := [.addNode 1, .addEndpoint 1 0, .addCluster 1 0 6 1,
      .write p (.unsigned .one 2), .load x]
    (of calls).revision 1 0 6 = .ok 4 ∧
      (of (calls ++ [.write p (.unsigned .four 65536)])).revision 1 0 6 = .ok 4 ∧
      (of (calls ++ [.write p (.bool true)])).revision 1 0 6 = .ok 4 := by
  intro p x calls
  have h := revision_eq_last_told calls 1 0 6 4
  have hloaded : (of calls).revision 1 0 6 = .ok 4 := h.1.mpr rfl
  exact ⟨hloaded, h.2 _ rfl (.inl rfl) hloaded, h.2 _ rfl (.inr ⟨_, rfl⟩) hloaded⟩

end Store

end DeviceTrial
