import DeviceTrial.Proofs.Store.Edits
import DeviceTrial.Proofs.Store.WriteLog

/-!
Calls that are carried out in place.

Here a call works its way through a store that it overwrites as it goes, and what it has overwritten
before it fails stays overwritten. A write makes its attribute before it looks at the value, so it
is not obvious that a refusal leaves no trace. It leaves none: only an attribute that was there
before and has a signature refuses a value. Carried out in place, each call ends in the store that
it gives or, where it is refused, in the store that it found.
-/

namespace DeviceTrial

/-- Steps that overwrite a state and may break off. -/
abbrev InPlace (σ α : Type) := EStateM StoreFault σ α

namespace InPlace

variable {σ τ α : Type}

/-- Steps within a part of the state. What they have done to the part stays there when they break
off. -/
def within (part : σ → Except StoreFault τ) (put : σ → τ → σ) (steps : InPlace τ α) :
    InPlace σ α := fun s =>
  match part s with
  | .error fault => .error fault s
  | .ok x =>
    match steps x with
    | .ok a y => .ok a (put s y)
    | .error fault y => .error fault (put s y)

/-- The end of steps that do all of what they are for or nothing. -/
def allOrNothing (s : σ) : Except StoreFault σ → EStateM.Result StoreFault σ Unit
  | .ok t => .ok () t
  | .error fault => .error fault s

/-- The steps do what the function does, and nothing where it refuses. -/
def Performs (steps : InPlace σ Unit) (f : σ → Except StoreFault σ) : Prop :=
  ∀ s, steps s = allOrNothing s (f s)

section

variable {steps : InPlace σ Unit} {f : σ → Except StoreFault σ} {s t : σ} {fault : StoreFault}

theorem Performs.eq_ok_iff (h : steps.Performs f) : steps s = .ok () t ↔ f s = .ok t := by
  rw [h s]
  cases f s with
  | ok u => simp [allOrNothing]
  | error other => simp [allOrNothing]

theorem Performs.eq_error_iff (h : steps.Performs f) :
    steps s = .error fault t ↔ f s = .error fault ∧ t = s := by
  rw [h s]
  cases f s with
  | ok u => simp [allOrNothing]
  | error other => simp [allOrNothing, eq_comm]

end

theorem get_bind (steps : σ → InPlace σ α) (s : σ) : (get >>= steps) s = steps s s := rfl

theorem modify_bind (f : σ → σ) (steps : PUnit → InPlace σ α) (s : σ) :
    (modify f >>= steps) s = steps ⟨⟩ (f s) := rfl

theorem performs_modify (f : σ → σ) : Performs (modify f) fun s => .ok (f s) := fun _ => rfl

/-- Steps that do all or nothing to a part do so to the whole: a part that is put back as it was
changes nothing. -/
theorem Performs.within {steps : InPlace τ Unit} {f : τ → Except StoreFault τ}
    (h : steps.Performs f) {part : σ → Except StoreFault τ} {put : σ → τ → σ}
    {g : σ → Except StoreFault σ}
    (hg : ∀ s, g s = do
      let x ← part s
      let y ← f x
      return put s y)
    (hput : ∀ s x, part s = .ok x → put s x = s) : (within part put steps).Performs g := by
  intro s
  rw [hg s]
  unfold InPlace.within
  cases hx : part s with
  | error fault => rfl
  | ok x =>
    simp only [h x, bind, Except.bind]
    cases f x with
    | ok y => rfl
    | error fault => simp only [allOrNothing, hput s x hx]

/-- An attribute takes a value. Null is noted, and the first other value fixes the signature, before
the value becomes the latest. -/
def takeValue (p : AttributePath) (v : Element) : InPlace Attribute Unit := do
  if v.kind = .null then
    modify fun a => { a with nullable := true }
  else
    match (← get).signature with
    | some expected =>
      unless expected.accepts v do
        throw (.typeMismatch p expected (.ofElement v))
    | none => modify fun a => { a with signature := some (.ofElement v) }
  modify fun a => a.shift v

theorem performs_takeValue (p : AttributePath) (v : Element) :
    (takeValue p v).Performs (Store.written p v) := by
  intro a
  unfold takeValue Store.written Attribute.write
  by_cases hv : v.kind = .null
  · simp only [hv, if_true]
    rfl
  · simp only [hv, if_false]
    obtain ⟨current, previous, readable, signature, nullable⟩ := a
    cases signature with
    | none => rfl
    | some expected =>
      rw [get_bind]
      dsimp only
      cases expected.accepts v with
      | true => rfl
      | false => rfl

def atLeaf (p : AttributePath) (steps : InPlace Attribute α) : InPlace Cluster α :=
  within (fun cluster => match cluster.attributes.get? p.id with
    | some a => .ok a
    | none => .error (.notFound (.leaf p))) (fun cluster a => cluster.put p.id a) steps

/-- Steps within an attribute of a cluster, which is made first where it is absent. -/
def atNewLeaf (p : AttributePath) (steps : InPlace Attribute α) : InPlace Cluster α := do
  modify fun cluster => { cluster with attributes := cluster.attributes.insertNew p.id {} }
  atLeaf p steps

def writeLeaf (p : AttributePath) (v : Element) : InPlace Cluster Unit := do
  atNewLeaf p (takeValue p v)
  match if p.id = revisionAttribute then v.revision? else none with
  | some revision => modify fun cluster => { cluster with revision := revision }
  | none => pure ()

theorem Performs.atLeaf {steps : InPlace Attribute Unit}
    {f : Attribute → Except StoreFault Attribute} (h : steps.Performs f) (p : AttributePath) :
    (atLeaf p steps).Performs fun cluster => do
      return { cluster with
        attributes := ← cluster.attributes.modify p.id (.notFound (.leaf p)) f } := by
  refine h.within (fun cluster => ?_) fun cluster a ha => ?_
  · unfold SortedMap.modify
    cases cluster.attributes.get? p.id with
    | none => rfl
    | some a =>
      simp only [bind, Except.bind, Except.map]
      cases f a with
      | ok b => rfl
      | error fault => rfl
  · cases hget : cluster.attributes.get? p.id with
    | none =>
      rw [hget] at ha
      cases ha
    | some b =>
      rw [hget] at ha
      cases ha
      rw [Cluster.put, SortedMap.insert_of_get? hget]

/-- An attribute that was made for the steps is not left behind as long as no new attribute makes
them break off. -/
theorem Performs.atNewLeaf {steps : InPlace Attribute Unit}
    {f : Attribute → Except StoreFault Attribute} (h : steps.Performs f)
    (hnew : ∀ fault, f {} ≠ .error fault) (p : AttributePath) :
    (atNewLeaf p steps).Performs (Cluster.edit p.id none f) := by
  intro cluster
  have hfound : (cluster.attributes.insertNew p.id {}).get? p.id =
      some ((cluster.attributes.get? p.id).getD {}) := by
    rw [SortedMap.insertNew_eq_insert, SortedMap.get?_insert_self]
  rw [InPlace.atNewLeaf, modify_bind]
  unfold InPlace.atLeaf InPlace.within Cluster.edit Cluster.put
  simp only [bind, hfound, h _, Except.bind]
  cases hf : f ((cluster.attributes.get? p.id).getD {}) with
  | ok a =>
    simp only [allOrNothing, SortedMap.insertNew_eq_insert, SortedMap.insert_insert]
    rfl
  | error fault =>
    -- What refuses is not new, so nothing was made.
    have hold : cluster.attributes.get? p.id =
        some ((cluster.attributes.get? p.id).getD {}) := by
      cases hget : cluster.attributes.get? p.id with
      | some a => rfl
      | none =>
        rw [hget] at hf
        exact (hnew fault hf).elim
    simp only [allOrNothing, SortedMap.insertNew_eq_insert, SortedMap.insert_of_get? hold]

theorem performs_writeLeaf (p : AttributePath) (v : Element) :
    (writeLeaf p v).Performs (·.write p v) := by
  have hnew (fault : StoreFault) : Store.written p v {} ≠ .error fault := by
    unfold Store.written
    rw [Attribute.write_new]
    simp
  intro cluster
  have h := (performs_takeValue p v).atNewLeaf hnew p cluster
  unfold writeLeaf
  simp only [bind, EStateM.bind, h]
  unfold Cluster.edit Store.written Cluster.write
  cases ((cluster.attributes.get? p.id).getD {}).write v with
  | error expected => rfl
  | ok a =>
    cases (if p.id = revisionAttribute then v.revision? else none) with
    | none => rfl
    | some revision => rfl

def atNode (n : NodeId) : InPlace Node α → InPlace Store α :=
  within (·.node n) (·.putNode n ·)

def atEndpoint (n : NodeId) (e : EndpointId) : InPlace Endpoint α → InPlace Store α :=
  within (·.endpoint n e) (·.putEndpoint n e ·)

def atCluster (n : NodeId) (e : EndpointId) (c : ClusterId) :
    InPlace Cluster α → InPlace Store α :=
  within (·.cluster n e c) (·.putCluster n e c ·)

theorem Performs.atNode {steps : InPlace Node Unit} {f : Node → Except StoreFault Node}
    (h : steps.Performs f) (n : NodeId) : (atNode n steps).Performs (·.modifyNode n f) := by
  refine h.within (fun s => s.modifyNode_eq n f) fun s node hnode => ?_
  exact Store.putNode_of_found (Store.node_eq_ok_iff.mp hnode)

theorem Performs.atEndpoint {steps : InPlace Endpoint Unit}
    {f : Endpoint → Except StoreFault Endpoint} (h : steps.Performs f) (n : NodeId)
    (e : EndpointId) : (atEndpoint n e steps).Performs (·.modifyEndpoint n e f) := by
  refine h.within (fun s => s.modifyEndpoint_eq n e f) fun s endpoint hfound => ?_
  exact Store.putEndpoint_of_found (Store.endpoint_eq_ok_iff_eq_some.mp hfound)

theorem Performs.atCluster {steps : InPlace Cluster Unit}
    {f : Cluster → Except StoreFault Cluster} (h : steps.Performs f) (n : NodeId)
    (e : EndpointId) (c : ClusterId) :
    (atCluster n e c steps).Performs (·.modifyCluster n e c f) := by
  refine h.within (fun s => s.modifyCluster_eq n e c f) fun s cluster hfound => ?_
  exact Store.putCluster_of_found (Store.cluster_eq_ok_iff_eq_some.mp hfound)

end InPlace

open InPlace

/-- A call, carried out in place. An image is restored beside the store, which it then replaces. -/
def StoreCall.steps : StoreCall → InPlace Store Unit
  | .setIdentity fabric vendor => modify (·.setIdentity fabric vendor)
  | .addNode n => modify (·.addNode n)
  | .addEndpoint n e =>
    atNode n (modify fun node => { node with endpoints := node.endpoints.insertNew e .new })
  | .addCluster n e c revision =>
    atEndpoint n e (modify fun endpoint =>
      { endpoint with clusters := endpoint.clusters.insertNew c (.new revision) })
  | .addAttribute p =>
    atCluster p.node p.endpoint p.cluster (modify fun cluster =>
      { cluster with attributes := cluster.attributes.insertNew p.id {} })
  | .addDeviceType n e type =>
    atEndpoint n e (modify fun endpoint =>
      { endpoint with deviceTypes := type.merge endpoint.deviceTypes })
  | .write p v => atCluster p.node p.endpoint p.cluster (writeLeaf p v)
  | .toggle p => atCluster p.node p.endpoint p.cluster (atLeaf p (modify Attribute.toggle))
  | .load x => do
    match Store.load x with
    | .ok t => set t
    | .error fault => throw fault

theorem performs_steps (call : StoreCall) : call.steps.Performs (·.apply call) := by
  cases call with
  | setIdentity fabric vendor => exact performs_modify _
  | addNode n => exact performs_modify _
  | addEndpoint n e => exact (performs_modify _).atNode n
  | addCluster n e c revision => exact (performs_modify _).atEndpoint n e
  | addAttribute p => exact (performs_modify _).atCluster p.node p.endpoint p.cluster
  | addDeviceType n e type => exact (performs_modify _).atEndpoint n e
  | write p v => exact (performs_writeLeaf p v).atCluster p.node p.endpoint p.cluster
  | toggle p =>
    intro s
    beta_reduce
    rw [Store.apply_toggle]
    exact ((performs_modify Attribute.toggle).atLeaf p).atCluster p.node p.endpoint p.cluster s
  | load x =>
    intro s
    change (match Store.load x with
      | .ok t => set t
      | .error fault => throw fault : InPlace Store Unit) s = allOrNothing s (Store.load x)
    cases Store.load x with
    | ok t => rfl
    | error fault => rfl

namespace Store

variable {s t : Store} {p : AttributePath} {v : Element} {fault : StoreFault}

/-- Only an attribute that was there before refuses a value, and only by its signature. -/
theorem write_eq_error_iff : s.write p v = .error fault ↔
    s.cluster p.node p.endpoint p.cluster = .error fault ∨
      ∃ a expected, s.leaf p = .ok a ∧ a.signature = some expected ∧ v.kind ≠ .null ∧
        expected.accepts v = false ∧ fault = .typeMismatch p expected (.ofElement v) := by
  cases hc : s.cluster p.node p.endpoint p.cluster with
  | error missing =>
    have hleaf (a : Attribute) : s.leaf p ≠ .ok a := by
      intro h
      obtain ⟨cluster, hcluster, -⟩ := leaf_eq_ok_iff.mp h
      rw [hc] at hcluster
      cases hcluster
    rw [write, modifyCluster_of_error hc]
    simp [hleaf]
  | ok cluster =>
    rw [cluster_eq_ok_iff_eq_some] at hc
    simp only [reduceCtorEq, false_or, leaf_eq_ok_iff_eq_some]
    cases hwrite : ((s.attribute? p).getD {}).write v with
    | ok a =>
      rw [write_eq_ok_iff.mpr ⟨cluster, a, hc, hwrite, rfl⟩]
      refine iff_of_false (by simp) ?_
      rintro ⟨b, expected, hb, hsignature, hv, hrefused, -⟩
      have hrefusal : b.write v = .error expected :=
        Attribute.write_eq_error_iff.mpr ⟨hsignature, hv, hrefused⟩
      rw [hb, Option.getD_some, hrefusal] at hwrite
      cases hwrite
    | error expected =>
      rw [write_eq_error hc hwrite]
      obtain ⟨hsignature, hv, hrefused⟩ := Attribute.write_eq_error_iff.mp hwrite
      constructor
      · intro h
        cases h
        cases ha : s.attribute? p with
        | none =>
          -- A new attribute has no signature.
          rw [ha] at hsignature
          cases hsignature
        | some a =>
          rw [ha] at hsignature
          exact ⟨a, expected, rfl, hsignature, hv, hrefused, rfl⟩
      · rintro ⟨a, _, ha, ha', -, -, rfl⟩
        rw [ha, Option.getD_some, ha'] at hsignature
        cases hsignature
        rfl

/-- Carried out in place, a call that is accepted ends in the store that it gives, and one that is
refused ends, whatever it is, in the store that it found. -/
theorem steps_all_or_nothing (call : StoreCall) (s t : Store) (fault : StoreFault) :
    (call.steps s = .ok () t ↔ s.apply call = .ok t) ∧
    (call.steps s = .error fault t ↔ s.apply call = .error fault ∧ t = s) ∧
    (∀ p v, (StoreCall.write p v).steps s = .error fault t ↔
      t = s ∧ (s.cluster p.node p.endpoint p.cluster = .error fault ∨
        ∃ a expected, s.leaf p = .ok a ∧ a.signature = some expected ∧ v.kind ≠ .null ∧
          expected.accepts v = false ∧ fault = .typeMismatch p expected (.ofElement v))) := by
  refine ⟨(performs_steps call).eq_ok_iff, (performs_steps call).eq_error_iff, fun p v => ?_⟩
  rw [(performs_steps _).eq_error_iff, and_comm]
  exact and_congr_right fun _ => write_eq_error_iff

/-- The revision attribute holds a number and refuses a Boolean. -/
example :
    let p : AttributePath := ⟨1, 0, 6, revisionAttribute⟩
    let s := Store.of
      [.addNode 1, .addEndpoint 1 0, .addCluster 1 0 6 4, .write p (.unsigned .one 2)]
    (StoreCall.write p (.bool true)).steps s =
      .error (.typeMismatch p ⟨.unsigned, 1⟩ (.ofElement (.bool true))) s :=
  (performs_steps _).eq_error_iff.mpr ⟨rfl, rfl⟩

end Store

end DeviceTrial
