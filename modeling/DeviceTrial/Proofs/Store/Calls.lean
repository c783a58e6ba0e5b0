import DeviceTrial.Proofs.History
import DeviceTrial.Proofs.Store.Operations
import DeviceTrial.Snapshot.Image
import Mathlib.Data.List.Induction

namespace DeviceTrial

/-- A call that may change a store. Loading replaces the store by one that an image describes. -/
inductive StoreCall where
  | setIdentity (fabric : FabricId) (vendor : VendorId)
  | addNode (n : NodeId)
  | addEndpoint (n : NodeId) (e : EndpointId)
  | addCluster (n : NodeId) (e : EndpointId) (c : ClusterId) (revision : UInt16)
  | addAttribute (p : AttributePath)
  | addDeviceType (n : NodeId) (e : EndpointId) (type : DeviceType)
  | write (p : AttributePath) (v : Element)
  | toggle (p : AttributePath)
  | load (x : Snapshot)

def StoreCall.isLoad : StoreCall → Bool
  | .load _ => true
  | _ => false

def StoreCall.concerns (p : AttributePath) : StoreCall → Bool
  | .addAttribute q | .write q _ | .toggle q => q == p
  | .load _ => true
  | _ => false

namespace Store

def apply (s : Store) : StoreCall → Except StoreFault Store
  | .setIdentity fabric vendor => .ok (s.setIdentity fabric vendor)
  | .addNode n => .ok (s.addNode n)
  | .addEndpoint n e => s.addEndpoint n e
  | .addCluster n e c revision => s.addCluster n e c revision
  | .addAttribute p => s.addAttribute p
  | .addDeviceType n e type => s.addDeviceType n e type
  | .write p v => s.write p v
  | .toggle p => do return (← s.toggle p).2
  | .load x => load x

def after (s : Store) (call : StoreCall) : Store :=
  match s.apply call with
  | .ok t => t
  | .error _ => s

def of (calls : List StoreCall) : Store := calls.foldl after .empty

/-- The calls of a run that were accepted. -/
def accepted (calls : List StoreCall) : List StoreCall :=
  transcript (fun past call => (((of past).apply call).toOption).map fun _ => call) calls

theorem of_concat (calls : List StoreCall) (call : StoreCall) :
    of (calls ++ [call]) = (of calls).after call :=
  List.foldl_append ..

theorem mem_of_mem_accepted {calls : List StoreCall} {call : StoreCall}
    (h : call ∈ accepted calls) : call ∈ calls := by
  induction calls using List.reverseRecOn with
  | nil => cases h
  | append_singleton calls last ih =>
    rw [accepted, transcript_concat, List.mem_append] at h
    rw [List.mem_append, List.mem_singleton]
    refine h.imp ih fun hlast => ?_
    obtain ⟨_, -, rfl⟩ := Option.map_eq_some_iff.mp (Option.mem_toList.mp hlast)
    rfl

/-- What holds at the start and is preserved by every accepted call holds after every run. -/
theorem run_induction (holds : List StoreCall → Store → Prop) (hempty : holds [] .empty)
    (hstep : ∀ past s call t, holds past s → s.apply call = .ok t → holds (past ++ [call]) t)
    (calls : List StoreCall) : holds (accepted calls) (of calls) := by
  induction calls using List.reverseRecOn with
  | nil => exact hempty
  | append_singleton calls call ih =>
    rw [accepted, transcript_concat, of_concat, after]
    cases happly : (of calls).apply call with
    | error fault =>
      have hsame : accepted calls ++ [] = accepted calls := List.append_nil _
      exact hsame ▸ ih
    | ok t => exact hstep _ _ _ _ ih happly

theorem toggle_of_apply {s t : Store} {p : AttributePath} (h : s.apply (.toggle p) = .ok t) :
    ∃ opened, s.toggle p = .ok (opened, t) := by
  obtain ⟨⟨opened, _⟩, htoggle, hreturn⟩ := bind_eq_ok_iff.mp h
  cases hreturn
  exact ⟨opened, htoggle⟩

theorem apply_toggle (s : Store) (p : AttributePath) :
    s.apply (.toggle p) = s.modifyLeaf p fun a => .ok a.toggle := by
  change (do return (← s.toggle p).2) = _
  unfold toggle
  cases hleaf : s.leaf p with
  | error fault => exact (modifyLeaf_of_error hleaf _).symm
  | ok a =>
    simp only [bind, Except.bind]
    cases s.modifyLeaf p fun a => .ok a.toggle with
    | error fault => rfl
    | ok t => rfl

theorem attribute?_apply {s t : Store} {call : StoreCall} {p : AttributePath}
    (h : s.apply call = .ok t) (hp : call.concerns p = false) :
    t.attribute? p = s.attribute? p := by
  cases call with
  | setIdentity fabric vendor =>
    cases h
    rfl
  | addNode n =>
    cases h
    exact attribute?_addNode s n
  | addEndpoint n e => exact attribute?_addEndpoint h
  | addCluster n e c revision => exact attribute?_addCluster h
  | addDeviceType n e type => exact attribute?_addDeviceType h
  | addAttribute q =>
    have hq : p ≠ q := fun hq => beq_eq_false_iff_ne.mp hp hq.symm
    rw [attribute?_addAttribute h, if_neg hq]
  | write q v =>
    have hq : p ≠ q := fun hq => beq_eq_false_iff_ne.mp hp hq.symm
    obtain ⟨a, -, hshown⟩ := attribute?_write (q := p) h
    rw [hshown, if_neg hq]
  | toggle q =>
    have hq : p ≠ q := fun hq => beq_eq_false_iff_ne.mp hp hq.symm
    obtain ⟨opened, htoggle⟩ := toggle_of_apply h
    obtain ⟨a, -, hshown⟩ := attribute?_toggle (q := p) htoggle
    rw [hshown, if_neg hq]
  | load x => cases hp

end Store

end DeviceTrial
