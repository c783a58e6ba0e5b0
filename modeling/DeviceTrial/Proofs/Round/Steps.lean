import DeviceTrial.Proofs.SortedMap
import DeviceTrial.Round.Life

namespace DeviceTrial

namespace RoundUpdate

/-- The update makes a new round a request. -/
def opens : RoundUpdate → Bool
  | target .. | destination .. => true
  | _ => false

def answers : RoundUpdate → Bool
  | response _ => true
  | _ => false

def reports : RoundUpdate → Bool
  | changed paths => !paths.isEmpty
  | _ => false

def path? : RoundUpdate → Option CommandPath
  | target _ path _ => some path
  | _ => none

end RoundUpdate

namespace RoundStatus

@[simp] theorem isRequest_request (b : Bool) : (request b).isRequest = true := by
  cases b <;> rfl

@[simp] theorem isResponse_request (b : Bool) : (request b).isResponse = false := by
  cases b <;> rfl

@[simp] theorem isRequest_response (b : Bool) : (response b).isRequest = false := by
  cases b <;> rfl

@[simp] theorem isResponse_response (b : Bool) : (response b).isResponse = true := by
  cases b <;> rfl

@[simp] theorem response_ne_uninitialized (b : Bool) : response b ≠ .uninitialized := by
  cases b <;> decide

theorem request_ne_terminated (b : Bool) : request b ≠ .terminated := by
  cases b <;> decide

theorem response_ne_terminated (b : Bool) : response b ≠ .terminated := by
  cases b <;> decide

def stage : RoundStatus → Nat
  | uninitialized => 0
  | writeRequest | invokeRequest => 1
  | writeResponse | invokeResponse => 2
  | reported => 3
  | terminated => 4

@[simp] theorem stage_request (b : Bool) : (request b).stage = 1 := by
  cases b <;> rfl

@[simp] theorem stage_response (b : Bool) : (response b).stage = 2 := by
  cases b <;> rfl

theorem stage_of_isRequest {s : RoundStatus} (h : s.isRequest = true) : s.stage = 1 := by
  cases s <;> first | rfl | cases h

theorem stage_of_isResponse {s : RoundStatus} (h : s.isResponse = true) : s.stage = 2 := by
  cases s <;> first | rfl | cases h

end RoundStatus

theorem Round.path_update (r : Round) (u : RoundUpdate) :
    (r.update u).path = u.path?.or r.path := by
  cases u <;> rfl

theorem Round.isEmpty_changed_update (r : Round) (u : RoundUpdate) :
    (r.update u).changed.isEmpty = (r.changed.isEmpty && !u.reports) := by
  cases u with
  | changed paths =>
    change (r.changed.union paths).isEmpty = _
    rw [SortedMap.isEmpty_union, RoundUpdate.reports, Bool.not_not]
  | _ => simp [Round.update, Round.record, RoundUpdate.reports]

theorem Round.record_status (r : Round) (u : RoundUpdate) : (r.record u).status = r.status := by
  cases u <;> rfl

theorem Round.status_update_cases (r : Round) (u : RoundUpdate) :
    (r.update u).status = r.status ∨
      (r.status = .uninitialized ∨ r.status.isRequest = true) ∧
        (r.update u).status = .request (r.record u).isCommand ∨
      r.status.isRequest = true ∧ (r.update u).status = .response (r.record u).isCommand ∨
      (r.status.isRequest = true ∨ r.status.isResponse = true) ∧
        (r.update u).status = .reported := by
  -- what is recorded does not touch the status, so the step starts from the old one
  have hrecord : (r.record u).status = r.status := r.record_status u
  have hupdate : (r.update u).status = (r.record u).next u := rfl
  rw [hupdate]
  cases u with
  | target | destination =>
    simp only [Round.next, hrecord]
    split
    · rename_i h
      exact .inr (.inl ⟨h, rfl⟩)
    · exact .inl rfl
  | response =>
    simp only [Round.next, hrecord]
    split
    · rename_i h
      split
      · exact .inr (.inr (.inl ⟨h, rfl⟩))
      · exact .inr (.inr (.inr ⟨.inl h, rfl⟩))
    · exact .inl rfl
  | changed =>
    simp only [Round.next, hrecord]
    split
    · rename_i h
      exact .inr (.inr (.inr ⟨.inr h.1, rfl⟩))
    · exact .inl rfl
  | flags => exact .inl hrecord

theorem Round.update_ne_terminated {r : Round} (h : r.status ≠ .terminated) (u : RoundUpdate) :
    (r.update u).status ≠ .terminated := by
  obtain hsame | ⟨-, hnext⟩ | ⟨-, hnext⟩ | ⟨-, hnext⟩ := r.status_update_cases u
  · rwa [hsame]
  · rw [hnext]
    exact RoundStatus.request_ne_terminated _
  · rw [hnext]
    exact RoundStatus.response_ne_terminated _
  · rw [hnext]
    decide

theorem Round.stage_le_update (r : Round) (u : RoundUpdate) :
    r.status.stage ≤ (r.update u).status.stage := by
  obtain hsame | ⟨hfrom, hnext⟩ | ⟨hfrom, hnext⟩ | ⟨hfrom, hnext⟩ := r.status_update_cases u
  · exact Nat.le_of_eq (congrArg RoundStatus.stage hsame.symm)
  · rw [hnext, RoundStatus.stage_request]
    rcases hfrom with hfrom | hfrom
    · rw [hfrom]
      decide
    · exact Nat.le_of_eq (RoundStatus.stage_of_isRequest hfrom)
  · rw [hnext, RoundStatus.stage_of_isRequest hfrom, RoundStatus.stage_response]
    decide
  · rw [hnext]
    rcases hfrom with hfrom | hfrom
    · rw [RoundStatus.stage_of_isRequest hfrom]
      decide
    · rw [RoundStatus.stage_of_isResponse hfrom]
      decide

theorem Round.stage_le_foldl (r : Round) (us : List RoundUpdate) :
    r.status.stage ≤ (us.foldl Round.update r).status.stage := by
  induction us generalizing r with
  | nil => exact Nat.le_refl _
  | cons u us ih => exact Nat.le_trans (r.stage_le_update u) (ih (r.update u))

theorem Round.id_update (r : Round) (u : RoundUpdate) : (r.update u).id = r.id := by
  cases u <;> rfl

theorem Round.signal_update (r : Round) (u : RoundUpdate) : (r.update u).signal = r.signal := by
  cases u <;> rfl

theorem Round.id_foldl_update (r : Round) (us : List RoundUpdate) :
    (us.foldl Round.update r).id = r.id := by
  induction us generalizing r with
  | nil => rfl
  | cons u us ih => exact (ih (r.update u)).trans (r.id_update u)

theorem Round.signal_foldl_update (r : Round) (us : List RoundUpdate) :
    (us.foldl Round.update r).signal = r.signal := by
  induction us generalizing r with
  | nil => rfl
  | cons u us ih => exact (ih (r.update u)).trans (r.signal_update u)

end DeviceTrial
