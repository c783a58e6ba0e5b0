import DeviceTrial.Proofs.Round.Steps
import DeviceTrial.Proofs.Round.Trace

namespace DeviceTrial

open Trace

/-- The round stands where a new one stands after the updates. -/
structure Round.Follows (r : Round) (us : List RoundUpdate) : Prop where
  status : r.status = .ofTrace us
  path : r.path = latestPath us
  changed : r.changed.isEmpty = !us.any (·.reports)

theorem Round.follows_new (id : Nat) (signal : Signal) : (Round.new id signal).Follows [] :=
  ⟨rfl, rfl, rfl⟩

namespace Round.Follows

variable {r : Round} {us : List RoundUpdate} (h : r.Follows us) (u : RoundUpdate)
include h

theorem path_update : (r.update u).path = latestPath (us ++ [u]) := by
  rw [Round.path_update, h.path, latestPath_concat]

theorem changed_update : (r.update u).changed.isEmpty = !(us ++ [u]).any (·.reports) := by
  rw [Round.isEmpty_changed_update, h.changed]
  simp

theorem isCommand_record : (r.record u).isCommand = Trace.isCommand (us ++ [u]) := by
  have hpath : (r.record u).path = latestPath (us ++ [u]) := h.path_update u
  rw [Round.isCommand, hpath, Trace.isCommand]

theorem status_update_of_isEmpty (hopen : (opened us).isEmpty = true) :
    (r.update u).status = .ofTrace (us ++ [u]) := by
  have hstatus : (r.record u).status = .uninitialized := by
    rw [Round.record_status, h.status, RoundStatus.ofTrace_of_isEmpty hopen]
  have hcommand := h.isCommand_record u
  have hnext := opened_concat_of_isEmpty us u hopen
  change (r.record u).next u = _
  cases u with
  | target | destination =>
    rw [RoundStatus.ofTrace_of_not_isAnswered (by rw [hnext]; simp [RoundUpdate.opens])
      (by rw [isAnswered, hnext]; rfl), ← hcommand]
    simp [Round.next, hstatus]
  | response | changed | flags =>
    rw [RoundStatus.ofTrace_of_isEmpty (by rw [hnext]; rfl)]
    simp [Round.next, hstatus, RoundStatus.isRequest, RoundStatus.isResponse]

theorem status_update_of_not_isAnswered (hopen : ¬ (opened us).isEmpty = true)
    (hanswer : isAnswered us = false) : (r.update u).status = .ofTrace (us ++ [u]) := by
  have hstatus : (r.record u).status = .request (Trace.isCommand us) := by
    rw [Round.record_status, h.status, RoundStatus.ofTrace_of_not_isAnswered hopen hanswer]
  have hcommand := h.isCommand_record u
  have hchanged : (r.record u).changed.isEmpty = _ := h.changed_update u
  have hnext := isAnswered_concat_of_not_isEmpty us u hopen
  have hopen' : ¬ (opened (us ++ [u])).isEmpty = true := by
    rw [opened_concat_of_not_isEmpty us u hopen]
    simp
  rw [hanswer, Bool.false_or] at hnext
  change (r.record u).next u = _
  cases u with
  | target | destination =>
    rw [RoundStatus.ofTrace_of_not_isAnswered hopen' hnext, ← hcommand]
    simp [Round.next, hstatus]
  | response status =>
    rw [RoundStatus.ofTrace_of_isAnswered hopen' hnext,
      unanswered_concat_of_answers us _ hopen (by simp [hanswer]) rfl]
    simp only [Round.next, hstatus, RoundStatus.isRequest_request, if_true, hcommand,
      isCommand_concat us (.response status) rfl]
    rw [hchanged]
    cases (us ++ [RoundUpdate.response status]).any (·.reports) <;> rfl
  | changed | flags =>
    rw [RoundStatus.ofTrace_of_not_isAnswered hopen' hnext, isCommand_concat us _ rfl]
    simp [Round.next, hstatus]

theorem status_update_of_isAnswered (hopen : ¬ (opened us).isEmpty = true)
    (hanswer : isAnswered us = true) : (r.update u).status = .ofTrace (us ++ [u]) := by
  have hstatus : (r.record u).status =
      if us.any (·.reports) then .reported else .response (Trace.isCommand (unanswered us)) := by
    rw [Round.record_status, h.status, RoundStatus.ofTrace_of_isAnswered hopen hanswer]
  have hchanged : (r.record u).changed.isEmpty = _ := h.changed_update u
  have hopen' : ¬ (opened (us ++ [u])).isEmpty = true := by
    rw [opened_concat_of_not_isEmpty us u hopen]
    simp
  have hnext : isAnswered (us ++ [u]) = true := by
    rw [isAnswered_concat_of_not_isEmpty us u hopen, hanswer, Bool.true_or]
  rw [RoundStatus.ofTrace_of_isAnswered hopen' hnext, unanswered_concat_of_isAnswered us u hanswer]
  change (r.record u).next u = _
  -- a reported round stays reported; only a report moves one that is answered
  cases hreport : us.any (·.reports) with
  | true =>
    have hnow : (us ++ [u]).any (·.reports) = true := by simp [hreport]
    rw [hreport, if_pos rfl] at hstatus
    rw [hnow, if_pos rfl]
    cases u <;> simp [Round.next, hstatus, RoundStatus.isRequest, RoundStatus.isResponse]
  | false =>
    have hnow : (us ++ [u]).any (·.reports) = u.reports := by
      rw [List.any_append, hreport]
      simp
    rw [hreport, if_neg (by decide)] at hstatus
    rw [hnow] at hchanged ⊢
    cases u with
    | target | destination | response | flags =>
      simp [Round.next, hstatus, RoundUpdate.reports]
    | changed paths =>
      simp only [Round.next, hstatus, RoundStatus.isResponse_response, hchanged, true_and]
      cases (RoundUpdate.changed paths).reports <;> rfl

theorem update : (r.update u).Follows (us ++ [u]) := by
  refine ⟨?_, h.path_update u, h.changed_update u⟩
  -- how an update moves the status depends on how far the trace has come
  by_cases hopen : (opened us).isEmpty = true
  · exact h.status_update_of_isEmpty u hopen
  · cases hanswer : isAnswered us with
    | false => exact h.status_update_of_not_isAnswered u hopen hanswer
    | true => exact h.status_update_of_isAnswered u hopen hanswer

end Round.Follows

theorem Round.Follows.foldl {r : Round} {us : List RoundUpdate} (h : r.Follows us)
    (vs : List RoundUpdate) : (vs.foldl Round.update r).Follows (us ++ vs) := by
  induction vs generalizing r us with
  | nil => rwa [List.append_nil]
  | cons v vs ih =>
    have hnext := ih (h.update v)
    rwa [List.append_assoc] at hnext

namespace Round.Follows

variable {r : Round} {us : List RoundUpdate} (h : r.Follows us)
include h

theorem isEmpty_changed_of_isResponse (hresponse : r.status.isResponse = true) :
    r.changed.isEmpty = true := by
  have hstatus := h.status
  rw [h.changed]
  cases hreport : us.any (·.reports) with
  | false => rfl
  | true =>
    rw [hstatus, RoundStatus.ofTrace, hreport] at hresponse
    split at hresponse
    · cases hresponse
    · split at hresponse
      · rw [RoundStatus.isResponse_request] at hresponse
        cases hresponse
      · cases hresponse

theorem isEmpty_changed_of_reported (hreported : r.status = .reported) :
    r.changed.isEmpty = false := by
  have hstatus := h.status
  rw [h.changed]
  cases hreport : us.any (·.reports) with
  | true => rfl
  | false =>
    have hstage : (RoundStatus.ofTrace us).stage = 3 := by rw [← hstatus, hreported]; rfl
    rw [RoundStatus.ofTrace, hreport] at hstage
    split at hstage
    · cases hstage
    · split at hstage
      · rw [RoundStatus.stage_request] at hstage
        cases hstage
      · rw [if_neg (by decide), RoundStatus.stage_response] at hstage
        cases hstage

end Round.Follows

end DeviceTrial
