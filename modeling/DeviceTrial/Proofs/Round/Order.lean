import DeviceTrial.Proofs.Round.Runs

namespace DeviceTrial

namespace RoundStatus

def respond (s : RoundStatus) (isCommand isQuiet : Bool) : RoundStatus :=
  if s.isRequest then if isQuiet then .response isCommand else .reported else s

def report (s : RoundStatus) (isQuiet : Bool) : RoundStatus :=
  if s.isResponse ∧ !isQuiet then .reported else s

theorem report_respond (s : RoundStatus) (isCommand before added : Bool) :
    (s.respond isCommand before).report (before && added) =
      (s.report (before && added)).respond isCommand (before && added) := by
  cases s <;> cases isCommand <;> cases before <;> cases added <;> rfl

theorem report_report (s : RoundStatus) (before added : Bool) :
    (s.report before).report (before && added) = s.report (before && added) := by
  cases s <;> cases before <;> cases added <;> rfl

end RoundStatus

namespace Round

variable (r : Round)

theorem update_response (status : Status) :
    r.update (.response status) =
      { r with
        response := some status
        status := r.status.respond r.isCommand r.changed.isEmpty } := rfl

theorem update_changed (paths : SortedSet AttributePath) :
    r.update (.changed paths) =
      { r with
        changed := r.changed.union paths
        status := r.status.report (r.changed.isEmpty && paths.isEmpty) } := by
  rw [← SortedMap.isEmpty_union]
  rfl

theorem update_response_changed (status : Status) (paths : SortedSet AttributePath) :
    (r.update (.response status)).update (.changed paths) =
      (r.update (.changed paths)).update (.response status) := by
  simp only [update_response, update_changed, isCommand, SortedMap.isEmpty_union,
    RoundStatus.report_respond]

theorem update_changed_changed (paths paths' : SortedSet AttributePath) :
    (r.update (.changed paths)).update (.changed paths') =
      (r.update (.changed paths')).update (.changed paths) := by
  simp only [update_changed, SortedMap.isEmpty_union, RoundStatus.report_report]
  rw [SortedSet.union_right_comm, Bool.and_right_comm]

end Round

namespace Rounds

variable {s : Rounds} {r : Round}

theorem after_update_of_active (h : s.active = .ok r) (u : RoundUpdate) :
    s.after (.update u) = { s.effects r u with live := some (r.update u) } := by
  rw [after, update_of_active h]

theorem update_eq_after (h : s.active = .ok r) (u : RoundUpdate) :
    s.update u = .ok ((r.update u).status, s.after (.update u)) := by
  rw [after_update_of_active h, update_of_active h]

theorem after_update_of_error {fault : RoundFault} (h : s.active = .error fault) (u : RoundUpdate) :
    s.after (.update u) = s := by
  rw [after, update_of_error h]

theorem active_after_update (h : s.active = .ok r) (u : RoundUpdate) :
    (s.after (.update u)).active = .ok (r.update u) := by
  rw [after_update_of_active h]
  exact active_effects h u

theorem nextId_after_update (h : s.active = .ok r) (u : RoundUpdate) :
    (s.after (.update u)).nextId = s.nextId := by
  rw [after_update_of_active h]
  exact (s.sameBooks_effects r u).nextId

theorem after_update_update (h : s.active = .ok r) (u v : RoundUpdate) :
    (s.after (.update u)).after (.update v) =
      { ({ s.effects r u with live := some (r.update u) } : Rounds).effects (r.update u) v with
        live := some ((r.update u).update v) } := by
  rw [after_update_of_active (active_after_update h u), after_update_of_active h]

theorem after_response_changed (s : Rounds) (status : Status) (paths : SortedSet AttributePath) :
    (s.after (.update (.response status))).after (.update (.changed paths)) =
      (s.after (.update (.changed paths))).after (.update (.response status)) := by
  cases hactive : s.active with
  | error fault => simp only [after_update_of_error hactive]
  | ok r =>
    rw [after_update_update hactive, after_update_update hactive, r.update_response_changed]
    -- a report writes no slot, and leaves the round its own
    have hslot : (r.update (.changed paths)).slot = r.slot := rfl
    simp only [effects, hslot]
    cases r.slot <;> rfl

theorem after_changed_changed (s : Rounds) (paths paths' : SortedSet AttributePath) :
    (s.after (.update (.changed paths))).after (.update (.changed paths')) =
      (s.after (.update (.changed paths'))).after (.update (.changed paths)) := by
  cases hactive : s.active with
  | error fault => simp only [after_update_of_error hactive]
  | ok r =>
    rw [after_update_update hactive, after_update_update hactive, r.update_changed_changed]
    rfl

theorem path_after_changed (s : Rounds) (paths : SortedSet AttributePath) :
    (s.after (.update (.changed paths))).live.bind (·.path) = s.live.bind (·.path) := by
  cases hactive : s.active with
  | error fault => rw [after_update_of_error hactive]
  | ok r =>
    rw [after_update_of_active hactive, (active_eq_ok_iff.mp hactive).1]
    rfl

end Rounds

end DeviceTrial
