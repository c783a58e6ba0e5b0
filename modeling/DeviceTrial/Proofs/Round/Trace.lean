import Mathlib.Data.List.TakeWhile
import DeviceTrial.Proofs.History
import DeviceTrial.Proofs.Round.Steps

namespace DeviceTrial

namespace Trace

/-- The path of the latest target. -/
def latestPath (us : List RoundUpdate) : Option CommandPath :=
  (us.filterMap RoundUpdate.path?).getLast?

/-- The latest target is a command. -/
def isCommand (us : List RoundUpdate) : Bool := (latestPath us).any (·.isCommand)

/-- The updates from the first target or destination on. -/
def opened (us : List RoundUpdate) : List RoundUpdate := us.dropWhile fun u => !u.opens

/-- A response came after the first target or destination. -/
def isAnswered (us : List RoundUpdate) : Bool := (opened us).any (·.answers)

/-- The updates before the first response that came after a target or destination. -/
def unanswered (us : List RoundUpdate) : List RoundUpdate :=
  (us.takeWhile fun u => !u.opens) ++ (opened us).takeWhile fun u => !u.answers

end Trace

open Trace

/-- The status of a round that has taken the given updates. -/
def RoundStatus.ofTrace (us : List RoundUpdate) : RoundStatus :=
  if (opened us).isEmpty then .uninitialized
  else if !isAnswered us then .request (isCommand us)
  else if us.any (·.reports) then .reported
  else .response (isCommand (unanswered us))

namespace Trace

variable (us : List RoundUpdate) (u : RoundUpdate)

theorem latestPath_concat : latestPath (us ++ [u]) = u.path?.or (latestPath us) :=
  getLast?_filterMap_concat RoundUpdate.path? us u

theorem isCommand_concat (h : u.path? = none) : isCommand (us ++ [u]) = isCommand us := by
  rw [isCommand, latestPath_concat, h, Option.none_or, isCommand]

theorem opened_concat_of_isEmpty (h : (opened us).isEmpty = true) :
    opened (us ++ [u]) = if u.opens then [u] else [] := by
  rw [opened] at h
  rw [opened, List.dropWhile_append, if_pos h]
  cases hu : u.opens <;> simp [List.dropWhile, hu]

theorem opened_concat_of_not_isEmpty (h : ¬ (opened us).isEmpty = true) :
    opened (us ++ [u]) = opened us ++ [u] := by
  rw [opened] at h
  rw [opened, List.dropWhile_append, if_neg h]
  rfl

theorem unanswered_eq_self (h : ¬ isAnswered us = true) : unanswered us = us := by
  have hall : ∀ v ∈ opened us, (!v.answers) = true := by
    intro v hv
    simp only [isAnswered, List.any_eq_true] at h
    cases ha : v.answers with
    | false => rfl
    | true => exact (h ⟨v, hv, ha⟩).elim
  rw [unanswered, List.takeWhile_eq_self_iff.mpr hall]
  exact List.takeWhile_append_dropWhile

theorem isAnswered_concat_of_not_isEmpty (h : ¬ (opened us).isEmpty = true) :
    isAnswered (us ++ [u]) = (isAnswered us || u.answers) := by
  rw [isAnswered, opened_concat_of_not_isEmpty us u h, List.any_append, ← isAnswered]
  simp

theorem exists_opens (h : ¬ (opened us).isEmpty = true) : ∃ w ∈ us, ¬ (!w.opens) = true := by
  by_contra hnone
  apply h
  refine List.isEmpty_iff.mpr (List.dropWhile_eq_nil_iff.mpr fun w hw => ?_)
  by_contra hopen
  exact hnone ⟨w, hw, hopen⟩

theorem takeWhile_concat_of_mem {p : RoundUpdate → Bool} {l : List RoundUpdate}
    (h : ∃ v ∈ l, ¬ p v = true) : (l ++ [u]).takeWhile p = l.takeWhile p := by
  obtain ⟨v, hv, hp⟩ := h
  rw [List.takeWhile_append, if_neg]
  intro hlen
  have hself := (List.takeWhile_prefix p).eq_of_length hlen
  exact hp (List.takeWhile_eq_self_iff.mp hself v hv)

theorem unanswered_concat_of_isAnswered (h : isAnswered us = true) :
    unanswered (us ++ [u]) = unanswered us := by
  -- both prefixes end before the last update: at an opening one, and at the response after it
  obtain ⟨v, hv, ha⟩ := List.any_eq_true.mp h
  have hne : ¬ (opened us).isEmpty = true := by
    intro hempty
    rw [List.isEmpty_iff.mp hempty] at hv
    cases hv
  rw [unanswered, unanswered, opened_concat_of_not_isEmpty us u hne,
    takeWhile_concat_of_mem u (exists_opens us hne),
    takeWhile_concat_of_mem u ⟨v, hv, by simp [ha]⟩]

theorem unanswered_concat_of_answers (hne : ¬ (opened us).isEmpty = true)
    (h : ¬ isAnswered us = true) (ha : u.answers = true) : unanswered (us ++ [u]) = us := by
  have hself : (opened us).takeWhile (fun v => !v.answers) = opened us := by
    have heq := unanswered_eq_self us h
    have hsplit : (us.takeWhile fun v => !v.opens) ++ opened us = us :=
      List.takeWhile_append_dropWhile
    rw [unanswered] at heq
    exact List.append_cancel_left (heq.trans hsplit.symm)
  rw [unanswered, opened_concat_of_not_isEmpty us u hne,
    takeWhile_concat_of_mem u (exists_opens us hne),
    List.takeWhile_append_of_pos (List.takeWhile_eq_self_iff.mp hself)]
  simp only [ha, Bool.not_true, Bool.false_eq_true, not_false_eq_true,
    List.takeWhile_cons_of_neg, List.append_nil]
  exact List.takeWhile_append_dropWhile

end Trace

namespace RoundStatus

variable {us : List RoundUpdate}

theorem ofTrace_of_isEmpty (hopen : (opened us).isEmpty = true) :
    ofTrace us = .uninitialized := if_pos hopen

theorem ofTrace_of_not_isAnswered (hopen : ¬ (opened us).isEmpty = true)
    (hanswer : isAnswered us = false) : ofTrace us = .request (isCommand us) := by
  rw [ofTrace, if_neg hopen, if_pos (by rw [hanswer]; rfl)]

theorem ofTrace_of_isAnswered (hopen : ¬ (opened us).isEmpty = true)
    (hanswer : isAnswered us = true) :
    ofTrace us =
      if us.any (·.reports) then .reported else .response (isCommand (unanswered us)) := by
  rw [ofTrace, if_neg hopen, if_neg (by rw [hanswer]; decide)]

end RoundStatus

end DeviceTrial
