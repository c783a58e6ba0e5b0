import DeviceTrial.Proofs.Round.Order
import DeviceTrial.Proofs.Round.Silences

namespace DeviceTrial

namespace Rounds

variable {s : Rounds} {fault : RoundFault}

theorem active_eq_error_iff : s.active = .error fault ↔
    s.live = none ∧ fault = .noRound ∨
      ∃ r, s.live = some r ∧ r.status = .terminated ∧ fault = .terminated r.id := by
  unfold active round
  cases s.live with
  | none =>
    change Except.error _ = Except.error fault ↔ _
    simp [eq_comm]
  | some r =>
    change (if r.status = .terminated then .error _ else Except.ok r) = .error fault ↔ _
    split <;> simp [*, @eq_comm _ fault]

theorem update_eq_error_iff {u : RoundUpdate} :
    s.update u = .error fault ↔ s.active = .error fault := by
  cases hactive : s.active with
  | error _ => rw [update_of_error hactive, Except.error.injEq, Except.error.injEq]
  | ok r => simp [update_of_active hactive]

theorem start_eq_error_iff {signal : Signal} :
    s.start signal = .error fault ↔ ∃ r, s.live = some r ∧ fault = .alreadyLive r.id := by
  unfold start
  cases s.live <;> simp [eq_comm]

theorem close_eq_error_iff {force : Bool} : s.close force = .error fault ↔
    force = false ∧ (s.live = none ∧ fault = .noRound ∨
      ∃ r, s.live = some r ∧ r.status ≠ .terminated ∧ fault = .notTerminated r.id r.status) := by
  unfold close
  cases s.live with
  | none => cases force <;> simp [eq_comm]
  | some r =>
    cases force with
    | true => simp
    | false =>
      by_cases hr : r.status = .terminated
      · simp [hr]
      · simp [hr, @eq_comm _ fault]

/-- The fault with which a call is refused, if it is. -/
def refusal? (s : Rounds) : RoundCall → Option RoundFault
  | .start signal => fault? (s.start signal)
  | .update u => fault? (s.update u)
  | .finalize arrivals => fault? (s.finalize arrivals)
  | .close force => fault? (s.close force)
  | .drain | .fill .. => none

theorem step_of_refusal? {call : RoundCall} (h : s.refusal? call = some fault)
    (trace : List RoundUpdate) : RoundRun.step ⟨s, trace⟩ call = ⟨s, trace⟩ := by
  cases call with
  | start signal =>
    have hstart : s.start signal = .error fault := fault?_eq_some_iff.mp h
    simp only [RoundRun.step, after, traceAfter, hstart]
  | update u =>
    have hupdate : s.update u = .error fault := fault?_eq_some_iff.mp h
    simp only [RoundRun.step, after, traceAfter, hupdate]
  | finalize arrivals =>
    have hfinal : s.finalize arrivals = .error fault := fault?_eq_some_iff.mp h
    have hactive : s.active = .error fault := finalize_eq_error_iff.mp hfinal
    simp only [RoundRun.step, after, traceAfter, hfinal, hactive]
  | close force =>
    have hclose : s.close force = .error fault := fault?_eq_some_iff.mp h
    simp only [RoundRun.step, after, traceAfter, hclose]
  | drain | fill => cases h

def liveId? (s : Rounds) : Option Nat := s.live.map (·.id)

def startedId? (s : Rounds) : RoundCall → Option Nat
  | .start signal => (s.start signal).toOption.map (·.value.1)
  | _ => none

def releasedId? (s : Rounds) : RoundCall → Option Nat
  | .close force => (s.close force).toOption.bind fun _ => s.liveId?
  | _ => none

theorem liveId?_after_update (s : Rounds) (u : RoundUpdate) :
    (s.after (.update u)).liveId? = s.liveId? ∧ (s.after (.update u)).nextId = s.nextId := by
  cases hactive : s.active with
  | error fault => rw [after_update_of_error hactive]; exact ⟨rfl, rfl⟩
  | ok r =>
    refine ⟨?_, nextId_after_update hactive u⟩
    rw [after_update_of_active hactive, liveId?, liveId?, (active_eq_ok_iff.mp hactive).1]
    exact congrArg some (r.id_update u)

theorem liveId?_after_finalize (s : Rounds) (arrivals : List RoundUpdate) :
    (s.after (.finalize arrivals)).liveId? = s.liveId? ∧
      (s.after (.finalize arrivals)).nextId = s.nextId := by
  cases hactive : s.active with
  | error fault =>
    rw [after, finalize_eq_error_iff.mpr hactive]
    exact ⟨rfl, rfl⟩
  | ok r =>
    obtain ⟨ended, hfinal, hvalue⟩ := finalize_of_active hactive arrivals
    rw [after, hfinal]
    change ended.value.2.liveId? = _ ∧ ended.value.2.nextId = _
    rw [hvalue, liveId?, liveId?, (active_eq_ok_iff.mp hactive).1]
    exact ⟨congrArg some (r.id_foldl_update _), (s.sameBooks_deliver _).nextId⟩

/-- A call gives the next number to the round that it starts, and no other number. The live round is
the one that was live before or is started by the call, unless the call releases it. -/
theorem numbers_after (s : Rounds) (call : RoundCall) :
    List.range (s.after call).nextId = List.range s.nextId ++ (s.startedId? call).toList ∧
      s.liveId?.toList ++ (s.startedId? call).toList =
        (s.releasedId? call).toList ++ (s.after call).liveId?.toList := by
  -- a call that neither starts nor releases a round keeps both sides
  have hsame {t : Rounds} (h : t.liveId? = s.liveId? ∧ t.nextId = s.nextId) :
      List.range t.nextId = List.range s.nextId ++ [] ∧
        s.liveId?.toList ++ [] = [] ++ t.liveId?.toList := by
    rw [h.1, h.2, List.append_nil, List.append_nil, List.nil_append]
    exact ⟨rfl, rfl⟩
  cases call with
  | update u => exact hsame (s.liveId?_after_update u)
  | finalize arrivals => exact hsame (s.liveId?_after_finalize arrivals)
  | drain | fill => exact hsame ⟨rfl, rfl⟩
  | start signal =>
    cases hlive : s.live with
    | some r =>
      have hstart : s.start signal = .error (.alreadyLive r.id) :=
        start_eq_error_iff.mpr ⟨r, hlive, rfl⟩
      rw [startedId?, after, hstart]
      exact hsame ⟨rfl, rfl⟩
    | none =>
      obtain ⟨opened, hstart, hvalue⟩ := start_of_live_none hlive signal
      rw [startedId?, after, hstart, liveId?, hlive]
      simp only [Except.toOption, Option.map_some, hvalue]
      exact ⟨List.range_succ, rfl⟩
  | close force =>
    cases hclose : s.close force with
    | error fault =>
      rw [releasedId?, after, hclose]
      exact hsame ⟨rfl, rfl⟩
    | ok closed =>
      rw [releasedId?, after, hclose]
      simp only [value_close hclose]
      exact ⟨(List.append_nil _).symm, rfl⟩

end Rounds

namespace RoundRun

open Rounds

/-- The numbers of the rounds that are started in the course of some calls. -/
def started (limit : Nat) (calls : List RoundCall) : List Nat :=
  transcript (fun past call => (of limit past).rounds.startedId? call) calls

/-- The numbers of the rounds that are released in the course of some calls. -/
def released (limit : Nat) (calls : List RoundCall) : List Nat :=
  transcript (fun past call => (of limit past).rounds.releasedId? call) calls

theorem started_eq_range (limit : Nat) (calls : List RoundCall) :
    started limit calls = List.range (of limit calls).rounds.nextId := by
  induction calls using List.reverseRecOn with
  | nil => rfl
  | append_singleton calls call ih =>
    rw [started, transcript_concat, ← started, ih, of_concat]
    exact (numbers_after _ call).1.symm

/-- Every round that was started has been released, in the order in which they were started, or is
the live one. -/
theorem started_eq_released (limit : Nat) (calls : List RoundCall) :
    started limit calls = released limit calls ++ (of limit calls).rounds.liveId?.toList := by
  induction calls using List.reverseRecOn with
  | nil => rfl
  | append_singleton calls call ih =>
    rw [started, released, transcript_concat, transcript_concat, ← started, ← released, ih,
      of_concat, List.append_assoc, List.append_assoc]
    exact congrArg _ (numbers_after _ call).2

/-- A call that is refused can be left out of a run. -/
theorem of_refused {limit : Nat} {calls : List RoundCall} {call : RoundCall} {fault : RoundFault}
    (h : (of limit calls).rounds.refusal? call = some fault) (later : List RoundCall) :
    of limit (calls ++ call :: later) = of limit (calls ++ later) := by
  have hstep : (of limit calls).step call = of limit calls := step_of_refusal? h _
  rw [of, List.foldl_append, List.foldl_cons, ← of, hstep, of, of, ← List.foldl_append]

/-- Which calls are refused after a run. The rounds are numbered from zero as they start, and of all
that were started none but the live one has not been released. A start is refused if a round is
live; an update and an end are refused if none is live or the live one is terminated; a release is
refused if none is live or the live one is not terminated, but never if it is forced. A call that is
refused leaves the rounds as they are, and whatever comes after it goes on as if it had not been
made. -/
theorem refused_by_live (limit : Nat) (calls : List RoundCall) :
    let s := (of limit calls).rounds
    (started limit calls = List.range s.nextId ∧
      started limit calls = released limit calls ++ (s.live.map (·.id)).toList) ∧
    (∀ signal fault, s.start signal = .error fault ↔
      ∃ r, s.live = some r ∧ fault = .alreadyLive r.id) ∧
    (∀ u fault, s.update u = .error fault ↔ s.live = none ∧ fault = .noRound ∨
      ∃ r, s.live = some r ∧ r.status = .terminated ∧ fault = .terminated r.id) ∧
    (∀ arrivals fault, s.finalize arrivals = .error fault ↔ s.live = none ∧ fault = .noRound ∨
      ∃ r, s.live = some r ∧ r.status = .terminated ∧ fault = .terminated r.id) ∧
    (∀ fault, s.close false = .error fault ↔ s.live = none ∧ fault = .noRound ∨
      ∃ r, s.live = some r ∧ r.status ≠ .terminated ∧ fault = .notTerminated r.id r.status) ∧
    (∃ closed, s.close true = .ok closed) ∧
    ∀ call fault, s.refusal? call = some fault → s.after call = s ∧
      ∀ later, of limit (calls ++ call :: later) = of limit (calls ++ later) := by
  intro s
  refine ⟨⟨started_eq_range limit calls, started_eq_released limit calls⟩,
    fun signal fault => start_eq_error_iff,
    fun u fault => update_eq_error_iff.trans active_eq_error_iff,
    fun arrivals fault => finalize_eq_error_iff.trans active_eq_error_iff,
    fun fault => close_eq_error_iff.trans (and_iff_right rfl), ?_,
    fun call fault h => ⟨congrArg RoundRun.rounds (step_of_refusal? h []), of_refused h⟩⟩
  cases hclose : s.close true with
  | ok closed => exact ⟨closed, rfl⟩
  | error fault => cases (close_eq_error_iff.mp hclose).1

/-- The first round is released by force, before its response comes. The response is refused, as is
the release of the second round, which has taken nothing yet. -/
theorem refused_by_live_forced :
    let calls : List RoundCall :=
      [.start .own, .update (.target 1 ⟨.invoke, 1, 6, 2⟩ (.own 0)), .close true,
        .update (.response .success), .start .own]
    let s := (of 3 calls).rounds
    started 3 calls = [0, 1] ∧ released 3 calls = [0] ∧
      s.close false = .error (.notTerminated 1 .uninitialized) ∧ s.after (.close false) = s ∧
      of 3 (calls ++ [.close false, .update (.flags true true)]) =
        of 3 (calls ++ [.update (.flags true true)]) := by
  intro calls s
  obtain ⟨⟨hstarted, hreleased⟩, -, -, -, hclose, -, hrefused⟩ := refused_by_live 3 calls
  have hrange : started 3 calls = [0, 1] := hstarted
  have hfault : s.close false = .error (.notTerminated 1 .uninitialized) :=
    (hclose _).mpr (.inr ⟨_, rfl, by decide, rfl⟩)
  obtain ⟨hsame, hlater⟩ := hrefused (.close false) _ (fault?_eq_some_iff.mpr hfault)
  exact ⟨hrange, List.append_cancel_right (hreleased.symm.trans hrange), hfault, hsame,
    hlater [.update (.flags true true)]⟩

end RoundRun

end DeviceTrial
