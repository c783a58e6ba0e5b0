import DeviceTrial.Proofs.Round.Follows
import DeviceTrial.Proofs.Round.Operations

namespace DeviceTrial

/-- A call on the rounds. What arrives while `finalize` waits comes with it; a slot may be filled
from outside. -/
inductive RoundCall where
  | start (signal : Signal)
  | update (u : RoundUpdate)
  | finalize (arrivals : List RoundUpdate)
  | close (force : Bool)
  | drain
  | fill (slot : Slot) (status : Status)

namespace Rounds

/-- The rounds after a call. A call that is refused leaves them as they are. -/
def after (s : Rounds) : RoundCall → Rounds
  | .start signal => match s.start signal with
    | .ok started => started.value.2
    | .error _ => s
  | .update u => match s.update u with
    | .ok (_, next) => next
    | .error _ => s
  | .finalize arrivals => match s.finalize arrivals with
    | .ok ended => ended.value.2
    | .error _ => s
  | .close force => match s.close force with
    | .ok closed => closed.value
    | .error _ => s
  | .drain => s.drainObservations.2
  | .fill slot status => s.setSlot slot status

/-- The updates that the latest round has taken after a call, by those it had taken before. -/
def traceAfter (s : Rounds) (taken : List RoundUpdate) : RoundCall → List RoundUpdate
  | .start signal => match s.start signal with
    | .ok _ => []
    | .error _ => taken
  | .update u => match s.update u with
    | .ok _ => taken ++ [u]
    | .error _ => taken
  -- what arrives is delivered only if the end of the round waits
  | .finalize arrivals => match s.active with
    | .ok r => if s.waits r then taken ++ arrivals else taken
    | .error _ => taken
  | _ => taken

end Rounds

structure RoundRun where
  rounds : Rounds
  /-- The updates that the latest round has taken. -/
  trace : List RoundUpdate

namespace RoundRun

def step (run : RoundRun) (call : RoundCall) : RoundRun :=
  ⟨run.rounds.after call, run.rounds.traceAfter run.trace call⟩

def of (limit : Nat) (calls : List RoundCall) : RoundRun := calls.foldl step ⟨.new limit, []⟩

/-- The live round follows the trace, unless it is terminated. -/
def IsTraced (run : RoundRun) : Prop := ∀ r, run.rounds.active = .ok r → r.Follows run.trace

theorem isTraced_of_live_none {run : RoundRun} (h : run.rounds.live = none) : run.IsTraced := by
  intro r hr
  have hlive := (Rounds.active_eq_ok_iff.mp hr).1
  rw [h] at hlive
  cases hlive

theorem IsTraced.step {run : RoundRun} (h : run.IsTraced) (call : RoundCall) :
    (run.step call).IsTraced := by
  obtain ⟨s, us⟩ := run
  cases call with
  | start signal =>
    cases hstart : s.start signal with
    | error fault =>
      simp only [RoundRun.step, Rounds.after, Rounds.traceAfter, hstart]
      exact h
    | ok started =>
      simp only [RoundRun.step, Rounds.after, Rounds.traceAfter, hstart]
      intro r hr
      have hlive := (Rounds.active_eq_ok_iff.mp hr).1
      rw [(Rounds.live_start hstart).2] at hlive
      cases hlive
      exact Round.follows_new _ _
  | update u =>
    cases hupdate : s.update u with
    | error fault =>
      simp only [RoundRun.step, Rounds.after, Rounds.traceAfter, hupdate]
      exact h
    | ok next =>
      simp only [RoundRun.step, Rounds.after, Rounds.traceAfter, hupdate]
      obtain ⟨q, hq, rfl⟩ := Rounds.active_of_update hupdate
      intro r hr
      have hlive := (Rounds.active_eq_ok_iff.mp hr).1
      cases hlive
      exact (h q hq).update u
  | finalize arrivals =>
    -- a round that was finalized is terminated, so nothing is left to follow
    cases hfinal : s.finalize arrivals with
    | error fault =>
      have hactive := Rounds.finalize_eq_error_iff.mp hfinal
      simp only [RoundRun.step, Rounds.after, Rounds.traceAfter, hfinal, hactive]
      exact h
    | ok ended =>
      simp only [RoundRun.step, Rounds.after, hfinal]
      intro r hr
      obtain ⟨q, hlive, hterminated⟩ := Rounds.live_finalize hfinal
      obtain ⟨hr, hgoing⟩ := Rounds.active_eq_ok_iff.mp hr
      rw [hlive] at hr
      cases hr
      exact (hgoing hterminated).elim
  | close force =>
    cases hclose : s.close force with
    | error fault =>
      simp only [RoundRun.step, Rounds.after, Rounds.traceAfter, hclose]
      exact h
    | ok closed =>
      simp only [RoundRun.step, Rounds.after, hclose]
      exact isTraced_of_live_none (congrArg (·.live) (Rounds.value_close hclose))
  | drain => exact h
  | fill slot status => exact h

theorem isTraced_of (limit : Nat) (calls : List RoundCall) : (of limit calls).IsTraced := by
  have hrun : ∀ run : RoundRun, run.IsTraced → (calls.foldl step run).IsTraced := by
    induction calls with
    | nil => exact fun _ h => h
    | cons call calls ih => exact fun run h => ih _ (h.step call)
  exact hrun _ (isTraced_of_live_none rfl)

/-- The status of the live round is a function of the updates that it has taken since it started:
the round shows it, and every further update is answered with it. It never goes back. A response
stands for an empty set of changes, and a report for one that is not empty. -/
theorem status_eq_ofTrace (limit : Nat) (calls : List RoundCall) {r : Round}
    (hlive : (of limit calls).rounds.live = some r) (hgoing : r.status ≠ .terminated)
    (later : List RoundUpdate) :
    let run := of limit calls
    let delivered := run.rounds.deliver later
    r.status = .ofTrace run.trace ∧
      delivered.1 =
        (List.range later.length).map (fun i =>
          .ok (.ofTrace (run.trace ++ later.take (i + 1)))) ∧
      ∃ q, delivered.2.live = some q ∧
        q.status = .ofTrace (run.trace ++ later) ∧
        r.status.stage ≤ q.status.stage ∧
        (q.status.isResponse = true → q.changed.isEmpty = true) ∧
        (q.status = .reported → q.changed.isEmpty = false) := by
  intro run delivered
  have hactive : run.rounds.active = .ok r := Rounds.active_eq_ok_iff.mpr ⟨hlive, hgoing⟩
  have hfollows : r.Follows run.trace := isTraced_of limit calls r hactive
  have hlater (us : List RoundUpdate) : (us.foldl Round.update r).Follows (run.trace ++ us) :=
    hfollows.foldl us
  obtain ⟨hanswers, hend⟩ := Rounds.deliver_of_active hactive later
  refine ⟨hfollows.status, ?_, _, (Rounds.active_eq_ok_iff.mp hend).1, (hlater later).status,
    r.stage_le_foldl later, (hlater later).isEmpty_changed_of_isResponse,
    (hlater later).isEmpty_changed_of_reported⟩
  refine hanswers.trans (List.map_congr_left fun i _ => ?_)
  rw [(hlater _).status]

/-- A report that overtakes the response counts when the response is there. -/
theorem status_eq_ofTrace_overtaken :
    let calls : List RoundCall :=
      [.start .own, .update (.changed (.ofList [⟨1, 1, 6, 0⟩])), .start .own,
        .update (.target 1 ⟨.invoke, 1, 6, 2⟩ (.own 0))]
    ∃ r, (of 3 calls).rounds.live = some r ∧ r.status = .invokeRequest ∧
      ((of 3 calls).rounds.deliver [.response .success, .flags false true]).1 =
        [.ok .reported, .ok .reported] := by
  intro calls
  obtain ⟨hstatus, hanswers, -⟩ := status_eq_ofTrace 3 calls rfl (by decide)
    [.response .success, .flags false true]
  exact ⟨_, rfl, hstatus.trans rfl, hanswers.trans rfl⟩

end RoundRun

end DeviceTrial
