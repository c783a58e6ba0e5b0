import DeviceTrial.Proofs.Arrival.Together
import DeviceTrial.Proofs.Campaign.Runs
import DeviceTrial.Proofs.Round.Silences

namespace DeviceTrial

theorem RoundOutcome.completed_ne_silent (status : RoundStatus) : completed status ≠ silent := by
  intro h
  cases h

namespace Rounds

theorem silencesOf_after_update (s : Rounds) (u : RoundUpdate) (p : CommandPath) :
    (s.after (.update u)).silencesOf p = s.silencesOf p := by
  have hother : ∀ arrivals, RoundCall.update u ≠ .finalize arrivals := by
    intro arrivals h
    cases h
  exact (sameSilences_after hother).silencesOf p

/-- A wait in vain, and nothing else, makes the counter of the path go up. -/
theorem silent_iff_counted {s : Rounds} {r : Round} {p : CommandPath} (h : s.active = .ok r)
    (hp : r.path = some p) {arrivals : List RoundUpdate} {ended : Told (RoundOutcome × Rounds)}
    (hfinal : s.finalize arrivals = .ok ended) :
    ended.value.1 = .silent ↔ ended.value.2.silencesOf p = s.silencesOf p + 1 := by
  have hcount := (silencesOf_after_finalize h arrivals).2 p
  rw [after, hfinal, wait?_of_active h hfinal] at hcount
  change ended.value.2.silencesOf p = _ at hcount
  rw [hcount]
  cases hw : s.waits r with
  | true =>
    rw [if_pos ⟨hp, rfl⟩]
    cases ended.value.1 with
    | silent => exact iff_of_true rfl rfl
    | completed status =>
      exact iff_of_false (RoundOutcome.completed_ne_silent status) (Nat.succ_ne_zero _).symm
  | false =>
    -- the end that does not wait is never silent
    cases hfinal.symm.trans (finalize_of_not_waits h hw arrivals)
    rw [if_neg (by simp), outcome_terminate]
    exact iff_of_false (RoundOutcome.completed_ne_silent r.status) (Nat.succ_ne_self _).symm

end Rounds

theorem Bench.silencesOf_receiveAll (b : Bench) (locator : Locator) (calls : List Arrival)
    (p : CommandPath) :
    (b.receiveAll locator calls).rounds.silencesOf p = b.rounds.silencesOf p := by
  induction calls generalizing b with
  | nil => rfl
  | cons a calls ih =>
    refine (ih _).trans ?_
    rw [rounds_receive]
    cases a.update? b.store locator with
    | none => rfl
    | some u => exact b.rounds.silencesOf_after_update u p

namespace Campaign

variable {σ : Type} {d : Device σ} {c : Campaign}

def heard (d : Device σ) (c : Campaign) (state : σ) (case : TestCase) : Bench :=
  let asked := c.ask d state case
  (receive asked.2.2 case (asked.1.received c.settings.destination case.path).value).value

/-- The end of the round that the driver then calls for waits for a report in vain. -/
def endsSilent (d : Device σ) (c : Campaign) (state : σ) (case : TestCase) : Bool :=
  match (c.heard d state case).rounds.finalize [] with
  | .ok ended => ended.value.1 = .silent
  | .error _ => false

/-- Which rounds end like that, if all cases are played. -/
def silences (d : Device σ) (c : Campaign) (state : σ) : List TestCase → List Bool
  | [] => []
  | case :: rest =>
    let after := (c.runCase d state case).value.2
    c.endsSilent d state case :: silences d after.1 after.2 rest

section Steps

variable (hd : d.CallsBack) (hlive : c.bench.rounds.live = none) (state : σ) (case : TestCase)
include hd

theorem silencesOf_heard (p : CommandPath) :
    (c.heard d state case).rounds.silencesOf p = c.bench.rounds.silencesOf p := by
  obtain ⟨locator, calls, hcalls⟩ :=
    hd state (c.prepared case) c.settings.destination case.path case.payload
  rw [heard, value_receive_received (isPlaying_ask hd c state case)]
  refine (Rounds.silencesOf_after_update ..).trans ?_
  rw [ask, hcalls, Bench.silencesOf_receiveAll]
  refine (Rounds.silencesOf_after_update ..).trans ?_
  exact Rounds.silencesOf_after_update ..

include hlive

theorem outcome_runCase {report : RoundReport}
    (hreport : (c.runCase d state case).value.1 = .ok report) :
    report.outcome = .silent ↔ c.endsSilent d state case = true := by
  obtain ⟨ended, hfinal, -, -, hplayed⟩ := value_runCase hd hlive state case
  have hheard := value_receive_received (isPlaying_ask hd c state case) c.settings.destination
    (c.ask d state case).1
  rw [endsSilent, heard, hheard, hfinal]
  have hresult := (congrArg (·.1) hplayed).symm.trans hreport
  split at hresult
  · cases hresult
  · cases hresult
    exact decide_eq_true_iff.symm

/-- The counter of the path tells of every case how its round ended. -/
theorem silencesOf_runCase : c.endsSilent d state case = true ↔
    (c.runCase d state case).value.2.1.bench.rounds.silencesOf case.path =
      c.bench.rounds.silencesOf case.path + 1 := by
  obtain ⟨ended, hfinal, -, -, hplayed⟩ := value_runCase hd hlive state case
  have hplaying := isPlaying_ask hd c state case
  have hheard := value_receive_received hplaying c.settings.destination (c.ask d state case).1
  obtain ⟨-, r, hactive, hown⟩ :=
    Bench.isPlaying_answered hplaying (some case.path) (c.ask d state case).1.status
  have hbefore := c.silencesOf_heard hd state case case.path
  rw [heard, hheard] at hbefore
  rw [endsSilent, heard, hheard, hfinal, hplayed, ← hbefore]
  exact decide_eq_true_iff.trans (Rounds.silent_iff_counted hactive hown.path hfinal)

end Steps

/-- The summary misses the round at which the run stops, if it was silent, and no other silent
round. -/
theorem silentRounds_playAll (hd : d.CallsBack) (hlive : c.bench.rounds.live = none) (state : σ)
    (summary : Summary) (cases : List TestCase) :
    let played := plays d c state cases
    let silent := silences d c state cases
    ∃ total after, (c.playAll d state summary cases).value = (.ok total, after) ∧
      total.silentRounds +
          (played.findIdx? (·.isUnreachable)).elim 0 (fun k => (silent.getD k false).toNat) =
        summary.silentRounds + (silent.take (taken played)).count true := by
  induction cases generalizing c state summary with
  | nil => exact ⟨summary, _, rfl, rfl⟩
  | cons case rest ih =>
    obtain ⟨hreleased, -, -, -⟩ := runCase_leaves hd hlive state case
    -- the silence of an unreachable case is lost with its outcome, so the left side adds it
    obtain ⟨hverdict, hresult⟩ | ⟨hverdict, report, hresult, -⟩ :=
      runCase_cases hd hlive state case
    · have hfirst := (isUnreachable_play hd hlive state case).mpr hverdict
      obtain ⟨archive, hvalue⟩ := value_playAll_of_unreachable summary rest hresult
      refine ⟨_, _, hvalue, ?_⟩
      simp only [plays, silences, taken_cons, List.findIdx?_cons, hfirst, if_true,
        List.take_succ_cons, List.take_zero, Option.elim_some, List.getD_cons_zero]
      cases c.endsSilent d state case <;> rfl
    · have hfirst : (c.play d state case).isUnreachable = false :=
        Bool.eq_false_iff.mpr fun h => hverdict ((isUnreachable_play hd hlive state case).mp h)
      have houtcome := outcome_runCase hd hlive state case hresult
      obtain ⟨total, after, hvalue, hcount⟩ :=
        ih hreleased (c.runCase d state case).value.2.2
          (Summary.count { summary with rounds := summary.rounds + 1 } report)
      rw [← value_playAll_of_ok summary rest hresult] at hvalue
      refine ⟨total, after, hvalue, ?_⟩
      simp only [plays, silences, taken_cons, List.findIdx?_cons, hfirst, Bool.false_eq_true,
        if_false, List.take_succ_cons, Option.elim_map, Function.comp_def, List.getD_cons_succ,
        List.count_cons, beq_iff_eq]
      rw [hcount, Summary.count]
      simp only [houtcome]
      omega

theorem getElem?_silences {cases : List TestCase} {state : σ} {k : Nat} {case : TestCase}
    (h : cases[k]? = some case) :
    let before := playThrough d c state (cases.take k)
    (silences d c state cases)[k]? = some (before.1.endsSilent d before.2 case) := by
  induction cases generalizing c state k with
  | nil => cases h
  | cons first rest ih =>
    cases k with
    | zero =>
      cases h
      rfl
    | succ k => exact ih h

/-- A run without a live round at its start adds up the silent rounds as the counters of the paths
do, each of which goes up by one with every silent round on its path. But if the run ends early,
because the device is unreachable, and the last round is silent, the summary misses that round. -/
theorem run_silentRounds (hd : d.CallsBack) (hlive : c.bench.rounds.live = none) (state : σ)
    (cases : List TestCase) :
    let due := cases.take c.settings.iterations.toNat
    let silent := silences d c state due
    let stop := (plays d c state due).findIdx? (·.isUnreachable)
    let n := stop.elim due.length (· + 1)
    (∃ summary after, (c.run d state cases).value = (.ok summary, after) ∧
      summary.silentRounds + stop.elim 0 (fun k => (silent.getD k false).toNat) =
        (silent.take n).count true) ∧
    ∀ k case, due[k]? = some case →
      let before := playThrough d c state (due.take k)
      (silent[k]? = some true ↔
        (before.1.runCase d before.2 case).value.2.1.bench.rounds.silencesOf case.path =
          before.1.bench.rounds.silencesOf case.path + 1) := by
  intro due silent stop n
  have hn : n = taken (plays d c state due) := by
    rw [taken, length_plays]
  refine ⟨?_, fun k case hcase => ?_⟩
  · obtain ⟨total, after, hvalue, hcount⟩ := silentRounds_playAll hd hlive state {} due
    refine ⟨{ total with observations := after.1.bench.rounds.log.records.length }, after, ?_, ?_⟩
    · rw [run]
      simp only [Told.value_bind, due, hvalue]
      rfl
    · rw [hn]
      exact hcount.trans (Nat.zero_add _)
  · intro before
    have hbefore : before.1.bench.rounds.live = none := (playThrough_leaves hd hlive state _).1
    rw [getElem?_silences hcase, Option.some.injEq]
    exact silencesOf_runCase hd hbefore before.2 case

/-- A device that answers once, without a report, and then crashes. The third silent round ends the
run. -/
theorem run_silentRounds_crash :
    let d : Device Nat := ⟨fun k b _ _ _ =>
      pure (if k = 0 then .reply ⟨.success, none⟩ else .crash none, k + 1, b)⟩
    let c := Campaign.new {} none
    let ask : TestCase := ⟨⟨.invoke, 1, 6, 2⟩, [0x15, 0x18]⟩
    let put : TestCase := ⟨⟨.write, 1, 8, 0⟩, []⟩
    (∃ summary after, (c.run d 0 [ask, put, ask, put]).value = (.ok summary, after) ∧
      summary.silentRounds = 2) ∧
      (c.runCase d 0 ask).value.2.1.bench.rounds.silencesOf ask.path =
        c.bench.rounds.silencesOf ask.path + 1 := by
  intro d c ask put
  have hd : d.CallsBack :=
    Device.IsQuiet.callsBack fun state b destination path payload => rfl
  obtain ⟨⟨summary, after, hrun, hcount⟩, hcounter⟩ :=
    run_silentRounds (c := c) hd rfl 0 [ask, put, ask, put]
  have hstop : (plays d c 0 [ask, put, ask, put]).findIdx? (·.isUnreachable) = some 2 := by
    decide +kernel
  have hsilent : silences d c 0 [ask, put, ask, put] = [true, true, true, true] := by
    decide +kernel
  have hdue : [ask, put, ask, put].take c.settings.iterations.toNat = [ask, put, ask, put] :=
    List.take_of_length_le (by decide)
  simp only [hdue, hstop, hsilent] at hcount hcounter
  have hfirst := hcounter 0 ask rfl
  simp only [List.take_zero, playThrough, List.foldl_nil] at hfirst
  exact ⟨⟨summary, after, hrun, Nat.succ.inj hcount⟩, hfirst.mp rfl⟩

/-- A device that crashes twice. Both rounds wait for a report in vain, and the counter of the path
says so, but the summary counts one. -/
theorem silentRounds_crash_missed :
    let d : Device Unit := ⟨fun state b _ _ _ => pure (.crash none, state, b)⟩
    let c := Campaign.new {} none
    let ask : TestCase := ⟨⟨.invoke, 1, 6, 2⟩, [0x15, 0x18]⟩
    let played := (c.run d () [ask, ask]).value
    played.1.toOption.map (·.rounds) = some 2 ∧
      played.1.toOption.map (·.silentRounds) = some 1 ∧
      silences d c () [ask, ask] = [true, true] ∧
      played.2.1.bench.rounds.silencesOf ask.path = 2 := by
  decide +kernel

end Campaign

end DeviceTrial
