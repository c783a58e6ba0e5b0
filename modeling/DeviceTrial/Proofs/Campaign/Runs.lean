import DeviceTrial.Proofs.Campaign.Case
import DeviceTrial.Proofs.Judge.Verdicts

namespace DeviceTrial

/-! ## Devices -/

section Devices

variable {σ : Type} {d : Device σ}

abbrev Question := NodeId × CommandPath × List UInt8

def TestCase.question (case : TestCase) (destination : NodeId) : Question :=
  (destination, case.path, case.payload)

/-- The device, which also notes down what it is asked. -/
def Device.noting (d : Device σ) : Device (σ × List Question) where
  respond state b destination path payload := do
    let (reaction, next, left) ← d.respond state.1 b destination path payload
    return (reaction, (next, state.2 ++ [(destination, path, payload)]), left)

/-- The device leaves the bench alone while it is asked. -/
def Device.IsQuiet (d : Device σ) : Prop :=
  ∀ state b destination path payload,
    (d.respond state b destination path payload).value.2.2 = b

theorem Device.CallsBack.noting (hd : d.CallsBack) : d.noting.CallsBack :=
  fun state b destination path payload => hd state.1 b destination path payload

theorem Device.IsQuiet.callsBack (hd : d.IsQuiet) : d.CallsBack :=
  fun state b destination path payload => ⟨.whole, [], hd state b destination path payload⟩

end Devices

namespace Campaign

variable {σ : Type} {d : Device σ} {c : Campaign}

/-! ## Plays -/

structure Play where
  case : TestCase
  answer : Status
  result : Except CampaignFault RoundReport

namespace Play

def round? (p : Play) : Option Nat :=
  match p.result with
  | .ok report => some report.round
  | .error (.unreachable round) => some round
  | .error (.round _) => none

def isUnreachable (p : Play) : Bool :=
  match p.result with
  | .error (.unreachable _) => true
  | _ => false

def isUnexpected (p : Play) : Bool :=
  match p.result with
  | .ok report => report.verdict = .unexpected
  | .error _ => false

def line (p : Play) : String := p.case.historyLine (some p.answer)

end Play

def play (d : Device σ) (c : Campaign) (state : σ) (case : TestCase) : Play :=
  ⟨case, (c.ask d state case).1.status, (c.runCase d state case).value.1⟩

/-- The campaign and the device after some cases. -/
def playThrough (d : Device σ) (c : Campaign) (state : σ) (cases : List TestCase) : Campaign × σ :=
  cases.foldl (fun x case => (x.1.runCase d x.2 case).value.2) (c, state)

/-- What comes of the cases if all of them are played. -/
def plays (d : Device σ) (c : Campaign) (state : σ) : List TestCase → List Play
  | [] => []
  | case :: rest =>
    let after := (c.runCase d state case).value.2
    c.play d state case :: plays d after.1 after.2 rest

theorem length_plays (d : Device σ) (c : Campaign) (state : σ) (cases : List TestCase) :
    (plays d c state cases).length = cases.length := by
  induction cases generalizing c state with
  | nil => rfl
  | cons case rest ih => rw [plays, List.length_cons, ih, List.length_cons]

theorem plays_append (d : Device σ) (c : Campaign) (state : σ) (xs ys : List TestCase) :
    plays d c state (xs ++ ys) =
      plays d c state xs ++
        plays d (playThrough d c state xs).1 (playThrough d c state xs).2 ys := by
  induction xs generalizing c state with
  | nil => rfl
  | cons case rest ih =>
    rw [List.cons_append, plays, ih, plays, List.cons_append]
    rfl

theorem take_plays (d : Device σ) (c : Campaign) (state : σ) (cases : List TestCase) (n : Nat) :
    (plays d c state cases).take n = plays d c state (cases.take n) := by
  induction cases generalizing c state n with
  | nil => rw [List.take_nil, plays, List.take_nil]
  | cons case rest ih =>
    cases n with
    | zero => rfl
    | succ n => rw [plays, List.take_succ_cons, ih, List.take_succ_cons, plays]

/-! ## One case among many -/

section Steps

variable (hd : d.CallsBack) (hlive : c.bench.rounds.live = none) (state : σ) (case : TestCase)
include hd hlive

/-- What a case leaves behind, as far as the next ones are concerned. -/
theorem runCase_leaves :
    let after := (c.runCase d state case).value.2.1
    after.bench.rounds.live = none ∧ after.bench.rounds.nextId = c.bench.rounds.nextId + 1 ∧
      after.settings = c.settings ∧ after.history = c.history ++ [(c.play d state case).line] := by
  obtain ⟨ended, -, hnext, -, hplayed⟩ := value_runCase hd hlive state case
  intro after
  have hafter : after = _ := congrArg (·.2.1) hplayed
  rw [hafter]
  exact ⟨rfl, hnext, rfl, rfl⟩

theorem runCase_cases :
    let result := (c.runCase d state case).value.1
    let verdict := (c.runCase d state case).value.2.1.bench.judge.current
    verdict = .unreachable ∧ result = .error (.unreachable c.bench.rounds.nextId) ∨
      verdict ≠ .unreachable ∧
        ∃ report, result = .ok report ∧ report.round = c.bench.rounds.nextId := by
  obtain ⟨ended, -, -, -, hplayed⟩ := value_runCase hd hlive state case
  intro result verdict
  have hresult : result = _ := congrArg (·.1) hplayed
  have hverdict : verdict = _ := congrArg (·.2.1.bench.judge.current) hplayed
  rw [hresult, hverdict]
  by_cases hunreachable : verdict = .unreachable
  · rw [hverdict] at hunreachable
    exact .inl ⟨hunreachable, if_pos hunreachable⟩
  · rw [hverdict] at hunreachable
    exact .inr ⟨hunreachable, _, if_neg hunreachable, rfl⟩

theorem round?_play : (c.play d state case).round? = some c.bench.rounds.nextId := by
  rcases runCase_cases hd hlive state case with ⟨-, hresult⟩ | ⟨-, report, hresult, hround⟩
  · rw [Play.round?, play, hresult]
  · rw [Play.round?, play, hresult, ← hround]

theorem isUnreachable_play : (c.play d state case).isUnreachable = true ↔
    (c.runCase d state case).value.2.1.bench.judge.current = .unreachable := by
  rcases runCase_cases hd hlive state case with ⟨hverdict, hresult⟩ | ⟨hverdict, report, hresult, -⟩
  · simp only [Play.isUnreachable, play, hresult, hverdict]
  · simp only [Play.isUnreachable, play, hresult, hverdict, Bool.false_eq_true]

end Steps

/-- The rounds of the cases are numbered one after the other. -/
theorem round?_plays (hd : d.CallsBack) (hlive : c.bench.rounds.live = none) (state : σ)
    (cases : List TestCase) :
    (plays d c state cases).map (·.round?) =
      (List.range' c.bench.rounds.nextId cases.length).map some := by
  induction cases generalizing c state with
  | nil => rfl
  | cons case rest ih =>
    obtain ⟨hreleased, hnext, -, -⟩ := runCase_leaves hd hlive state case
    rw [plays, List.map_cons, round?_play hd hlive, ih hreleased, hnext, List.length_cons,
      List.range'_succ, List.map_cons]

theorem playThrough_leaves (hd : d.CallsBack) (hlive : c.bench.rounds.live = none) (state : σ)
    (cases : List TestCase) :
    let after := (playThrough d c state cases).1
    after.bench.rounds.live = none ∧
      after.history = c.history ++ (plays d c state cases).map (·.line) := by
  induction cases generalizing c state with
  | nil => exact ⟨hlive, (List.append_nil _).symm⟩
  | cons case rest ih =>
    obtain ⟨hreleased, -, -, hhistory⟩ := runCase_leaves hd hlive state case
    obtain ⟨hlast, hlines⟩ := ih hreleased (c.runCase d state case).value.2.2
    refine ⟨hlast, hlines.trans ?_⟩
    rw [hhistory, plays, List.map_cons, List.append_assoc]
    rfl

/-! ## Runs -/

/-- A snapshot changes nothing but the archive. -/
theorem value_dump (c : Campaign) : ∃ archive, c.dump.value.2 = { c with archive } := by
  unfold dump
  cases c.archive with
  | none => exact ⟨c.archive, rfl⟩
  | some archive =>
    dsimp only
    split
    · exact ⟨c.archive, rfl⟩
    · exact ⟨_, rfl⟩

/-- How many of the plays take place: those up to the first at which the device is unreachable, or
all of them. -/
def taken (played : List Play) : Nat :=
  (played.findIdx? (·.isUnreachable)).elim played.length (· + 1)

theorem taken_cons (p : Play) (played : List Play) :
    taken (p :: played) = if p.isUnreachable then 1 else taken played + 1 := by
  rw [taken, taken, List.findIdx?_cons]
  split
  · rfl
  · cases played.findIdx? (·.isUnreachable) <;> rfl

section Runs

variable {state : σ} {case : TestCase} (summary : Summary) (rest : List TestCase)

theorem value_playAll_of_ok {report : RoundReport}
    (h : (c.runCase d state case).value.1 = .ok report) :
    (c.playAll d state summary (case :: rest)).value =
      ((c.runCase d state case).value.2.1.playAll d (c.runCase d state case).value.2.2
        (Summary.count { summary with rounds := summary.rounds + 1 } report) rest).value := by
  rw [playAll]
  simp only [Told.value_bind, h]

theorem value_playAll_of_unreachable {round : Nat}
    (h : (c.runCase d state case).value.1 = .error (.unreachable round)) :
    ∃ archive, (c.playAll d state summary (case :: rest)).value =
      (.ok { summary with rounds := summary.rounds + 1, unreachableAt := some round },
        { (c.runCase d state case).value.2.1 with archive },
        (c.runCase d state case).value.2.2) := by
  obtain ⟨archive, hdump⟩ := value_dump (c.runCase d state case).value.2.1
  refine ⟨archive, ?_⟩
  rw [playAll]
  simp only [Told.value_bind, h, hdump]
  split <;> rfl

end Runs

theorem value_playAll (hd : d.CallsBack) (hlive : c.bench.rounds.live = none) (state : σ)
    (summary : Summary) (cases : List TestCase) :
    let played := plays d c state cases
    let left := playThrough d c state (cases.take (taken played))
    ∃ total archive,
      (c.playAll d state summary cases).value = (.ok total, { left.1 with archive }, left.2) ∧
      total.rounds = summary.rounds + taken played ∧
      total.unreachableAt =
        ((played.findIdx? (·.isUnreachable)).map (c.bench.rounds.nextId + ·)).or
          summary.unreachableAt ∧
      total.unexpectedResponses =
        summary.unexpectedResponses + (played.take (taken played)).countP (·.isUnexpected) := by
  induction cases generalizing c state summary with
  | nil => exact ⟨summary, c.archive, rfl, rfl, rfl, rfl⟩
  | cons case rest ih =>
    obtain ⟨hreleased, hnext, -, -⟩ := runCase_leaves hd hlive state case
    -- a case that finds the device unreachable ends the run, any other leaves the rest to be played
    obtain ⟨hverdict, hresult⟩ | ⟨hverdict, report, hresult, -⟩ :=
      runCase_cases hd hlive state case
    · have hfirst := (isUnreachable_play hd hlive state case).mpr hverdict
      have hunexpected : (c.play d state case).isUnexpected = false := by
        rw [Play.isUnexpected, play, hresult]
      obtain ⟨archive, hvalue⟩ := value_playAll_of_unreachable summary rest hresult
      simp only [plays, taken_cons, List.findIdx?_cons, hfirst, if_true, List.take_succ_cons,
        List.take_zero, List.countP_singleton, hunexpected]
      exact ⟨_, archive, hvalue, rfl, rfl, rfl⟩
    · have hfirst : (c.play d state case).isUnreachable = false :=
        Bool.eq_false_iff.mpr fun h => hverdict ((isUnreachable_play hd hlive state case).mp h)
      have hunexpected : (c.play d state case).isUnexpected =
          decide (report.verdict = .unexpected) := by
        rw [Play.isUnexpected, play, hresult]
      obtain ⟨total, archive, hvalue, hrounds, hstop, hcount⟩ :=
        ih hreleased (c.runCase d state case).value.2.2
          (Summary.count { summary with rounds := summary.rounds + 1 } report)
      rw [← value_playAll_of_ok summary rest hresult] at hvalue
      simp only [plays, taken_cons, List.findIdx?_cons, hfirst, Bool.false_eq_true, if_false,
        List.take_succ_cons, List.countP_cons, hunexpected]
      refine ⟨total, archive, hvalue, ?_, ?_, ?_⟩
      · exact hrounds.trans (Nat.add_right_comm ..)
      -- the first case took the next number, so the rest counts from the one after it
      · have hshift : (c.bench.rounds.nextId + 1 + ·) = (c.bench.rounds.nextId + ·) ∘ (· + 1) := by
          funext k
          exact Nat.add_right_comm ..
        rw [hstop, hnext, hshift, Option.map_map]
        rfl
      · simp only [Summary.count] at hcount
        simp only [decide_eq_true_eq]
        rw [hcount, Nat.add_assoc, Nat.add_comm (ite ..)]

theorem value_run (hd : d.CallsBack) (hlive : c.bench.rounds.live = none) (state : σ)
    (cases : List TestCase) :
    let due := cases.take c.settings.iterations.toNat
    let played := plays d c state due
    let left := playThrough d c state (due.take (taken played))
    ∃ total archive,
      (c.run d state cases).value = (.ok total, { left.1 with archive }, left.2) ∧
      total.rounds = taken played ∧
      total.unreachableAt = (played.findIdx? (·.isUnreachable)).map (c.bench.rounds.nextId + ·) ∧
      total.unexpectedResponses = (played.take (taken played)).countP (·.isUnexpected) := by
  intro due played left
  obtain ⟨total, archive, hvalue, hrounds, hstop, hcount⟩ := value_playAll hd hlive state {} due
  let observations := left.1.bench.rounds.log.records.length
  refine ⟨{ total with observations }, archive, ?_, ?_, ?_, ?_⟩
  · rw [run]
    simp only [Told.value_bind, due, hvalue]
    rfl
  · exact hrounds.trans (Nat.zero_add _)
  · exact hstop.trans (Option.or_none ..)
  · exact hcount.trans (Nat.zero_add _)

/-! ## What reaches the device -/

theorem runCase_noting (hd : d.CallsBack) (hlive : c.bench.rounds.live = none) (state : σ)
    (log : List Question) (case : TestCase) :
    let played := (c.runCase d state case).value
    (c.runCase d.noting (state, log) case).value =
      (played.1, played.2.1, played.2.2, log ++ [case.question c.settings.destination]) := by
  obtain ⟨ended, hfinal, -, -, hplayed⟩ := value_runCase hd hlive state case
  obtain ⟨ended', hfinal', -, -, hplayed'⟩ := value_runCase hd.noting hlive (state, log) case
  -- the device itself is asked the same and makes the same of it, so the round ends the same way
  have hask : c.ask d.noting (state, log) case =
      ((c.ask d state case).1,
        ((c.ask d state case).2.1, log ++ [case.question c.settings.destination]),
        (c.ask d state case).2.2) := rfl
  rw [hask] at hfinal' hplayed'
  cases hfinal.symm.trans hfinal'
  rw [hplayed, hplayed']

theorem plays_noting (hd : d.CallsBack) (hlive : c.bench.rounds.live = none) (state : σ)
    (log : List Question) (cases : List TestCase) :
    plays d.noting c (state, log) cases = plays d c state cases := by
  induction cases generalizing c state log with
  | nil => rfl
  | cons case rest ih =>
    obtain ⟨hreleased, -, -, -⟩ := runCase_leaves hd hlive state case
    have hcase := runCase_noting hd hlive state log case
    have hplay : c.play d.noting (state, log) case = c.play d state case := by
      rw [play, hcase]
      rfl
    rw [plays, hplay, hcase, ih hreleased, plays]

theorem playThrough_noting (hd : d.CallsBack) (hlive : c.bench.rounds.live = none) (state : σ)
    (log : List Question) (cases : List TestCase) :
    (playThrough d.noting c (state, log) cases).2.2 =
      log ++ cases.map (·.question c.settings.destination) := by
  induction cases generalizing c state log with
  | nil => exact (List.append_nil _).symm
  | cons case rest ih =>
    obtain ⟨hreleased, -, hsettings, -⟩ := runCase_leaves hd hlive state case
    have hrest := ih hreleased (c.runCase d state case).value.2.2
      (log ++ [case.question c.settings.destination])
    have hcase := congrArg (·.2) (runCase_noting hd hlive state log case)
    rw [hsettings, List.append_assoc] at hrest
    rw [playThrough, List.foldl_cons, hcase]
    exact hrest

/-! ## Devices that make no callbacks -/

theorem playThrough_concat (d : Device σ) (c : Campaign) (state : σ) (cases : List TestCase)
    (case : TestCase) :
    playThrough d c state (cases ++ [case]) =
      ((playThrough d c state cases).1.runCase d (playThrough d c state cases).2 case).value.2 :=
  List.foldl_append ..

theorem plays_concat (d : Device σ) (c : Campaign) (state : σ) (cases : List TestCase)
    (case : TestCase) :
    plays d c state (cases ++ [case]) = plays d c state cases ++
      [(playThrough d c state cases).1.play d (playThrough d c state cases).2 case] :=
  plays_append d c state cases [case]

/-- The judge hears of nothing but the answers. -/
theorem judge_runCase (hd : d.IsQuiet) (hlive : c.bench.rounds.live = none) (state : σ)
    (case : TestCase) :
    (c.runCase d state case).value.2.1.bench.judge =
      (c.bench.judge.consume case.path (.plain (c.play d state case).answer)).value := by
  obtain ⟨ended, -, -, -, hplayed⟩ := value_runCase hd.callsBack hlive state case
  have hleft : (c.ask d state case).2.2 = c.prepared case :=
    hd state (c.prepared case) c.settings.destination case.path case.payload
  have hjudge := congrArg (·.2.1.bench.judge) hplayed
  rw [hleft] at hjudge
  exact hjudge

/-- The silence of the judge is the number of the latest plays that brought a timeout. -/
theorem judge_playThrough (hd : d.IsQuiet) (hlive : c.bench.rounds.live = none)
    (hsilence : c.bench.judge.silence = 0) (state : σ) (cases : List TestCase) :
    let judge := (playThrough d c state cases).1.bench.judge
    judge.patience = c.bench.judge.patience ∧
      judge.silence = trailing (fun p => p.answer = .timeout) (plays d c state cases) := by
  -- on the last case, which adds to the silence or breaks it
  induction cases using List.reverseRecOn with
  | nil => exact ⟨rfl, hsilence⟩
  | append_singleton cases case ih =>
    obtain ⟨hpatience, hcount⟩ := ih
    have hbefore := (playThrough_leaves hd.callsBack hlive state cases).1
    rw [playThrough_concat, judge_runCase hd hbefore, plays_concat, trailing_concat]
    refine ⟨(Judge.patience_consume ..).trans hpatience, ?_⟩
    rw [Judge.silence_consume, hcount]
    simp only [decide_eq_true_eq]

theorem isUnreachable_concat (hd : d.IsQuiet) (hlive : c.bench.rounds.live = none)
    (hsilence : c.bench.judge.silence = 0) (hpatience : 1 ≤ c.bench.judge.patience) (state : σ)
    (cases : List TestCase) (case : TestCase) :
    let before := playThrough d c state cases
    (before.1.play d before.2 case).isUnreachable = true ↔
      c.bench.judge.patience ≤
        trailing (fun p => p.answer = .timeout) (plays d c state (cases ++ [case])) := by
  intro before
  have hbefore : before.1.bench.rounds.live = none :=
    (playThrough_leaves hd.callsBack hlive state cases).1
  obtain ⟨hsame, -⟩ := judge_playThrough hd hlive hsilence state cases
  obtain ⟨-, hcount⟩ := judge_playThrough hd hlive hsilence state (cases ++ [case])
  have hjudge := judge_runCase hd hbefore before.2 case
  rw [isUnreachable_play hd.callsBack hbefore, hjudge, Judge.current_consume_eq_unreachable_iff,
    ← hjudge, ← hcount, playThrough_concat]
  · rw [hsame]
  · rwa [hsame]

theorem isUnreachable_plays (hd : d.IsQuiet) (hlive : c.bench.rounds.live = none)
    (hsilence : c.bench.judge.silence = 0) (hpatience : 1 ≤ c.bench.judge.patience) (state : σ)
    (cases : List TestCase) {k : Nat} {p : Play} (hp : (plays d c state cases)[k]? = some p) :
    p.isUnreachable = true ↔
      c.bench.judge.patience ≤
        trailing (fun p => p.answer = .timeout) ((plays d c state cases).take (k + 1)) := by
  have hk : k < cases.length := by
    have hbound := (List.getElem?_eq_some_iff.mp hp).1
    rwa [length_plays] at hbound
  have hcases : cases.take (k + 1) = cases.take k ++ [cases[k]] :=
    List.take_succ_eq_append_getElem hk
  have hlast := isUnreachable_concat hd hlive hsilence hpatience state (cases.take k) cases[k]
  rw [← hcases, ← take_plays] at hlast
  -- the play with the number is the one that the last of these cases adds
  have hplays : plays d c state (cases.take k) ++ [p] =
      plays d c state (cases.take k ++ [cases[k]]) := by
    rw [← take_plays, ← hcases, ← take_plays, List.take_add_one, hp, Option.toList_some]
  rw [plays_concat] at hplays
  rw [List.singleton_inj.mp (List.append_cancel_left hplays)]
  exact hlast

/-- Without a live round a run always goes through. It plays the cases in order, as many as it may,
but none after the first at which the device is unreachable, and no other case reaches the device.
The rounds are numbered one after the other, and each adds a line to the history. The summary counts
the rounds and those with an unexpected response, and names the round that ended the run early. If
the device makes no callbacks and the judge has not heard a timeout yet, a round finds the device
unreachable if the latest rounds, as many as the patience asks for and at least one, all brought a
timeout. -/
theorem run_plays (hd : d.CallsBack) (hlive : c.bench.rounds.live = none) (state : σ)
    (cases : List TestCase) :
    let due := cases.take c.settings.iterations.toNat
    let played := plays d c state due
    let stop := played.findIdx? (·.isUnreachable)
    let n := stop.elim (min cases.length c.settings.iterations.toNat) (· + 1)
    (∃ summary after, (c.run d state cases).value = (.ok summary, after) ∧
      summary.rounds = n ∧ summary.unreachableAt = stop.map (c.bench.rounds.nextId + ·) ∧
      summary.unexpectedResponses = (played.take n).countP (·.isUnexpected) ∧
      after.1.bench = (playThrough d c state (due.take n)).1.bench ∧
      after.1.history = c.history ++ (played.take n).map (·.line)) ∧
    (∀ log, (c.run d.noting (state, log) cases).value.2.2.2 =
      log ++ (due.take n).map (·.question c.settings.destination)) ∧
    played.map (·.round?) = (List.range' c.bench.rounds.nextId due.length).map some ∧
    (d.IsQuiet → c.bench.judge.silence = 0 → ∀ patience, c.bench.judge.patience = max patience 1 →
      ∀ k p, played[k]? = some p →
        (p.isUnreachable = true ↔ max patience 1 ≤ k + 1 ∧
          ∀ q ∈ (played.take (k + 1)).drop (k + 1 - max patience 1), q.answer = .timeout)) := by
  intro due played stop n
  -- `n` is how many of the cases are taken before the run ends
  have hn : n = taken played := by
    rw [taken, length_plays, List.length_take, Nat.min_comm]
  refine ⟨?_, fun log => ?_, round?_plays hd hlive state due, ?_⟩
  · obtain ⟨total, archive, hvalue, hrounds, hstop, hcount⟩ := value_run hd hlive state cases
    refine ⟨total, _, hvalue, hrounds.trans hn.symm, hstop, ?_, ?_, ?_⟩
    · rw [hn]
      exact hcount
    · rw [hn]
    · rw [hn, take_plays]
      exact (playThrough_leaves hd hlive state _).2
  · obtain ⟨total, archive, hvalue, -⟩ := value_run hd.noting hlive (state, log) cases
    rw [plays_noting hd hlive, ← hn] at hvalue
    rw [hvalue]
    exact playThrough_noting hd hlive state log _
  · intro hquiet hsilence patience hpatience k p hp
    have hone : 1 ≤ c.bench.judge.patience := by
      rw [hpatience]
      exact Nat.le_max_right ..
    have hlength : (played.take (k + 1)).length = k + 1 := by
      rw [List.length_take]
      exact Nat.min_eq_left (List.getElem?_eq_some_iff.mp hp).1
    rw [isUnreachable_plays hquiet hlive hsilence hone state due hp, le_trailing_iff, hlength,
      hpatience]
    simp only [decide_eq_true_eq]
    rfl

/-- A device that answers once and then crashes. The case that is left over does not reach it. -/
theorem run_plays_crash :
    let d : Device Nat := ⟨fun k b _ _ _ =>
      pure (if k = 0 then .reply ⟨.success, none⟩ else .crash none, k + 1, b)⟩
    let c := Campaign.new { iterations := 4 } none
    let ask : TestCase := ⟨⟨.invoke, 1, 6, 2⟩, [0x15, 0x18]⟩
    let put : TestCase := ⟨⟨.write, 1, 8, 0⟩, []⟩
    let cases := [ask, put, ask, put, ask]
    let played := plays d c 0 (cases.take c.settings.iterations.toNat)
    (∃ summary after, (c.run d 0 cases).value = (.ok summary, after) ∧
      summary.rounds = 3 ∧ summary.unreachableAt = some 2 ∧ summary.unexpectedResponses = 1 ∧
      after.1.history = [ask.historyLine (some .success), put.historyLine (some .timeout),
        ask.historyLine (some .timeout)]) ∧
      (c.run d.noting (0, []) cases).value.2.2.2 =
        [ask.question 1, put.question 1, ask.question 1] ∧
      ∃ p, played[2]? = some p ∧ p.isUnreachable = true := by
  intro d c ask put cases played
  have hd : d.IsQuiet := fun state b destination path payload => rfl
  have hlive : c.bench.rounds.live = none := rfl
  obtain ⟨⟨summary, after, hrun, hrounds, hstop, hcount, -, hhistory⟩, hasked, -, hquiet⟩ :=
    run_plays hd.callsBack hlive 0 cases
  have hfirst : played.findIdx? (·.isUnreachable) = some 2 := by decide +kernel
  have hthird : played[2]?.isSome = true := by decide +kernel
  obtain ⟨p, hp⟩ := Option.isSome_iff_exists.mp hthird
  have htimeouts : ∀ q ∈ (played.take 3).drop 1, q.answer = .timeout := by decide +kernel
  simp only [played] at hfirst
  rw [hfirst] at hrounds hstop hcount hhistory hasked
  refine ⟨⟨summary, after, hrun, hrounds, hstop, hcount.trans (by decide +kernel),
    hhistory.trans (by decide +kernel)⟩, hasked [], p, hp, ?_⟩
  exact (hquiet hd rfl 2 rfl 2 p hp).mpr ⟨by decide, htimeouts⟩

end Campaign

end DeviceTrial
