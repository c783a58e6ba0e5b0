import DeviceTrial.Proofs.Campaign.Case

namespace DeviceTrial

namespace Bench

variable {code : UInt32}

theorem isNamed_statusOfCode : (statusOfCode code).isNamed = true := by
  unfold statusOfCode
  split
  · next h => exact h.2
  · decide

theorem statusOfCode_eq_success_iff : statusOfCode code = .success ↔ code = 0 := by
  unfold statusOfCode
  split
  · next h =>
    have hbyte : UInt8.ofNat code.toNat = 0 ↔ code.toNat = 0 := by
      rw [← UInt8.toNat_inj, UInt8.toNat_ofNat_of_lt' h.1]
      rfl
    rw [Status.success, Status.mk.injEq, hbyte, ← UInt32.toNat_inj]
    rfl
  · next h =>
    -- zero is a named code, so it is not among those that are mapped to a failure
    have hzero : code ≠ 0 := by
      rintro rfl
      exact h ⟨by decide, by decide⟩
    exact ⟨fun hfailure => absurd hfailure (by decide), fun hcode => absurd hcode hzero⟩

end Bench

namespace Status

theorem mem_names {s : Status} (h : s.isNamed = true) : (s.code, s.describe) ∈ names := by
  obtain ⟨name, hname⟩ := Option.isSome_iff_exists.mp h
  obtain ⟨before, rest, hnames, -⟩ := List.lookup_eq_some_iff.mp hname
  have hdescribe : s.describe = name := by rw [describe, hname, Option.getD_some]
  rw [hdescribe, hnames]
  exact List.mem_append_right _ List.mem_cons_self

/-- No other name ends as that of success does, or is itself the end of it. -/
theorem names_apart : ∀ entry ∈ names, entry.1 ≠ 0 →
    ¬ "-> Success".toList <:+ " -> ".toList ++ entry.2.toList ∧
      ¬ " -> ".toList ++ entry.2.toList <:+ "-> Success".toList := by
  decide +kernel

end Status

theorem TestCase.suffix_historyLine_iff (case : TestCase) {s : Status} (h : s.isNamed = true) :
    "-> Success".toList <:+ (case.historyLine (some s)).toList ↔ s = .success := by
  have hanswer : " -> ".toList ++ s.describe.toList <:+ (case.historyLine (some s)).toList := by
    simp only [historyLine, String.toList_append, List.append_assoc]
    exact (List.suffix_append _ _).trans
      ((List.suffix_append _ _).trans (List.suffix_append _ _))
  constructor
  · intro hends
    by_contra hother
    have hcode : s.code ≠ 0 := fun hzero => hother (congrArg Status.mk hzero)
    obtain ⟨hlonger, hshorter⟩ := Status.names_apart _ (Status.mem_names h) hcode
    rcases List.suffix_or_suffix_of_suffix hends hanswer with hsuffix | hsuffix
    · exact hlonger hsuffix
    · exact hshorter hsuffix
  · rintro rfl
    refine List.IsSuffix.trans ?_ hanswer
    decide

theorem Rounds.log_after_update (s : Rounds) (u : RoundUpdate) :
    (s.after (.update u)).log = s.log := by
  cases hupdate : s.update u with
  | error fault => simp only [after, hupdate]
  | ok next =>
    simp only [after, hupdate]
    exact (sameBooks_update hupdate).log

theorem Rounds.IsPlaying.log_finalize {s : Rounds} {round : Nat} {path : CommandPath}
    (h : s.IsPlaying round path) {status : Status}
    (hslot : s.slots.get? (.own round) = some status) {ended : Told (RoundOutcome × Rounds)}
    (hfinal : s.finalize [] = .ok ended) :
    ∃ changed, ended.value.2.log = s.log.record ⟨round, path, some status, changed⟩ := by
  obtain ⟨-, r, hactive, hown⟩ := h
  obtain ⟨ended', hfinal', hvalue⟩ := finalize_of_active hactive []
  cases hfinal.symm.trans hfinal'
  have hadmitted : s.admitted r [] = [] := by rw [admitted, ite_self]
  have hshown : s.observation r = some ⟨round, path, some status, r.changed⟩ := by
    rw [observation, hown.path, hown.slot, Option.bind_some, hslot, hown.id]
    rfl
  refine ⟨r.changed, ?_⟩
  rw [hvalue, hadmitted]
  change (s.observation r).elim s.log (s.log.record ·) = _
  rw [hshown]
  rfl

namespace Campaign

variable {σ : Type} {d : Device σ} {c : Campaign}

theorem log_prepared (c : Campaign) (case : TestCase) :
    (c.prepared case).rounds.log = c.bench.rounds.log := by
  unfold prepared
  simp only [Rounds.log_after_update]
  rfl

/-- A case whose exchange fails, with no callback before, is played to its end. One status is taken
down for it, in the slot of the round, in the report and in the history, and is what the round is
observed with. That status is success, and the line of the history ends as that of a success, exactly
if the code of the fault is zero. -/
theorem runCase_fault (hlive : c.bench.rounds.live = none) {state next : σ} {case : TestCase}
    {f : LinkFault} (hasked : c.ask d state case = (.fault f, next, c.prepared case)) :
    let played := (c.runCase d state case).value
    let after := played.2.1
    let round := c.bench.rounds.nextId
    ∃ status line changed,
      (status = .success ↔ f.code = 0) ∧ ("-> Success".toList <:+ line.toList ↔ f.code = 0) ∧
      (played.1 = .error (.unreachable round) ∨
        ∃ outcome verdict, played.1 = .ok ⟨round, outcome, some status, verdict⟩) ∧
      after.bench.rounds.slots.get? (.own round) = some status ∧
      after.history = c.history ++ [line] ∧
      after.bench.rounds.log =
        c.bench.rounds.log.record ⟨round, case.path, some status, changed⟩ := by
  intro played after round
  have hplaying := isPlaying_prepared c case
  have hheard := value_receive_received hplaying c.settings.destination (.fault f)
  have hanswered := Bench.isPlaying_answered hplaying (some case.path) (Reaction.fault f).status
  obtain ⟨ended, hfinal, hslots, -, -, r, hended, hterminated⟩ := hanswered.finalize
  have hresponse := hplaying.slot_response (Reaction.fault f).status
  have hslot := (congrArg (·.get? (.own round)) hslots).trans hresponse
  have hdrive := value_drive hasked hheard hfinal hslot
  have hplayed : played = _ := value_runCase_of_drive hlive hdrive hended hterminated
  have hafter : after = _ := congrArg (·.2.1) hplayed
  obtain ⟨changed, hlog⟩ := hanswered.log_finalize hresponse hfinal
  have hbefore : ((c.prepared case).answered (some case.path) (Reaction.fault f).status).rounds.log =
      c.bench.rounds.log := (Rounds.log_after_update ..).trans (log_prepared c case)
  refine ⟨Bench.statusOfCode f.code, case.historyLine (some (Bench.statusOfCode f.code)), changed,
    Bench.statusOfCode_eq_success_iff, ?_, ?_, ?_, ?_, ?_⟩
  · rw [case.suffix_historyLine_iff Bench.isNamed_statusOfCode, Bench.statusOfCode_eq_success_iff]
  · rw [hplayed]
    dsimp only
    split
    · exact .inl rfl
    · exact .inr ⟨_, _, rfl⟩
  · rw [hafter]
    exact hslot
  · rw [hafter]
    rfl
  · rw [hafter]
    rw [hbefore] at hlog
    exact hlog

/-- The code of the fault is that of success in its lowest byte only. -/
theorem runCase_fault_wide :
    let d : Device Unit := ⟨fun state b _ _ _ => pure (.fault (.failure 0x100 "reset"), state, b)⟩
    let c := Campaign.new {} none
    let case : TestCase := ⟨⟨.invoke, 1, 6, 2⟩, [0x15, 0x18]⟩
    let after := (c.runCase d () case).value.2.1
    ∃ status line changed, status ≠ .success ∧ ¬ "-> Success".toList <:+ line.toList ∧
      after.bench.rounds.slots.get? (.own 0) = some status ∧ after.history = [line] ∧
      after.bench.rounds.log = ObservationLog.empty.record ⟨0, case.path, some status, changed⟩ := by
  intro d c case after
  have hasked : c.ask d () case = (.fault (.failure 0x100 "reset"), (), c.prepared case) := rfl
  obtain ⟨status, line, changed, hstatus, hline, -, hslot, hhistory, hlog⟩ :=
    runCase_fault (c := c) rfl hasked
  have hcode : (LinkFault.failure 0x100 "reset").code ≠ 0 := by decide
  exact ⟨status, line, changed, fun h => hcode (hstatus.mp h), fun h => hcode (hline.mp h), hslot,
    hhistory, hlog⟩

/-- A fault with the code zero is reported, told in the history and observed as a success. -/
theorem runCase_fault_zero :
    let d : Device Unit := ⟨fun state b _ _ _ => pure (.fault (.failure 0 "link lost"), state, b)⟩
    let c := Campaign.new {} none
    let case : TestCase := ⟨⟨.invoke, 1, 6, 2⟩, [0x15, 0x18]⟩
    let played := (c.runCase d () case).value
    played.1.toOption.map (·.response) = some (some .success) ∧
      played.2.1.history = ["invoke e=1 c=0x0006 id=0x0002 payload=1518 -> Success"] ∧
      played.2.1.bench.rounds.log.records.map (·.status) = [some .success] := by
  decide +kernel

end Campaign

end DeviceTrial
