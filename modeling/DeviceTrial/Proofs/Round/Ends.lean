import DeviceTrial.Proofs.Round.Silences

namespace DeviceTrial

theorem RoundStatus.eq_reported_of_stage {s : RoundStatus} (h : s.stage = 3) : s = .reported := by
  cases s <;> first | rfl | cases h

namespace Round

variable {r : Round}

theorem foldl_update_ne_terminated (h : r.status ≠ .terminated) (us : List RoundUpdate) :
    (us.foldl Round.update r).status ≠ .terminated := by
  induction us generalizing r with
  | nil => exact h
  | cons u us ih => exact ih (update_ne_terminated h u)

theorem isPast_iff (h : r.status ≠ .terminated) : r.isPast = true ↔ r.status = .reported := by
  simp [isPast, h]

theorem isPast_foldl_iff (h : r.status ≠ .terminated) (us : List RoundUpdate) :
    (us.foldl Round.update r).isPast = true ↔
      ∃ n, ((us.take n).foldl Round.update r).status = .reported := by
  have hgoing := foldl_update_ne_terminated h us
  rw [isPast_iff hgoing]
  constructor
  · intro hreported
    exact ⟨us.length, by rwa [List.take_length]⟩
  · rintro ⟨n, hreported⟩
    -- the stage of a report is the last before the end, and the rest of the updates keep it
    have hrest := ((us.take n).foldl Round.update r).stage_le_foldl (us.drop n)
    rw [← List.foldl_append, List.take_append_drop, hreported] at hrest
    apply RoundStatus.eq_reported_of_stage
    cases hstatus : (us.foldl Round.update r).status with
    | terminated => exact (hgoing hstatus).elim
    | reported => rfl
    | uninitialized | writeRequest | invokeRequest | writeResponse | invokeResponse =>
      rw [hstatus] at hrest
      exact absurd hrest (by decide)

end Round

namespace Rounds

variable {s : Rounds} {r : Round}

theorem live_deliver (h : s.active = .ok r) (us : List RoundUpdate) :
    (s.deliver us).2.live = some (us.foldl Round.update r) :=
  (active_eq_ok_iff.mp (deliver_of_active h us).2).1

/-- A report is there at once, or some of the arrivals bring it. -/
theorem isPast_arrivals_iff (h : s.active = .ok r) (arrivals : List RoundUpdate) :
    (arrivals.foldl Round.update r).isPast = true ↔
      r.status = .reported ∨
        ∃ n, (s.deliver (arrivals.take n)).2.live.map (·.status) = some .reported := by
  rw [Round.isPast_foldl_iff (active_eq_ok_iff.mp h).2]
  simp only [live_deliver h, Option.map_some, Option.some.injEq]
  constructor
  · exact .inr
  · rintro (hreported | hbrought)
    · exact ⟨0, hreported⟩
    · exact hbrought

theorem waits_iff (s : Rounds) (r : Round) :
    s.waits r = true ↔ r.needsReport = true ∧ ∀ p, r.path = some p → s.silencesOf p < s.limit := by
  cases hpath : r.path with
  | none => simp [waits, hpath]
  | some p => simp [waits_eq_true_iff hpath]

/-- The end of the live round. It waits if a report is needed and the path, if there is one, has not
failed too often. Without a wait the round ends with the status that it has, and no counter is
touched. After a wait the outcome is whether a report was there at the call or some of the arrivals
brought it, and it is counted for the path that the round had at the call, and for no other. Either
way the round is then terminated, holds what it took, and nobody waits for it. -/
theorem finalize_outcome (hlive : s.live = some r) (hgoing : r.status ≠ .terminated)
    (arrivals : List RoundUpdate) :
    let waits := r.needsReport = true ∧ ∀ p, r.path = some p → s.silencesOf p < s.limit
    let isReported := r.status = .reported ∨
      ∃ n, (s.deliver (arrivals.take n)).2.live.map (·.status) = some .reported
    ∃ ended, s.finalize arrivals = .ok ended ∧
      let outcome := ended.value.1
      let after := ended.value.2
      (¬ waits → outcome = .completed r.status ∧ after.silences = s.silences ∧
        after.live = some { r with status := .terminated } ∧ after.slots = s.slots) ∧
      (waits → (outcome = .completed .reported ↔ isReported) ∧ (outcome = .silent ↔ ¬ isReported) ∧
        (∀ p, r.path = some p → after.silences.get? p =
          if outcome = .silent then some (s.silencesOf p + 1) else none) ∧
        (∀ q, r.path ≠ some q → after.silences.get? q = s.silences.get? q) ∧
        after.live =
          (s.deliver arrivals).2.live.map (fun q => { q with status := .terminated }) ∧
        after.slots = (s.deliver arrivals).2.slots) ∧
      after.isWaiting r.signal = false ∧
      (∀ u, after.update u = .error (.terminated r.id)) ∧
      (∀ later, after.finalize later = .error (.terminated r.id)) ∧
      outcome ≠ .completed .terminated := by
  intro waits isReported
  have hactive : s.active = .ok r := active_eq_ok_iff.mpr ⟨hlive, hgoing⟩
  obtain ⟨ended, hfinal, hvalue⟩ := finalize_of_active hactive arrivals
  have hwaits : s.waits r = true ↔ waits := s.waits_iff r
  have hended : ended.value.2.live = some _ := congrArg (·.2.live) hvalue
  have hid := r.id_foldl_update (s.admitted r arrivals)
  have hrefuses : ended.value.2.active = .error (.terminated r.id) :=
    (active_of_terminated hended rfl).trans (by rw [hid])
  refine ⟨ended, hfinal, fun hnot => ?_, fun hwait => ?_, ?_, update_of_error hrefuses,
    fun later => finalize_eq_error_iff.mpr hrefuses, ?_⟩
  · have hw : s.waits r = false := Bool.eq_false_iff.mpr fun hw => hnot (hwaits.mp hw)
    rw [hvalue, admitted, silencesAfter, hw]
    exact ⟨rfl, rfl, rfl, rfl⟩
  · have hw : s.waits r = true := hwaits.mpr hwait
    have hadmitted : s.admitted r arrivals = arrivals := if_pos hw
    rw [hadmitted, hw, Bool.true_and] at hvalue
    have hpast : _ ↔ isReported := isPast_arrivals_iff hactive arrivals
    have hstatus := Round.isPast_iff (Round.foldl_update_ne_terminated hgoing arrivals)
    rw [hvalue, live_deliver hactive]
    refine ⟨?_, ?_, fun p hp => ?_, fun q hq => get?_silencesAfter_of_ne hq _, rfl, rfl⟩
    · rw [← hpast]
      cases hreport : (arrivals.foldl Round.update r).isPast with
      | true => simp [hstatus.mp hreport]
      | false => simp
    · rw [← hpast]
      cases (arrivals.foldl Round.update r).isPast <;> simp
    · refine (get?_silencesAfter_self hw hp _).trans ?_
      cases (arrivals.foldl Round.update r).isPast <;> rfl
  · rw [hvalue]
    exact isWaiting_setWaiting_false _ _
  · have hgoing' := Round.foldl_update_ne_terminated hgoing (s.admitted r arrivals)
    rw [hvalue]
    intro heq
    split at heq
    · cases heq
    · exact hgoing' (RoundOutcome.completed.inj heq)

/-- A report that comes after the target was replaced during the wait clears the counter of the path
that the round had at the call. -/
theorem finalize_outcome_replaced :
    let p : CommandPath := ⟨.invoke, 1, 6, 2⟩
    let q : CommandPath := ⟨.write, 1, 8, 0⟩
    let opening : List RoundCall :=
      [.start .own, .update (.target 1 p (.own 0)), .update (.flags true true),
        .update (.response .success)]
    let s := (RoundRun.of 3 (opening ++ [.finalize [], .close false] ++ opening)).rounds
    let arrivals : List RoundUpdate :=
      [.target 1 q (.numbered 4), .changed .empty, .changed (.ofList [⟨1, 1, 6, 0⟩]),
        .flags true false]
    s.silences.get? p = some 1 ∧ ∃ ended, s.finalize arrivals = .ok ended ∧
      ended.value.1 = .completed .reported ∧ ended.value.2.silences.get? p = none ∧
      ended.value.2.silences.get? q = none ∧ ended.value.2.isWaiting .own = false ∧
      ended.value.2.update (.response .success) = .error (.terminated 1) := by
  intro p q opening s arrivals
  obtain ⟨ended, hfinal, -, hwaits, hwaiting, hupdate, -, -⟩ :=
    finalize_outcome (s := s) rfl (by decide) arrivals
  have hreport : (s.deliver (arrivals.take 3)).2.live.map (·.status) = some .reported := rfl
  obtain ⟨hreported, -, hself, hother, -, -⟩ :=
    hwaits ⟨rfl, fun p' hp' => by cases hp'; decide⟩
  have houtcome := hreported.mpr (.inr ⟨3, hreport⟩)
  have hp := hself p rfl
  rw [houtcome] at hp
  have hcount : s.silences.get? p = some 1 := by decide
  have hq : ended.value.2.silences.get? q = none := (hother q (by decide)).trans (by decide)
  exact ⟨hcount, ended, hfinal, houtcome, hp, hq, hwaiting, hupdate _⟩

end Rounds

end DeviceTrial
